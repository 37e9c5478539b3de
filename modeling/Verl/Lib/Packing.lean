import Verl.Lib.Slice

/-! # Packing items into buckets

Items are put into a bucket as long as they fit, then into the next one; an item that fits into none
is alone.

    sizes  3 4 2 9 1, room for 8      3 4 | 2 | 9 | 1

* `IsGreedyCut.unique`: there is one way to cut.
* `Filled.assign`, `Filled.slice`: an item is put behind the others, and found at its place. -/

namespace Verl

open List Option

universe u

variable {ι : Type u}

/-! ## Cutting a list -/

/-- Every stretch fits, or is one item, and has no room for the item behind it. -/
structure IsGreedyCut (size : ι → Nat) (cap : Nat) (parts : List (List ι)) : Prop where
  ne_nil : ∀ part ∈ parts, part ≠ []
  fits : ∀ part ∈ parts, (part.map size).sum ≤ cap ∨ part.length = 1
  full : parts.IsChain fun part next => ∀ x ∈ next.head?, cap < (part.map size).sum + size x

/-- `P` holds of every item and the size of what is before it in its stretch. -/
def PackedAt (size : ι → Nat) (cap : Nat) (P : ι → Nat → Prop) (items : List ι) : Prop :=
  ∃ parts, parts.flatten = items ∧ IsGreedyCut size cap parts ∧
    ∀ part ∈ parts, ∀ before x after, part = before ++ x :: after → P x (before.map size).sum

namespace IsGreedyCut

variable {size : ι → Nat} {cap : Nat} {p q : List ι} {ps qs parts : List (List ι)}

theorem nil : IsGreedyCut size cap [] where
  ne_nil := by simp
  fits := by simp
  full := isChain_nil

theorem tail (h : IsGreedyCut size cap (p :: ps)) : IsGreedyCut size cap ps where
  ne_nil := fun part hpart => h.ne_nil part (mem_cons_of_mem p hpart)
  fits := fun part hpart => h.fits part (mem_cons_of_mem p hpart)
  full := h.full.tail

theorem eq_nil_of_flatten (h : IsGreedyCut size cap ps) (hnil : ps.flatten = []) : ps = [] := by
  cases ps with
  | nil => rfl
  | cons p ps =>
    rw [flatten_cons, append_eq_nil_iff] at hnil
    exact absurd hnil.1 (h.ne_nil p mem_cons_self)

/-- A first stretch does not end before the other one. -/
theorem not_shorter (hp : IsGreedyCut size cap (p :: ps)) (hq : IsGreedyCut size cap (q :: qs))
    {x : ι} {rest : List ι} (hlonger : q = p ++ x :: rest)
    (hflat : ps.flatten = x :: rest ++ qs.flatten) : False := by
  have hroom : cap < (p.map size).sum + size x := by
    cases ps with
    | nil => cases hflat
    | cons p' ps =>
      refine (isChain_cons_cons.1 hp.full).1 x ?_
      cases p' with
      | nil => exact absurd rfl (hp.ne_nil [] (by simp))
      | cons y p' =>
        rw [flatten_cons, cons_append, cons_append, List.cons.injEq] at hflat
        exact congrArg some hflat.1
  have hsum : (p.map size).sum + size x ≤ (q.map size).sum := by grind
  rcases hq.fits q mem_cons_self with hfits | hone
  · omega
  · have hpos := length_pos_iff.2 (hp.ne_nil p mem_cons_self)
    rw [hlonger, length_append, length_cons] at hone
    omega

theorem unique (hp : IsGreedyCut size cap ps) (hq : IsGreedyCut size cap qs)
    (h : ps.flatten = qs.flatten) : ps = qs := by
  induction ps generalizing qs with
  | nil => exact (hq.eq_nil_of_flatten h.symm).symm
  | cons p ps ih =>
    cases qs with
    | nil => exact hp.eq_nil_of_flatten h
    | cons q qs =>
      have hflat := h
      rw [flatten_cons, flatten_cons, append_eq_append_iff] at hflat
      obtain ⟨rest, hlonger, hrest⟩ | ⟨rest, hlonger, hrest⟩ := hflat
      · cases rest with
        | nil =>
          obtain rfl : q = p := hlonger.trans (append_nil p)
          rw [ih hp.tail hq.tail hrest]
        | cons x rest => exact (hp.not_shorter hq hlonger hrest).elim
      · cases rest with
        | nil =>
          obtain rfl : p = q := hlonger.trans (append_nil q)
          rw [ih hp.tail hq.tail hrest.symm]
        | cons x rest => exact (hq.not_shorter hp hlonger hrest).elim

theorem append_item {x : ι} (h : IsGreedyCut size cap (parts ++ [p]))
    (hroom : (p.map size).sum + size x ≤ cap) : IsGreedyCut size cap (parts ++ [p ++ [x]]) where
  ne_nil := by
    intro part hpart
    rcases mem_append.1 hpart with hpart | hpart
    · exact h.ne_nil part (mem_append_left _ hpart)
    · rw [mem_singleton.1 hpart]
      exact append_ne_nil_of_right_ne_nil p (cons_ne_nil x [])
  fits := by
    intro part hpart
    rcases mem_append.1 hpart with hpart | hpart
    · exact h.fits part (mem_append_left _ hpart)
    · grind
  full := by
    have hp : p ≠ [] := h.ne_nil p (mem_append_right _ (mem_singleton_self p))
    obtain ⟨hparts, -, hlast⟩ := isChain_append.1 h.full
    refine isChain_append.2 ⟨hparts, isChain_singleton _, fun part hpart next hnext => ?_⟩
    obtain rfl := some.inj hnext
    rw [head?_append_of_ne_nil p hp]
    exact hlast part hpart p rfl

/-- An item begins a stretch, behind one with no room for it. -/
theorem append_part {x : ι} (h : IsGreedyCut size cap parts)
    (hroom : ∀ part ∈ parts.getLast?, cap < (part.map size).sum + size x) :
    IsGreedyCut size cap (parts ++ [[x]]) where
  ne_nil := by
    intro part hpart
    rcases mem_append.1 hpart with hpart | hpart
    · exact h.ne_nil part hpart
    · grind
  fits := by
    intro part hpart
    rcases mem_append.1 hpart with hpart | hpart
    · exact h.fits part hpart
    · grind
  full := by
    refine isChain_append.2
      ⟨h.full, isChain_singleton _, fun part hpart next hnext y hy => ?_⟩
    obtain rfl := some.inj hnext
    obtain rfl := some.inj hy
    exact hroom part hpart

end IsGreedyCut

/-! ## A bucket that is still open -/

/-- The stretches with the one that is being filled. -/
def withOpen (parts : List (List ι)) (g : List ι) : List (List ι) :=
  if g = [] then parts else parts ++ [g]

variable {cap : Nat} {size : ι → Nat} {parts : List (List ι)}

theorem flatten_withOpen (parts : List (List ι)) (g : List ι) :
    (withOpen parts g).flatten = parts.flatten ++ g := by
  unfold withOpen
  split
  · next h => rw [h, append_nil]
  · simp

/-- An item goes into the open bucket; where there is none, it begins one. -/
theorem IsGreedyCut.withOpen_item {g : List ι}
    {x : ι} (h : IsGreedyCut size cap (withOpen parts g)) (hroom : (g.map size).sum + size x ≤ cap)
    (hlast : g = [] → ∀ part ∈ parts.getLast?, cap < (part.map size).sum + size x) :
    IsGreedyCut size cap (withOpen parts (g ++ [x])) := by
  unfold withOpen at h ⊢
  rw [if_neg (append_ne_nil_of_right_ne_nil g (cons_ne_nil x []))]
  by_cases hg : g = []
  · rw [if_pos hg] at h
    rw [hg]
    exact h.append_part (hlast hg)
  · rw [if_neg hg] at h
    exact h.append_item hroom

/-! ## Places -/

/-- The items and their places, from a place on. -/
def places (size : ι → Nat) : Nat → List ι → List (ι × Nat)
  | _, [] => []
  | o, x :: xs => (x, o) :: places size (o + size x) xs

theorem map_fst_places (size : ι → Nat) (o : Nat) (xs : List ι) :
    (places size o xs).map Prod.fst = xs := by
  induction xs generalizing o with
  | nil => rfl
  | cons x xs ih => exact congrArg (x :: ·) (ih (o + size x))

theorem places_append (size : ι → Nat) (o : Nat) (xs ys : List ι) :
    places size o (xs ++ ys) = places size o xs ++ places size (o + (xs.map size).sum) ys := by
  induction xs generalizing o with
  | nil => rfl
  | cons x xs ih =>
    rw [map_cons, sum_cons, ← Nat.add_assoc]
    exact congrArg ((x, o) :: ·) (ih (o + size x))

theorem mem_places_iff {xs : List ι} {p : ι × Nat} : p ∈ places size 0 xs ↔
      ∃ before after, xs = before ++ p.1 :: after ∧ p.2 = (before.map size).sum := by
  obtain ⟨x, o⟩ := p
  constructor
  · induction xs using List.reverseRecOn with
    | nil => exact fun h => by cases h
    | append_singleton xs y ih =>
      intro h
      rw [places_append, mem_append] at h
      rcases h with h | h
      · grind
      · obtain ⟨rfl, rfl⟩ := Prod.mk.inj (mem_singleton.1 h)
        exact ⟨xs, [], rfl, Nat.zero_add _⟩
  · rintro ⟨before, after, rfl, rfl⟩
    rw [places_append, mem_append]
    right
    rw [Nat.zero_add]
    exact mem_cons_self

/-- There is one way to cut the items. -/
theorem packedAt_iff {P : ι → Nat → Prop} (h : IsGreedyCut size cap parts) :
    PackedAt size cap P parts.flatten ↔
      ∀ part ∈ parts, ∀ p ∈ places size 0 part, P p.1 p.2 := by
  have hplaces : (∀ part ∈ parts, ∀ before x after, part = before ++ x :: after →
      P x (before.map size).sum) ↔ ∀ part ∈ parts, ∀ p ∈ places size 0 part, P p.1 p.2 := by
    refine forall₂_congr fun part _ => ⟨fun hP p hp => ?_, fun hP before x after heq => ?_⟩
    · obtain ⟨before, after, heq, hplace⟩ := mem_places_iff.1 hp
      rw [hplace]
      exact hP before p.1 after heq
    · exact hP (x, _) (mem_places_iff.2 ⟨before, after, heq, rfl⟩)
  rw [← hplaces]
  constructor
  · rintro ⟨parts', hflat, hcut, hP⟩
    rwa [hcut.unique h hflat] at hP
  · exact fun hP => ⟨parts, rfl, h, hP⟩

theorem packedAt_withOpen_iff {P : ι → Nat → Prop}
    {g : List ι} (h : IsGreedyCut size cap (withOpen parts g)) :
    PackedAt size cap P (parts.flatten ++ g) ↔
      ∀ part ∈ parts ++ [g], ∀ p ∈ places size 0 part, P p.1 p.2 := by
  rw [← flatten_withOpen, packedAt_iff h]
  unfold withOpen
  split
  · next hg =>
    rw [hg, forall_mem_append]
    refine ⟨fun hP => ⟨hP, fun part hpart p hp => ?_⟩, fun hP => hP.1⟩
    rw [mem_singleton.1 hpart] at hp
    cases hp
  · exact Iff.rfl

/-! ## Data in a buffer -/

variable {α : Type u} {n : Nat}

/-- The buffer begins with the data. -/
def Stored (b : Buffer α n) (data : List (List α)) : Prop :=
  b.slice 0 data.flatten.length = data.flatten

theorem stored_nil (b : Buffer α n) : Stored b [] := rfl

theorem Stored.assign {b : Buffer α n} {data : List (List α)} {x : List α} {size : Nat}
    (h : Stored b data) (hsize : x.length = size) (hle : data.flatten.length + size ≤ n) :
    ∃ b', b.assign data.flatten.length size x = some b' ∧ Stored b' (data ++ [x]) := by
  obtain ⟨b', hassign, hwritten, hkept⟩ := b.exists_assign hle hsize
  refine ⟨b', hassign, ?_⟩
  unfold Stored
  rw [flatten_append, flatten_singleton, length_append, hsize]
  calc b'.slice 0 (data.flatten.length + size)
      = b'.slice 0 data.flatten.length ++ b'.slice (0 + data.flatten.length) size :=
        (getSlice_append b'.toList 0 data.flatten.length size).symm
    _ = data.flatten ++ x := by
        rw [hkept 0 data.flatten.length (Nat.le_of_eq (Nat.zero_add _)), h, Nat.zero_add, hwritten]

theorem Stored.slice {b : Buffer α n} {before after : List (List α)} {x : List α}
    (h : Stored b (before ++ x :: after)) : b.slice before.flatten.length x.length = x := by
  have hpart := getSlice_getSlice b.toList (a := 0) (n := (before ++ x :: after).flatten.length)
    (o := before.flatten.length) (k := x.length) (by
      rw [flatten_append, flatten_cons, length_append, length_append]
      omega)
  unfold Stored Buffer.slice at h
  rw [h, Nat.zero_add] at hpart
  unfold Buffer.slice
  rw [← hpart, flatten_append, flatten_cons]
  unfold getSlice
  rw [drop_left, take_left]

/-- The items of a bucket are in its buffer, behind each other. -/
structure Filled (size : ι → Nat) (data : ι → List α) (b : Buffer α n) (g : List ι) (offset : Nat) :
    Prop where
  length : ∀ x ∈ g, (data x).length = size x
  offset_eq : offset = (g.map size).sum
  stored : Stored b (g.map data)

namespace Filled

variable {size : ι → Nat} {data : ι → List α} {b : Buffer α n} {g : List ι} {offset : Nat}

theorem nil : Filled size data b [] 0 where
  length := fun _ hx => by cases hx
  offset_eq := rfl
  stored := stored_nil b

theorem length_flatten {g : List ι} (h : ∀ x ∈ g, (data x).length = size x) :
    (g.map data).flatten.length = (g.map size).sum := by
  rw [List.length_flatten, List.map_map]
  exact congrArg List.sum (List.map_congr_left h)

theorem assign {x : ι} (h : Filled size data b g offset) (hx : (data x).length = size x)
    (hle : offset + size x ≤ n) :
    ∃ b', b.assign offset (size x) (data x) = some b' ∧
      Filled size data b' (g ++ [x]) (offset + size x) := by
  have hoffset : (g.map data).flatten.length = offset :=
    (length_flatten h.length).trans h.offset_eq.symm
  obtain ⟨b', hassign, hstored⟩ := h.stored.assign hx (by rw [hoffset]; exact hle)
  rw [hoffset] at hassign
  refine ⟨b', hassign, ?_, ?_, ?_⟩
  · intro y hy
    rcases mem_append.1 hy with hy | hy
    · exact h.length y hy
    · grind
  · rw [map_append, sum_append, map_singleton, sum_singleton, h.offset_eq]
  · grind

theorem slice {p : ι × Nat} (h : Filled size data b g offset) (hp : p ∈ places size 0 g) :
    b.slice p.2 (size p.1) = data p.1 := by
  obtain ⟨before, after, rfl, hplace⟩ := mem_places_iff.1 hp
  have hstored := h.stored
  rw [map_append] at hstored
  have hslice := hstored.slice
  rw [h.length p.1 (mem_append_right _ mem_cons_self),
    length_flatten fun x hx => h.length x (mem_append_left _ hx)] at hslice
  rw [hplace]
  exact hslice

end Filled

end Verl
