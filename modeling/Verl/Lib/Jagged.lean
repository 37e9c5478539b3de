import Verl.Lib.Slice

/-! # Jagged lists

A jagged list is a list of rows of any lengths; `List.flatten` packs it, `List.splitLengths`
cuts a packed list into rows.

* `getElem?_flatten_add`, `entry_splitLengths`: an entry of a row, and where it is packed.
* `drop_take_flatten`: a stretch inside a row.
* `zipWith_flatMap`: working on parts and putting the results behind each other. -/

namespace Verl

open List

universe u v w

variable {α : Type u} {β : Type v} {γ : Type w}

/-- The entry `t` of row `b`. -/
def entry (rows : List (List α)) (b t : Nat) : Option α := rows[b]?.bind fun row => row[t]?

/-- Where row `b` starts in the packed list. -/
def rowStart (lens : List Nat) (b : Nat) : Nat := (lens.take b).sum

variable {lens : List Nat} {rows : List (List α)} {row : List α} {len i t b : Nat}

theorem rowStart_succ (h : lens[b]? = some len) :
    rowStart lens (b + 1) = rowStart lens b + len := by
  unfold rowStart
  rw [take_add_one, h, sum_append]
  rfl

theorem rowStart_le_sum (lens : List Nat) (b : Nat) : rowStart lens b ≤ lens.sum := by
  have hsum := congrArg List.sum (take_append_drop b lens)
  rw [sum_append] at hsum
  unfold rowStart
  omega

theorem rowStart_add_lt (h : lens[b]? = some len)
    (ht : t < len) : rowStart lens b + t < lens.sum := by
  have hsplit : lens.sum = rowStart lens (b + 1) + (lens.drop (b + 1)).sum := by
    unfold rowStart
    rw [← sum_append, take_append_drop]
  rw [hsplit, rowStart_succ h]
  omega

/-- Every place lies in one of the rows. -/
theorem exists_rowStart_add {s : Nat} (h : s < lens.sum) :
    ∃ b t len : Nat, lens[b]? = some len ∧ t < len ∧ s = rowStart lens b + t := by
  induction lens generalizing s with
  | nil => exact absurd h (Nat.not_lt_zero s)
  | cons len lens ih =>
    rw [sum_cons] at h
    by_cases hs : s < len
    · exact ⟨0, s, len, rfl, hs, (Nat.zero_add s).symm⟩
    · obtain ⟨b, t, len', hlen, ht, hst⟩ := ih (show s - len < lens.sum by omega)
      refine ⟨b + 1, t, len', hlen, ht, ?_⟩
      unfold rowStart at hst ⊢
      rw [take_succ_cons, sum_cons]
      omega

theorem rowStart_of_forall_eq {n : Nat} (h : ∀ len ∈ lens, len = n)
    (hb : b ≤ lens.length) : rowStart lens b = b * n := by
  induction b with
  | zero =>
    rw [Nat.zero_mul]
    rfl
  | succ b ih =>
    have hlen : lens[b]? = some n := by
      rw [getElem?_eq_getElem (by omega), h _ (getElem_mem _)]
    rw [rowStart_succ hlen, ih (by omega), Nat.succ_mul]

theorem getElem?_flatten_add (h : rows[b]? = some row) (ht : t < row.length) :
    rows.flatten[rowStart (rows.map length) b + t]? = row[t]? := by
  induction rows generalizing b with
  | nil => cases h
  | cons first rows ih =>
    cases b with
    | zero =>
      cases h
      show (row ++ rows.flatten)[0 + t]? = _
      rw [Nat.zero_add, getElem?_append_left ht]
    | succ b =>
      have hstart : rowStart ((first :: rows).map length) (b + 1) =
        first.length + rowStart (rows.map length) b := rfl
      rw [flatten_cons, hstart, Nat.add_assoc,
        getElem?_append_right (Nat.le_add_right _ _), Nat.add_sub_cancel_left]
      exact ih h

theorem entry_splitLengths {xs : List α} (h : lens[b]? = some len) (ht : t < len) :
    entry (lens.splitLengths xs) b t = xs[rowStart lens b + t]? := by
  induction lens generalizing b xs with
  | nil => cases h
  | cons first lens ih =>
    rw [splitLengths_cons]
    cases b with
    | zero =>
      cases h
      show (xs.take len)[t]? = xs[0 + t]?
      rw [Nat.zero_add, getElem?_take_of_lt ht]
    | succ b =>
      have hstart : rowStart (first :: lens) (b + 1) = first + rowStart lens b := rfl
      rw [hstart, Nat.add_assoc, ← getElem?_drop]
      exact ih h

theorem splitLengths_flatten (rows : List (List α)) :
    (rows.map length).splitLengths rows.flatten = rows := by
  induction rows with
  | nil => rfl
  | cons row rows ih =>
    rw [map_cons, splitLengths_cons, flatten_cons, take_left, drop_left, ih]

theorem drop_take_flatten {a : Nat} (h : rows[i]? = some row) (hb : b ≤ row.length) :
    (rows.flatten.take (rowStart (rows.map length) i + b)).drop
      (rowStart (rows.map length) i + a) = (row.take b).drop a := by
  induction rows generalizing i with
  | nil => cases h
  | cons first rows ih =>
    cases i with
    | zero =>
      cases h
      show ((row ++ rows.flatten).take (0 + b)).drop (0 + a) = _
      rw [Nat.zero_add, Nat.zero_add, take_append_of_le_length hb]
    | succ i =>
      have hstart : rowStart ((first :: rows).map length) (i + 1) =
        first.length + rowStart (rows.map length) i := rfl
      rw [flatten_cons, hstart, Nat.add_assoc, Nat.add_assoc, take_length_add_append,
        drop_length_add_append]
      exact ih h

theorem getSlice_flatten {o w : Nat} (h : rows[i]? = some row) (hw : o + w ≤ row.length) :
    getSlice rows.flatten (rowStart (rows.map length) i + o) w = getSlice row o w := by
  have hpart := drop_take_flatten (a := o) h hw
  rw [drop_take, drop_take] at hpart
  rwa [Nat.add_sub_add_left, Nat.add_sub_cancel_left] at hpart

/-! ## Offsets -/

/-- The offsets of rows of the given lengths. -/
def offsets (lens : List Nat) : List Nat := lens.scanl (· + ·) 0

theorem length_offsets (lens : List Nat) : (offsets lens).length = lens.length + 1 :=
  length_scanl ..

theorem scanl_add_eq (lens : List Nat) (s : Nat) :
    lens.scanl (· + ·) s = (range (lens.length + 1)).map fun i => s + rowStart lens i := by
  induction lens generalizing s with
  | nil => rfl
  | cons len lens ih =>
    rw [scanl_cons, ih, length_cons, range_succ_eq_map (n := lens.length + 1),
      map_cons, map_map]
    congr 1
    apply map_congr_left
    intro i _
    exact Nat.add_assoc s len (rowStart lens i)

theorem offsets_eq (lens : List Nat) :
    offsets lens = (range (lens.length + 1)).map (rowStart lens) := by
  unfold offsets
  rw [scanl_add_eq]
  simp only [Nat.zero_add]

theorem getElem?_offsets {start : Nat} (h : (offsets lens)[i]? = some start) :
    start = rowStart lens i := by
  rw [offsets_eq, getElem?_map, Option.map_eq_some_iff] at h
  obtain ⟨j, hj, rfl⟩ := h
  obtain ⟨hlt, rfl⟩ := List.getElem?_eq_some_iff.1 hj
  rw [getElem_range]

theorem getElem?_offsets_of_getElem? {n : Nat} (h : lens[i]? = some n) :
    (offsets lens)[i]? = some (rowStart lens i) := by
  obtain ⟨hi, -⟩ := List.getElem?_eq_some_iff.1 h
  rw [offsets_eq, getElem?_map, getElem?_range (by omega)]
  rfl

theorem tail_offsets_eq (lens : List Nat) :
    (offsets lens).tail = (range lens.length).map fun i => rowStart lens (i + 1) := by
  rw [offsets_eq, range_succ_eq_map, map_cons, map_map]
  rfl

theorem rowStart_length (lens : List Nat) : rowStart lens lens.length = lens.sum := by
  unfold rowStart
  rw [take_length]

theorem getElem?_tail_offsets (h : lens[i]? = some len) :
    (offsets lens).tail[i]? = some (rowStart lens i + len) := by
  have hi : i < lens.length := (List.getElem?_eq_some_iff.1 h).1
  rw [tail_offsets_eq, getElem?_map, getElem?_range hi, Option.map_some,
    rowStart_succ h]

theorem getLast?_tail_offsets (h : lens ≠ []) : (offsets lens).tail.getLast? = some lens.sum := by
  have hpos := length_pos_iff.2 h
  rw [tail_offsets_eq, getLast?_map, getLast?_range, if_neg (by omega), Option.map_some,
    Nat.sub_add_cancel hpos, rowStart_length]

/-- Two lists of rows that agree row by row. -/
theorem zipWith_eq_zipWith {α' : Type*} {β' : Type*} {f : α → β → γ} {g : α' → β' → γ}
    {as : List α} {bs : List β} {as' : List α'} {bs' : List β'} (has : as.length = as'.length)
    (hbs : bs.length = bs'.length)
    (h : ∀ (i : Nat) a b a' b', as[i]? = some a → bs[i]? = some b → as'[i]? = some a' →
      bs'[i]? = some b' → f a b = g a' b') : zipWith f as bs = zipWith g as' bs' := by
  apply ext_getElem
  · grind
  · intro i hi hi'
    rw [length_zipWith] at hi
    rw [getElem_zipWith, getElem_zipWith]
    exact h i _ _ _ _ (getElem?_eq_getElem (by omega)) (getElem?_eq_getElem (by omega))
      (getElem?_eq_getElem (by omega)) (getElem?_eq_getElem (by omega))

/-! ## Parts of equal lengths -/

theorem getSlice_zipWith (f : α → β → γ) (xs : List α) (ys : List β) (offset size : Nat) :
    getSlice (zipWith f xs ys) offset size =
      zipWith f (getSlice xs offset size) (getSlice ys offset size) := by
  unfold getSlice
  rw [drop_zipWith, take_zipWith]

theorem getSlice_map (f : α → β) (xs : List α) (offset size : Nat) :
    getSlice (xs.map f) offset size = (getSlice xs offset size).map f := by
  unfold getSlice
  rw [← map_drop, ← map_take]

theorem zipWith_replicate_length (f : α → β → γ) (xs : List α) (b : β) :
    zipWith f xs (replicate xs.length b) = xs.map fun a => f a b := by
  induction xs with
  | nil => rfl
  | cons a xs ih =>
    rw [length_cons, replicate_succ, zipWith_cons_cons, map_cons, ih]

theorem zipWith_flatMap {ι : Type*} (f : α → β → γ) (parts : List ι) (a : ι → List α)
    (b : ι → List β) (h : ∀ i ∈ parts, (a i).length = (b i).length) :
    parts.flatMap (fun i => zipWith f (a i) (b i)) =
      zipWith f (parts.flatMap a) (parts.flatMap b) := by
  induction parts with
  | nil => rfl
  | cons i parts ih =>
    rw [flatMap_cons, flatMap_cons, flatMap_cons,
      zipWith_append (h i mem_cons_self),
      ih fun j hj => h j (mem_cons_of_mem _ hj)]

end Verl
