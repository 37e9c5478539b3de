import Verl.Lib.Numerals

/-! # Runs of a list

A run is a stretch of items with the same key, as long as it can be.

    keys  1 1 2 1      runs  1 1 | 2 | 1

* `keyRuns`: the runs, with their keys.
* `flatten_keyRuns`, `key_of_mem_keyRuns`: they make up the list, and every item has the key.
* `keyRuns_eq_of_mem`: an item of a list without duplicates is in one of them.
* `nodup_keys_keyRuns`, `filter_of_mem_keyRuns`: with no other key between two items of one key, every
  key has one run, of all its items. -/

namespace Verl

open List

universe u v w

variable {α : Type u} {κ : Type v} {γ : Type w} [DecidableEq κ]

/-- The runs of a list whose first run has begun with `run`. -/
def keyRunsFrom (key : α → κ) (k : κ) (run : List α) : List α → List (κ × List α)
  | [] => [(k, run)]
  | x :: xs =>
    if key x = k then keyRunsFrom key k (run ++ [x]) xs
    else (k, run) :: keyRunsFrom key (key x) [x] xs

def keyRuns (key : α → κ) : List α → List (κ × List α)
  | [] => []
  | x :: xs => keyRunsFrom key (key x) [x] xs

variable {key : α → κ}

variable {run xs : List α} {x : α} {k : κ} {r : κ × List α}

theorem flatten_keyRunsFrom (k : κ) (run xs : List α) :
    ((keyRunsFrom key k run xs).map Prod.snd).flatten = run ++ xs := by
  induction xs generalizing k run with
  | nil => simp [keyRunsFrom]
  | cons x xs ih =>
    unfold keyRunsFrom
    split
    · rw [ih]
      simp
    · grind

theorem flatten_keyRuns (key : α → κ) (xs : List α) : ((keyRuns key xs).map Prod.snd).flatten = xs := by
  cases xs with
  | nil => rfl
  | cons x xs => exact flatten_keyRunsFrom (key x) [x] xs

theorem key_of_mem_keyRunsFrom (hrun : ∀ x ∈ run, key x = k)
    (hr : r ∈ keyRunsFrom key k run xs) (hx : x ∈ r.2) : key x = r.1 := by
  induction xs generalizing k run with
  | nil =>
    rw [keyRunsFrom, mem_singleton] at hr
    subst hr
    exact hrun x hx
  | cons y xs ih =>
    unfold keyRunsFrom at hr
    split at hr
    case isTrue heq =>
      refine ih (fun z hz => ?_) hr
      rcases mem_append.1 hz with hz | hz
      · exact hrun z hz
      · grind
    case isFalse =>
      rcases mem_cons.1 hr with rfl | hr
      · exact hrun x hx
      · exact ih (fun z hz => congrArg key (mem_singleton.1 hz)) hr

theorem key_of_mem_keyRuns (hr : r ∈ keyRuns key xs) (hx : x ∈ r.2) : key x = r.1 := by
  cases xs with
  | nil => cases hr
  | cons y xs =>
    exact key_of_mem_keyRunsFrom (fun z hz => congrArg key (mem_singleton.1 hz)) hr hx

theorem mem_iff_mem_keyRuns (key : α → κ) : x ∈ xs ↔ ∃ r ∈ keyRuns key xs, x ∈ r.2 := by
  conv => lhs; rw [← flatten_keyRuns key xs]
  constructor
  · grind
  · grind

theorem nodup_of_mem_keyRuns (h : xs.Nodup) (hr : r ∈ keyRuns key xs) : r.2.Nodup := by
  rw [← flatten_keyRuns key xs, nodup_flatten] at h
  exact h.1 r.2 (mem_map_of_mem hr)

theorem keyRuns_eq_of_mem (h : xs.Nodup) {r' : κ × List α}
    (hr : r ∈ keyRuns key xs) (hr' : r' ∈ keyRuns key xs) (hx : x ∈ r.2) (hx' : x ∈ r'.2) :
    r = r' := by
  rw [← flatten_keyRuns key xs, nodup_flatten, pairwise_map] at h
  have hsymm : Std.Symm fun r r' : κ × List α => Disjoint r.2 r'.2 :=
    ⟨fun _ _ hdisjoint _ hy hy' => hdisjoint hy' hy⟩
  by_contra hne
  exact h.2.forall hr hr' hne hx hx'

theorem keyRunsFrom_map (f : γ → α) (k : κ) (run xs : List γ) :
    keyRunsFrom key k (run.map f) (xs.map f) =
      (keyRunsFrom (fun z => key (f z)) k run xs).map fun r => (r.1, r.2.map f) := by
  induction xs generalizing k run with
  | nil => rfl
  | cons x xs ih =>
    have happend := ih k (run ++ [x])
    rw [map_append] at happend
    rw [map_cons]
    unfold keyRunsFrom
    split
    · exact happend
    · grind

theorem keyRuns_map (f : γ → α) (xs : List γ) : keyRuns key (xs.map f) =
      (keyRuns (fun z => key (f z)) xs).map fun r => (r.1, r.2.map f) := by
  cases xs with
  | nil => rfl
  | cons x xs => exact keyRunsFrom_map f (key (f x)) [x] xs

/-! ## One run for each key -/

/-- No other key stands between two items of one key. -/
def Contiguous (key : α → κ) (xs : List α) : Prop :=
  ∀ x y z, [x, y, z].Sublist xs → key x = key z → key y = key x

omit [DecidableEq κ] in
theorem Contiguous.sublist {ys : List α} (h : Contiguous key ys) (hsub : xs.Sublist ys) :
    Contiguous key xs := fun x y z hxyz => h x y z (hxyz.trans hsub)

theorem ne_nil_of_mem_keyRunsFrom (hrun : run ≠ [])
    (hr : r ∈ keyRunsFrom key k run xs) : r.2 ≠ [] := by
  induction xs generalizing k run with
  | nil =>
    rw [keyRunsFrom, mem_singleton] at hr
    subst hr
    exact hrun
  | cons y xs ih =>
    unfold keyRunsFrom at hr
    split at hr
    · exact ih (by simp) hr
    · grind

theorem ne_nil_of_mem_keyRuns (hr : r ∈ keyRuns key xs) : r.2 ≠ [] := by
  cases xs with
  | nil => cases hr
  | cons y xs => exact ne_nil_of_mem_keyRunsFrom (cons_ne_nil y []) hr

theorem nodup_keys_keyRunsFrom (hne : run ≠ [])
    (hrun : ∀ x ∈ run, key x = k) (h : Contiguous key (run ++ xs)) :
    ((keyRunsFrom key k run xs).map Prod.fst).Nodup := by
  induction xs generalizing k run with
  | nil => exact nodup_singleton k
  | cons y xs ih =>
    unfold keyRunsFrom
    split
    case isTrue heq =>
      refine ih (by simp) (fun z hz => ?_) (by simpa using h)
      rcases mem_append.1 hz with hz | hz
      · exact hrun z hz
      · grind
    case isFalse hdiff =>
      have hy : ∀ z ∈ [y], key z = key y := fun z hz => congrArg key (mem_singleton.1 hz)
      have hrest := ih (cons_ne_nil y []) hy
        (h.sublist ((singleton_append ..).symm ▸ sublist_append_right run (y :: xs)))
      rw [map_cons, nodup_cons]
      refine ⟨fun hmem => ?_, hrest⟩
      -- an item of the first key after `y` would have `y` between two of one key
      obtain ⟨r, hr, hk⟩ := mem_map.1 hmem
      obtain ⟨z, hz⟩ := exists_mem_of_ne_nil _ (ne_nil_of_mem_keyRunsFrom (cons_ne_nil y []) hr)
      have hkey : key z = k := (key_of_mem_keyRunsFrom hy hr hz).trans hk
      have hlater : z ∈ y :: xs := by
        have hflat : ((keyRunsFrom key (key y) [y] xs).map Prod.snd).flatten = y :: xs :=
          flatten_keyRunsFrom (key y) [y] xs
        rw [← hflat]
        exact mem_flatten.2 ⟨r.2, mem_map_of_mem hr, hz⟩
      obtain ⟨w, hw⟩ := exists_mem_of_ne_nil _ hne
      rcases mem_cons.1 hlater with rfl | hlater
      · exact hdiff hkey
      · refine hdiff ((h w y z ?_ ((hrun w hw).trans hkey.symm)).trans (hrun w hw))
        have hfirst : [w].Sublist run := singleton_sublist.2 hw
        have hthen : [y, z].Sublist (y :: xs) :=
          (singleton_sublist.2 hlater).cons_cons y
        exact hfirst.append hthen

theorem nodup_keys_keyRuns (h : Contiguous key xs) : ((keyRuns key xs).map Prod.fst).Nodup := by
  cases xs with
  | nil => exact nodup_nil
  | cons x xs =>
    exact nodup_keys_keyRunsFrom (cons_ne_nil x [])
      (fun z hz => congrArg key (mem_singleton.1 hz)) h

theorem filter_of_mem_keyRuns (h : ((keyRuns key xs).map Prod.fst).Nodup)
    (hr : r ∈ keyRuns key xs) : xs.filter (fun x => key x = r.1) = r.2 := by
  have hkeys : ∀ s ∈ keyRuns key xs, ∀ x ∈ s.2, key x = s.1 := fun s hs x hx =>
    key_of_mem_keyRuns hs hx
  conv => lhs; rw [← flatten_keyRuns key xs]
  generalize keyRuns key xs = runs at h hr hkeys
  induction runs with
  | nil => cases hr
  | cons s runs ih =>
    rw [map_cons, nodup_cons] at h
    have hrest : ∀ t ∈ runs, t.1 ≠ s.1 := fun t ht heq => h.1 (heq ▸ mem_map_of_mem ht)
    rw [map_cons, flatten_cons, filter_append]
    rcases mem_cons.1 hr with rfl | hr
    · have hself : r.2.filter (fun x => key x = r.1) = r.2 := by
        rw [filter_eq_self]
        intro x hx
        exact decide_eq_true (hkeys r mem_cons_self x hx)
      have hothers : (runs.map Prod.snd).flatten.filter (fun x => key x = r.1) = [] := by
        rw [filter_eq_nil_iff]
        intro x hx hkey
        obtain ⟨run, hrun, hx⟩ := mem_flatten.1 hx
        obtain ⟨t, ht, rfl⟩ := mem_map.1 hrun
        exact hrest t ht ((hkeys t (mem_cons_of_mem _ ht) x hx).symm.trans (of_decide_eq_true hkey))
      rw [hself, hothers, append_nil]
    · have hfirst : s.2.filter (fun x => key x = r.1) = [] := by
        rw [filter_eq_nil_iff]
        intro x hx hkey
        exact hrest r hr ((of_decide_eq_true hkey).symm.trans (hkeys s mem_cons_self x hx))
      rw [hfirst, nil_append]
      exact ih h.2 hr fun t ht => hkeys t (mem_cons_of_mem _ ht)

end Verl
