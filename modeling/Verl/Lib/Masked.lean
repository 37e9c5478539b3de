import Verl.Lib.Jagged

/-! # Lists under a mask

`maskSelect mask xs` is `xs[mask]`, and `maskAssign mask xs vals` is `xs` after
`xs[mask] = vals` with as many values as set entries.

* `maskSelect_flatten`, `maskAssign_flatten`: masks of several rows, put behind each other.
* `maskAssign_maskSelect`: what was selected goes back to where it came from.
* `filterMap_nonzero`, `foldl_set_nonzero`: the same by the list of the set indices. -/

namespace Verl

open List

universe u

variable {α : Type u}

def maskSelect : List Bool → List α → List α
  | true :: mask, x :: xs => x :: maskSelect mask xs
  | false :: mask, _ :: xs => maskSelect mask xs
  | _, _ => []

def maskAssign : List Bool → List α → List α → List α
  | true :: mask, _ :: xs, v :: vals => v :: maskAssign mask xs vals
  | false :: mask, x :: xs, vals => x :: maskAssign mask xs vals
  | _, xs, _ => xs

/-- The indices of the set entries, in order. -/
def nonzero (mask : List Bool) : List Nat :=
  (List.range mask.length).filter fun i => mask.getD i false

/-! ## Selection -/

variable {xs vals : List α} {masks : List (List Bool)} {mask : List Bool}

@[simp] theorem maskSelect_nil (xs : List α) : maskSelect [] xs = [] := rfl

@[simp] theorem maskSelect_cons_true (mask : List Bool) (x : α) (xs : List α) :
    maskSelect (true :: mask) (x :: xs) = x :: maskSelect mask xs := rfl

@[simp] theorem maskSelect_cons_false (mask : List Bool) (x : α) (xs : List α) :
    maskSelect (false :: mask) (x :: xs) = maskSelect mask xs := rfl

theorem length_maskSelect (h : mask.length = xs.length) :
    (maskSelect mask xs).length = mask.count true := by
  induction mask generalizing xs with
  | nil => rfl
  | cons b mask ih =>
    cases xs with
    | nil => cases h
    | cons x xs =>
      have hrest := ih (Nat.succ.inj h)
      cases b with
      | true => rw [maskSelect_cons_true, length_cons, hrest, count_cons_self]
      | false =>
        rw [maskSelect_cons_false, hrest, count_cons_of_ne (by decide)]

theorem maskSelect_append {mask' : List Bool} (h : mask.length = xs.length) (xs' : List α) :
    maskSelect (mask ++ mask') (xs ++ xs') = maskSelect mask xs ++ maskSelect mask' xs' := by
  induction mask generalizing xs with
  | nil =>
    cases xs with
    | nil => rfl
    | cons x xs => cases h
  | cons b mask ih =>
    cases xs with
    | nil => cases h
    | cons x xs =>
      have hrest := ih (Nat.succ.inj h)
      cases b with
      | true => exact congrArg (x :: ·) hrest
      | false => exact hrest

section

variable {rows : List (List α)} (h : Forall₂ (fun mask row => mask.length = row.length) masks rows)
include h

/-- The rows of a flat selection. -/
theorem maskSelect_flatten :
    maskSelect masks.flatten rows.flatten = (zipWith maskSelect masks rows).flatten := by
  induction h with
  | nil => rfl
  | cons hrow _ ih =>
    rw [flatten_cons, flatten_cons, maskSelect_append hrow, ih, zipWith_cons_cons,
      flatten_cons]

theorem map_length_maskSelect :
    (zipWith maskSelect masks rows).map length = masks.map (List.count true) := by
  induction h with
  | nil => rfl
  | cons hrow _ ih =>
    rw [zipWith_cons_cons, map_cons, map_cons, ih, length_maskSelect hrow]

end

@[simp] theorem maskSelect_replicate_true (xs : List α) :
    maskSelect (replicate xs.length true) xs = xs := by
  induction xs with
  | nil => rfl
  | cons x xs ih => exact congrArg (x :: ·) ih

@[simp] theorem maskSelect_replicate_false (n : Nat) (xs : List α) :
    maskSelect (replicate n false) xs = [] := by
  induction n generalizing xs with
  | zero => rfl
  | succ n ih =>
    cases xs with
    | nil => rfl
    | cons x xs => exact ih xs

/-! ## Assignment -/

@[simp] theorem maskAssign_cons_true (mask : List Bool) (x v : α) (xs vals : List α) :
    maskAssign (true :: mask) (x :: xs) (v :: vals) = v :: maskAssign mask xs vals := rfl

@[simp] theorem maskAssign_cons_false (mask : List Bool) (x : α) (xs vals : List α) :
    maskAssign (false :: mask) (x :: xs) vals = x :: maskAssign mask xs vals := rfl

theorem maskAssign_append (h : mask.length = xs.length)
    (hvals : vals.length = mask.count true) (mask' : List Bool) (xs' vals' : List α) :
    maskAssign (mask ++ mask') (xs ++ xs') (vals ++ vals') =
      maskAssign mask xs vals ++ maskAssign mask' xs' vals' := by
  induction mask generalizing xs vals with
  | nil =>
    cases xs with
    | nil =>
      rw [count_nil, length_eq_zero_iff] at hvals
      rw [hvals]
      rfl
    | cons x xs => cases h
  | cons b mask ih =>
    cases xs with
    | nil => cases h
    | cons x xs =>
      cases b with
      | true =>
        rw [count_cons_self] at hvals
        cases vals with
        | nil => cases hvals
        | cons v vals => exact congrArg (v :: ·) (ih (Nat.succ.inj h) (Nat.succ.inj hvals))
      | false =>
        exact congrArg (x :: ·) (ih (Nat.succ.inj h) hvals)

theorem length_maskAssign (mask : List Bool) (xs vals : List α) :
    (maskAssign mask xs vals).length = xs.length := by
  induction mask generalizing xs vals with
  | nil => rfl
  | cons b mask ih =>
    cases xs with
    | nil => cases b <;> rfl
    | cons x xs =>
      cases b with
      | false => exact congrArg Nat.succ (ih xs vals)
      | true =>
        cases vals with
        | nil => rfl
        | cons v vals => exact congrArg Nat.succ (ih xs vals)

theorem maskSelect_maskAssign (h : mask.length = xs.length)
    (hvals : vals.length = mask.count true) : maskSelect mask (maskAssign mask xs vals) = vals := by
  induction mask generalizing xs vals with
  | nil =>
    rw [count_nil, length_eq_zero_iff] at hvals
    rw [hvals, maskSelect_nil]
  | cons b mask ih =>
    cases xs with
    | nil => cases h
    | cons x xs =>
      cases b with
      | true =>
        rw [count_cons_self] at hvals
        cases vals with
        | nil => cases hvals
        | cons v vals => exact congrArg (v :: ·) (ih (Nat.succ.inj h) (Nat.succ.inj hvals))
      | false =>
        exact ih (Nat.succ.inj h) hvals

theorem maskSelect_subset (mask : List Bool) (xs : List α) : maskSelect mask xs ⊆ xs := by
  induction mask generalizing xs with
  | nil => exact nil_subset _
  | cons b mask ih =>
    cases xs with
    | nil => cases b <;> exact nil_subset _
    | cons x xs =>
      cases b with
      | true => exact cons_subset_cons x (ih xs)
      | false => exact subset_cons_of_subset x (ih xs)

theorem maskAssign_subset (mask : List Bool) (xs vals : List α) :
    maskAssign mask xs vals ⊆ xs ++ vals := by
  induction mask generalizing xs vals with
  | nil => exact subset_append_left _ _
  | cons b mask ih =>
    cases xs with
    | nil => cases b <;> exact nil_subset _
    | cons x xs =>
      cases b with
      | false => exact cons_subset_cons x (ih xs vals)
      | true =>
        cases vals with
        | nil => exact subset_append_left _ _
        | cons v vals =>
          intro y hy
          rcases mem_cons.1 hy with rfl | hy
          · exact mem_append_right _ mem_cons_self
          · grind

theorem maskAssign_flatten {valss : List (List α)} {width : Nat}
    (zero : α) (hwidth : ∀ mask ∈ masks, mask.length = width)
    (h : Forall₂ (fun mask vals => vals.length = List.count true mask) masks valss) :
    maskAssign masks.flatten (replicate (masks.length * width) zero) valss.flatten =
      (zipWith (fun mask vals => maskAssign mask (replicate width zero) vals)
        masks valss).flatten := by
  induction h with
  | nil =>
    rw [length_nil, Nat.zero_mul]
    rfl
  | @cons mask vals masks valss hvals _ ih =>
    rw [forall_mem_cons] at hwidth
    have hlen : mask.length = (replicate width zero).length := by
      rw [length_replicate, hwidth.1]
    rw [length_cons, Nat.succ_mul, Nat.add_comm, replicate_add, flatten_cons,
      flatten_cons, maskAssign_append hlen hvals, ih hwidth.2, zipWith_cons_cons,
      flatten_cons]

theorem maskAssign_maskSelect (h : mask.length = xs.length) (zero : α) :
    maskAssign mask (replicate xs.length zero) (maskSelect mask xs) =
      zipWith (fun m x => if m then x else zero) mask xs := by
  induction mask generalizing xs with
  | nil =>
    cases xs with
    | nil => rfl
    | cons x xs => cases h
  | cons b mask ih =>
    cases xs with
    | nil => cases h
    | cons x xs =>
      have hrest := ih (Nat.succ.inj h)
      cases b with
      | true => exact congrArg (x :: ·) hrest
      | false => exact congrArg (zero :: ·) hrest

@[simp] theorem maskAssign_replicate_true (h : vals.length = xs.length) :
    maskAssign (replicate xs.length true) xs vals = vals := by
  induction xs generalizing vals with
  | nil => exact (length_eq_zero_iff.1 h).symm
  | cons x xs ih =>
    cases vals with
    | nil => cases h
    | cons v vals => exact congrArg (v :: ·) (ih (Nat.succ.inj h))

@[simp] theorem maskAssign_replicate_false (n : Nat) (xs vals : List α) :
    maskAssign (replicate n false) xs vals = xs := by
  induction n generalizing xs with
  | zero => rfl
  | succ n ih =>
    cases xs with
    | nil => rfl
    | cons x xs => exact congrArg (x :: ·) (ih xs)

/-! ## Set indices -/

theorem nonzero_cons (b : Bool) (mask : List Bool) :
    nonzero (b :: mask) = (if b then [0] else []) ++ (nonzero mask).map (· + 1) := by
  unfold nonzero
  rw [length_cons, range_succ_eq_map, filter_cons, filter_map]
  cases b <;> rfl

theorem filterMap_nonzero (h : mask.length = xs.length) :
    (nonzero mask).filterMap (xs[·]?) = maskSelect mask xs := by
  induction mask generalizing xs with
  | nil => rfl
  | cons b mask ih =>
    cases xs with
    | nil => cases h
    | cons x xs =>
      have hrest := ih (Nat.succ.inj h)
      rw [nonzero_cons, filterMap_append, filterMap_map]
      have htail : (nonzero mask).filterMap ((fun i => (x :: xs)[i]?) ∘ fun i => i + 1) =
          maskSelect mask xs := hrest
      rw [htail]
      cases b <;> rfl

theorem foldl_set_map_succ (x : α) (xs : List α) (pairs : List (Nat × α)) :
    (pairs.map fun p => (p.1 + 1, p.2)).foldl (fun out p => out.set p.1 p.2) (x :: xs) =
      x :: pairs.foldl (fun out p => out.set p.1 p.2) xs := by
  induction pairs generalizing xs with
  | nil => rfl
  | cons p pairs ih => exact ih (xs.set p.1 p.2)

theorem foldl_set_nonzero (h : mask.length = xs.length) (vals : List α) :
    ((nonzero mask).zip vals).foldl (fun out p => out.set p.1 p.2) xs = maskAssign mask xs vals := by
  induction mask generalizing xs vals with
  | nil => rfl
  | cons b mask ih =>
    cases xs with
    | nil => cases h
    | cons x xs =>
      have hzip : ∀ vals : List α, ((nonzero mask).map (· + 1)).zip vals =
          ((nonzero mask).zip vals).map fun p => (p.1 + 1, p.2) := by
        intro vals
        rw [zip_map_left]
        rfl
      rw [nonzero_cons]
      cases b with
      | true =>
        cases vals with
        | nil => rfl
        | cons v vals =>
          show (((nonzero mask).map (· + 1)).zip vals).foldl _ (v :: xs) = _
          rw [hzip, foldl_set_map_succ, ih (Nat.succ.inj h), maskAssign_cons_true]
      | false =>
        show (((nonzero mask).map (· + 1)).zip vals).foldl _ (x :: xs) = _
        rw [hzip, foldl_set_map_succ, ih (Nat.succ.inj h), maskAssign_cons_false]

end Verl
