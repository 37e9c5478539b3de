import Verl.Lib.Numerals

/-! # Slices of a list and of a buffer

`getSlice xs offset size` is `xs[offset : offset + size]` and `setSlice` the assignment to
it, for slices inside the list.  A `Buffer` is a list of a fixed length;
`Buffer.assign` is the assignment with the shape check and the broadcast of one item that
array libraries make.

* `getSlice_setSlice`: what was written is read.
* `getSlice_setSlice_of_le`: a slice that ends before the written one is unchanged.
* `flatten_getSlice`: slices of one size, put behind each other.
* `getElem?_setSlice`, `setSlice_append`: a written slice, item by item and behind other items.
* `Buffer.exists_assign`: an assignment of the right size inside the buffer succeeds. -/

namespace Verl

open List

universe u

variable {α : Type u}

def getSlice (xs : List α) (offset size : Nat) : List α := (xs.drop offset).take size

def setSlice (xs : List α) (offset : Nat) (data : List α) : List α :=
  xs.take offset ++ data ++ xs.drop (offset + data.length)

variable {size o offset : Nat} {data xs : List α}

theorem mul_add_le {i n : Nat} (h : i < n) (size : Nat) : i * size + size ≤ n * size :=
  Nat.succ_mul i size ▸ Nat.mul_le_mul_right size h

theorem length_setSlice
    (h : offset + data.length ≤ xs.length) : (setSlice xs offset data).length = xs.length := by
  unfold setSlice
  simp only [length_append, length_take, length_drop]
  omega

theorem getSlice_setSlice (h : offset + data.length ≤ xs.length) :
    getSlice (setSlice xs offset data) offset data.length = data := by
  unfold getSlice setSlice
  have htake : (xs.take offset).length = offset := by grind
  rw [append_assoc, drop_append_of_le_length (Nat.le_of_eq htake.symm),
    drop_of_length_le (Nat.le_of_eq htake), nil_append, take_left']
  rfl

theorem getSlice_setSlice_of_le (h : offset ≤ xs.length) (hle : o + size ≤ offset) :
    getSlice (setSlice xs offset data) o size = getSlice xs o size := by
  unfold getSlice setSlice
  have htake : (xs.take offset).length = offset := by grind
  rw [append_assoc, drop_append_of_le_length (by omega),
    take_append_of_le_length (by rw [length_drop]; omega), drop_take,
    take_take, Nat.min_eq_left (by omega)]

theorem getSlice_setSlice_of_ge (h : offset ≤ xs.length) (hle : offset + data.length ≤ o) :
    getSlice (setSlice xs offset data) o size = getSlice xs o size := by
  unfold getSlice setSlice
  have htake : (xs.take offset).length = offset := by grind
  obtain ⟨k, rfl⟩ : ∃ k, o = offset + data.length + k := ⟨o - (offset + data.length), by omega⟩
  have hlen : (xs.take offset ++ data).length = offset + data.length := by
    rw [length_append, htake]
  rw [← hlen, drop_length_add_append, drop_drop]

theorem getSlice_getSlice (xs : List α) {a n k : Nat} (h : o + k ≤ n) :
    getSlice (getSlice xs a n) o k = getSlice xs (a + o) k := by
  unfold getSlice
  rw [drop_take, take_take, drop_drop, Nat.min_eq_left (by omega)]

theorem length_getSlice (h : offset + size ≤ xs.length) :
    (getSlice xs offset size).length = size := by
  unfold getSlice
  rw [length_take, length_drop]
  omega

theorem getSlice_append (xs : List α) (offset m n : Nat) :
    getSlice xs offset m ++ getSlice xs (offset + m) n = getSlice xs offset (m + n) := by
  unfold getSlice
  rw [take_add, drop_drop]

theorem getSlice_zero (xs : List α) (h : xs.length ≤ size) : getSlice xs 0 size = xs := by
  unfold getSlice
  rw [drop_zero, take_of_length_le h]

theorem getElem?_getSlice (xs : List α) (offset : Nat) {i : Nat} (h : i < size) :
    (getSlice xs offset size)[i]? = xs[offset + i]? := by
  unfold getSlice
  rw [getElem?_take_of_lt h, getElem?_drop]

theorem flatten_getSlice (xs : List α) (size n : Nat) :
    ((range n).map fun i => getSlice xs (i * size) size).flatten =
      getSlice xs 0 (n * size) := by
  induction n with
  | zero =>
    unfold getSlice
    rw [Nat.zero_mul]
    rfl
  | succ n ih =>
    rw [range_succ, map_append, flatten_append, ih, Nat.succ_mul,
      ← getSlice_append xs 0 (n * size) size]
    simp

theorem sum_range_min (n size m : Nat) :
    ((range m).map fun i => min size (n - i * size)).sum = min (m * size) n := by
  induction m with
  | zero => simp
  | succ m ih =>
    rw [range_succ, map_append, sum_append, map_singleton,
      sum_singleton, Nat.succ_mul]
    omega

theorem getElem?_setSlice (h : offset + data.length ≤ xs.length) (k : Nat) :
    (setSlice xs offset data)[k]? =
      if offset ≤ k ∧ k < offset + data.length then data[k - offset]? else xs[k]? := by
  have htake : (xs.take offset).length = offset := by grind
  unfold setSlice
  by_cases hlt : k < offset
  · grind
  · grind

theorem setSlice_append (xs ys data : List α) :
    setSlice (xs ++ ys) xs.length data = xs ++ (data ++ ys.drop data.length) := by
  unfold setSlice
  rw [take_left, drop_length_add_append, append_assoc]

/-! ## Buffers -/

/-- A list of a fixed length. -/
structure Buffer (α : Type u) (n : Nat) where
  toList : List α
  length_eq : toList.length = n
  deriving DecidableEq

namespace Buffer

variable {n : Nat}

/-- `n` items that are all `a`. -/
def replicate (n : Nat) (a : α) : Buffer α n := ⟨List.replicate n a, length_replicate⟩

/-- `buf[offset : offset + size]`. -/
def slice (b : Buffer α n) (offset size : Nat) : List α := getSlice b.toList offset size

/-- `buf[offset : offset + size] = data`.  The slice is clamped to the buffer; `data` has to
be as long as it, or a single item, which is then written to all of it. -/
def assign (b : Buffer α n) (offset size : Nat) (data : List α) : Option (Buffer α n) :=
  let start := min offset n
  let width := min (offset + size) n - start
  let written (xs : List α) (h : xs.length = width) : Buffer α n :=
    ⟨setSlice b.toList start xs, by rw [length_setSlice (by rw [b.length_eq]; omega), b.length_eq]⟩
  if h : data.length = width then some (written data h)
  else match data with
    | [a] => some (written (List.replicate width a) length_replicate)
    | _ => none

variable {size offset : Nat} {data : List α}

section

variable (b : Buffer α n) (hle : offset + size ≤ n) (hlen : data.length = size)
include b hle hlen

/-- What was written is read, and the rest of the buffer stays. -/
theorem exists_assign_outside :
    ∃ b', b.assign offset size data = some b' ∧ b'.slice offset size = data ∧
      ∀ o k, o + k ≤ offset ∨ offset + size ≤ o → b'.slice o k = b.slice o k := by
  have hstart : min offset n = offset := by omega
  have hwidth : data.length = min (offset + size) n - min offset n := by omega
  subst hlen
  refine ⟨_, dif_pos hwidth, ?_, ?_⟩
  · show getSlice (setSlice b.toList (min offset n) data) offset data.length = data
    rw [hstart]
    exact getSlice_setSlice (by rw [b.length_eq]; exact hle)
  · intro o k hok
    show getSlice (setSlice b.toList (min offset n) data) o k = getSlice b.toList o k
    rw [hstart]
    rcases hok with hok | hok
    · exact getSlice_setSlice_of_le (by rw [b.length_eq]; omega) hok
    · exact getSlice_setSlice_of_ge (by rw [b.length_eq]; omega) hok

theorem exists_assign : ∃ b', b.assign offset size data = some b' ∧ b'.slice offset size = data ∧
      ∀ o k, o + k ≤ offset → b'.slice o k = b.slice o k := by
  obtain ⟨b', hassign, hread, hrest⟩ := exists_assign_outside b hle hlen
  exact ⟨b', hassign, hread, fun o k hok => hrest o k (Or.inl hok)⟩

theorem assign_eq :
    ∃ b', b.assign offset size data = some b' ∧ b'.toList = setSlice b.toList offset data := by
  have hstart : min offset n = offset := by omega
  refine ⟨_, dif_pos (by omega), ?_⟩
  show setSlice b.toList (min offset n) data = _
  rw [hstart]

end

theorem slice_zero (b : Buffer α n) (h : n ≤ size) : b.slice 0 size = b.toList :=
  getSlice_zero b.toList (by rw [b.length_eq]; exact h)

end Buffer

end Verl
