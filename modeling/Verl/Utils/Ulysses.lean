import Verl.Lib.Jagged

/-! # Padding, slicing and gathering for Ulysses sequence parallelism

`verl/utils/ulysses.py` for tensors of one dimension: the sequence dimension, with the
dimension of size one in front of it left out.

* `ulyssesPad`, `sliceInputTensor`: the shard of a rank.
* `gatherOutputsAndUnpad`: the shards of all ranks put together again.
* `gatherOutputsAndUnpad_slices`: slicing and gathering give back the tensor. -/

namespace Verl

universe u

variable {α : Type u}

/-- `pad_size` of `ulysses_pad`. -/
def ulyssesPadSize (spSize totalSeqLen : Nat) : Nat :=
  if spSize ≤ 1 then 0 else (spSize - totalSeqLen % spSize) % spSize

def ulyssesPad (spSize : Nat) (padValue : α) (xs : List α) : List α :=
  xs ++ List.replicate (ulyssesPadSize spSize xs.length) padValue

/-- `slice_input_tensor(x, padding=False)` on rank `rank`. -/
def sliceInputTensor (spSize rank : Nat) (xs : List α) : List α :=
  let parts := xs.length / spSize
  getSlice xs (rank * parts) parts

/-- The shards of all ranks. -/
def slices (spSize : Nat) (xs : List α) : List (List α) :=
  (List.range spSize).map fun rank => sliceInputTensor spSize rank xs

/-- `_unpad_tensor`, which is not called without padding. -/
def unpadTensor (paddingSize : Nat) (xs : List α) : List α := xs.take (xs.length - paddingSize)

def gatherOutputsAndUnpad (paddingSize : Nat) (shards : List (List α)) : List α :=
  unpadTensor paddingSize shards.flatten

@[simp] theorem ulyssesPadSize_one (totalSeqLen : Nat) : ulyssesPadSize 1 totalSeqLen = 0 := rfl

@[simp] theorem ulyssesPad_one (padValue : α) (xs : List α) : ulyssesPad 1 padValue xs = xs :=
  List.append_nil xs

@[simp] theorem sliceInputTensor_one (xs : List α) : sliceInputTensor 1 0 xs = xs := by
  unfold sliceInputTensor
  dsimp only
  rw [Nat.div_one, Nat.zero_mul]
  exact getSlice_zero xs (Nat.le_refl _)

theorem sliceInputTensor_map {β : Type*} (f : α → β) (spSize rank : Nat) (xs : List α) :
    sliceInputTensor spSize rank (xs.map f) = (sliceInputTensor spSize rank xs).map f := by
  unfold sliceInputTensor
  rw [List.length_map, getSlice_map]

theorem sliceInputTensor_zipWith {β γ : Type*} (f : α → β → γ) (spSize rank : Nat) {xs : List α}
    {ys : List β} (h : xs.length = ys.length) :
    sliceInputTensor spSize rank (List.zipWith f xs ys) =
      List.zipWith f (sliceInputTensor spSize rank xs) (sliceInputTensor spSize rank ys) := by
  unfold sliceInputTensor
  rw [List.length_zipWith, ← h, Nat.min_self, getSlice_zipWith]

theorem length_ulyssesPad (spSize : Nat) (padValue : α) (xs : List α) :
    (ulyssesPad spSize padValue xs).length = xs.length + ulyssesPadSize spSize xs.length := by
  unfold ulyssesPad
  rw [List.length_append, List.length_replicate]

theorem dvd_length_ulyssesPad {spSize : Nat} (hpos : 0 < spSize) (padValue : α) (xs : List α) :
    spSize ∣ (ulyssesPad spSize padValue xs).length := by
  unfold ulyssesPad ulyssesPadSize
  rw [List.length_append, List.length_replicate]
  by_cases hone : spSize ≤ 1
  · obtain rfl : spSize = 1 := by omega
    exact Nat.one_dvd _
  · rw [if_neg hone]
    have hdiv := Nat.div_add_mod xs.length spSize
    have hmod := Nat.mod_lt xs.length hpos
    by_cases hzero : xs.length % spSize = 0
    · rw [hzero, Nat.sub_zero, Nat.mod_self]
      exact Nat.dvd_of_mod_eq_zero hzero
    · rw [Nat.mod_eq_of_lt (by omega : spSize - xs.length % spSize < spSize)]
      refine ⟨xs.length / spSize + 1, ?_⟩
      rw [Nat.mul_succ]
      omega

theorem length_sliceInputTensor {spSize rank : Nat} {xs : List α} (h : rank < spSize) :
    (sliceInputTensor spSize rank xs).length = xs.length / spSize := by
  apply length_getSlice
  have hle := Nat.mul_le_mul_right (xs.length / spSize) (Nat.succ_le_of_lt h)
  have hdiv := Nat.mul_div_le xs.length spSize
  rw [Nat.succ_mul] at hle
  omega

theorem flatten_slices {spSize : Nat} {xs : List α} (h : spSize ∣ xs.length) :
    (slices spSize xs).flatten = xs := by
  unfold slices sliceInputTensor
  rw [flatten_getSlice, Nat.mul_div_cancel' h, getSlice_zero xs (Nat.le_refl _)]

theorem gatherOutputsAndUnpad_slices {spSize : Nat} (hpos : 0 < spSize) (padValue : α)
    (xs : List α) :
    gatherOutputsAndUnpad (ulyssesPadSize spSize xs.length)
      (slices spSize (ulyssesPad spSize padValue xs)) = xs := by
  unfold gatherOutputsAndUnpad unpadTensor
  rw [flatten_slices (dvd_length_ulyssesPad hpos padValue xs)]
  unfold ulyssesPad
  rw [List.length_append, List.length_replicate, Nat.add_sub_cancel, List.take_left]

end Verl
