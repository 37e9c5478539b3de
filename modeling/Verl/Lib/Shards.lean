import Verl.Lib.Numerals

/-! # Rows cut into shards of equal size

A row of `tp * p` entries is cut into `tp` shards; entry `i` of shard `rank` is entry
`rank * p + i` of the row (`globalIndex`).

* `concat` puts the shards together again, `sum_shard` sums over them.
* `gather` reads the entry of an integer index; a global index is read from its shard with the
  start of the shard subtracted (`gather_shard`).
* Exactly one shard owns an index of the row (`sum_owner`). -/

namespace Verl.Shards

variable {tp p : Nat} {A : Type}

def globalIndex (rank : Fin tp) (i : Fin p) : Fin (tp * p) := finProdFinEquiv (rank, i)

theorem val_globalIndex (rank : Fin tp) (i : Fin p) :
    (globalIndex rank i : Nat) = rank * p + i := by
  show i.val + p * rank.val = _
  rw [Nat.mul_comm]
  omega

def shard (row : Fin (tp * p) → A) (rank : Fin tp) (i : Fin p) : A := row (globalIndex rank i)

def concat (shards : Fin tp → Fin p → A) (v : Fin (tp * p)) : A := shards v.divNat v.modNat

theorem concat_eq {shards : Fin tp → Fin p → A} {row : Fin (tp * p) → A}
    (h : ∀ rank i, shards rank i = row (globalIndex rank i)) : concat shards = row := by
  funext v
  unfold concat at *
  rw [h]
  congr 1
  exact finProdFinEquiv.apply_symm_apply v

theorem sum_globalIndex [AddCommMonoid A] (row : Fin (tp * p) → A) :
    ∑ rank, ∑ i, row (globalIndex rank i) = ∑ v, row v := by
  rw [← Fintype.sum_prod_type' fun rank i => row (globalIndex rank i)]
  exact Equiv.sum_comp finProdFinEquiv row

/-- `row[index]`, for an index inside of the row. -/
def gather [Zero A] (row : Fin p → A) (index : Int) : A :=
  if h : 0 ≤ index ∧ index < p then row ⟨index.toNat, by omega⟩ else 0

theorem gather_val [Zero A] (row : Fin p → A) (i : Fin p) : gather row (i : Nat) = row i := by
  unfold gather
  rw [dif_pos (by omega)]
  rfl

/-- The shard owns the index. -/
def Owns (p : Nat) (rank : Fin tp) (index : Int) : Prop :=
  (rank * p : Nat) ≤ index ∧ index < (rank * p + p : Nat)

instance (rank : Fin tp) (index : Int) : Decidable (Owns p rank index) := by
  unfold Owns
  infer_instance

theorem end_le (rank : Fin tp) : (rank : Nat) * p + p ≤ tp * p := by
  have h := Nat.mul_le_mul_right p (Nat.succ_le_of_lt rank.isLt)
  rwa [Nat.succ_mul] at h

theorem Owns.mem_row {rank : Fin tp} {index : Int} (h : Owns p rank index) :
    0 ≤ index ∧ index < (tp * p : Nat) := by
  have hend := end_le (p := p) rank
  obtain ⟨hle, hlt⟩ := h
  omega

theorem gather_shard [Zero A] (row : Fin (tp * p) → A) {rank : Fin tp} {index : Int}
    (h : Owns p rank index) :
    gather (shard row rank) (index - (rank * p : Nat)) = gather row index := by
  have hrow := h.mem_row
  obtain ⟨hle, hlt⟩ := h
  unfold gather
  rw [dif_pos (by omega), dif_pos hrow]
  show row _ = row _
  congr 1
  apply Fin.ext
  rw [val_globalIndex]
  show rank * p + (index - (rank * p : Nat)).toNat = index.toNat
  omega

/-- One shard has the index of an entry, no shard another one. -/
theorem sum_owner [AddCommMonoid A] (tp p : Nat) (index : Int) (a : A) :
    (∑ rank : Fin tp, if Owns p rank index then a else 0) =
      if 0 ≤ index ∧ index < (tp * p : Nat) then a else 0 := by
  by_cases h : 0 ≤ index ∧ index < (tp * p : Nat)
  · rw [if_pos h]
    obtain ⟨v, hv⟩ : ∃ v : Fin (tp * p), index = (v : Nat) := ⟨⟨index.toNat, by omega⟩, by
      show index = (index.toNat : Int)
      omega⟩
    obtain ⟨⟨owner, i⟩, rfl⟩ := finProdFinEquiv.surjective v
    have hval : index = ((owner : Nat) * p + i : Nat) := by
      rw [hv, ← val_globalIndex]
      rfl
    have howner : Owns p owner index := by simp [Owns, hval]
    rw [Finset.sum_eq_single_of_mem owner (Finset.mem_univ _), if_pos howner]
    intro rank _ hne
    rw [if_neg]
    rintro ⟨hle, hlt⟩
    have hi := i.isLt
    rcases Nat.lt_or_gt_of_ne (Fin.val_ne_of_ne hne) with hrank | hrank
    · have := Nat.mul_le_mul_right p (Nat.succ_le_of_lt hrank)
      rw [Nat.succ_mul] at this
      omega
    · have := Nat.mul_le_mul_right p (Nat.succ_le_of_lt hrank)
      rw [Nat.succ_mul] at this
      omega
  · rw [if_neg h]
    apply Finset.sum_eq_zero
    intro rank _
    rw [if_neg fun howns => h howns.mem_row]

end Verl.Shards
