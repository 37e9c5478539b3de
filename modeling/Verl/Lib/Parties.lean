import Verl.Lib.Numerals

/-! # Sums over the parties of a state

A state has a value for each party, and a step changes the value of one of them.

* `sum_update_add`: a sum over the parties changes by the summand of that party. -/

namespace Verl

open Function

universe u v w

variable {ι : Type u} [Fintype ι] {α : Type v}

theorem sum_update_add [DecidableEq ι] {M : Type w} [AddCommMonoid M] (f : α → M) (x : ι → α)
    (i : ι) (a : α) :
    ∑ j, f (update x i a j) + f (x i) = ∑ j, f (x j) + f a := by
  have hrest : ∑ j ∈ Finset.univ.erase i, f (update x i a j) =
      ∑ j ∈ Finset.univ.erase i, f (x j) := by
    refine Finset.sum_congr rfl fun j hj => ?_
    rw [update_of_ne (Finset.ne_of_mem_erase hj)]
  rw [← Finset.add_sum_erase _ _ (Finset.mem_univ i), hrest, update_self,
    ← Finset.add_sum_erase _ (fun j => f (x j)) (Finset.mem_univ i)]
  ac_rfl

/-- How many of the parties meet the test. -/
def countOf (test : α → Bool) (x : ι → α) : Nat := ∑ i, (test (x i)).toNat

variable {test test' : α → Bool} {x : ι → α}

theorem countOf_update [DecidableEq ι] (test : α → Bool) (x : ι → α) (i : ι) (a : α) :
    countOf test (update x i a) + (test (x i)).toNat =
      countOf test x + (test a).toNat :=
  sum_update_add (fun a => (test a).toNat) x i a

theorem countOf_mono (h : ∀ i, test (x i) → test' (x i)) : countOf test x ≤ countOf test' x :=
  Finset.sum_le_sum fun i _ => Bool.toNat_le_toNat (h i)

theorem countOf_le_card : countOf test x ≤ Fintype.card ι := by
  calc countOf test x ≤ ∑ _i : ι, 1 := Finset.sum_le_sum fun i _ => Bool.toNat_le (test (x i))
    _ = Fintype.card ι := by rw [Finset.sum_const, Finset.card_univ, smul_eq_mul, mul_one]

theorem countOf_eq_zero (h : ∀ i, test (x i) = false) : countOf test x = 0 :=
  Finset.sum_eq_zero fun i _ => by rw [h i]; rfl

theorem countOf_pos {i : ι} (h : test (x i)) : 0 < countOf test x :=
  calc 0 < (test (x i)).toNat := by rw [h]; exact Nat.one_pos
    _ ≤ countOf test x :=
      Finset.single_le_sum (f := fun j => (test (x j)).toNat) (fun _ _ => Nat.zero_le _)
        (Finset.mem_univ i)

end Verl
