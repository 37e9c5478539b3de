import Verl.Lib.Numerals

/-! # Softmax, log-softmax and entropy of logits

Logits are real numbers over a finite nonempty type.

* `entropy_le_crossEntropy`: the inequality of Gibbs; equality holds only where the two
  distributions are the same (`logSoftmax_eq_of_crossEntropy_eq`).
* `logSoftmax_eq_iff`: two log-probabilities are equal when the logits are.
* `entropy_div_eq_iff`: the entropy tells two temperatures apart unless all logits are equal. -/

namespace Verl.Softmax

open Finset

variable {ι : Type*} [Fintype ι]

noncomputable def logSumExp (z : ι → ℝ) : ℝ := Real.log (∑ i, Real.exp (z i))

noncomputable def softmax (z : ι → ℝ) (i : ι) : ℝ := Real.exp (z i) / ∑ j, Real.exp (z j)

noncomputable def logSoftmax (z : ι → ℝ) (i : ι) : ℝ := z i - logSumExp z

noncomputable def entropy (z : ι → ℝ) : ℝ := logSumExp z - ∑ i, softmax z i * z i

/-- The entropy of the distribution of `z`, measured with the logits `w`. -/
noncomputable def crossEntropy (z w : ι → ℝ) : ℝ := logSumExp w - ∑ i, softmax z i * w i

theorem crossEntropy_div (u : ι → ℝ) (z : ι → ℝ) (t : ℝ) : crossEntropy u (fun i => z i / t) =
      logSumExp (fun i => z i / t) - (∑ i, softmax u i * z i) / t := by
  unfold crossEntropy
  rw [sum_div]
  simp only [mul_div_assoc]

section Nonempty

variable [Nonempty ι] (z w : ι → ℝ)

theorem sum_exp_pos : 0 < ∑ i, Real.exp (z i) :=
  sum_pos (fun i _ => Real.exp_pos (z i)) univ_nonempty

theorem softmax_pos (i : ι) : 0 < softmax z i := div_pos (Real.exp_pos _) (sum_exp_pos z)

theorem sum_softmax : ∑ i, softmax z i = 1 := by
  unfold softmax
  rw [← sum_div, div_self (sum_exp_pos z).ne']

theorem exp_logSoftmax (i : ι) : Real.exp (logSoftmax z i) = softmax z i := by
  unfold logSoftmax logSumExp softmax
  rw [Real.exp_sub, Real.exp_log (sum_exp_pos z)]

/-- The gap of the two entropies is a mean of log-ratios. -/
theorem crossEntropy_sub_entropy :
    crossEntropy z w - entropy z = ∑ i, softmax z i * (logSoftmax z i - logSoftmax w i) := by
  have hz : ∑ i, softmax z i * logSumExp z = logSumExp z := by
    rw [← sum_mul, sum_softmax, one_mul]
  have hw : ∑ i, softmax z i * logSumExp w = logSumExp w := by
    rw [← sum_mul, sum_softmax, one_mul]
  calc logSumExp w - ∑ i, softmax z i * w i - (logSumExp z - ∑ i, softmax z i * z i)
      = ∑ i, softmax z i * z i - ∑ i, softmax z i * logSumExp z -
          (∑ i, softmax z i * w i - ∑ i, softmax z i * logSumExp w) := by rw [hz, hw]; ring
    _ = ∑ i, softmax z i * (z i - logSumExp z - (w i - logSumExp w)) := by
        rw [← sum_sub_distrib, ← sum_sub_distrib, ← sum_sub_distrib]
        exact sum_congr rfl fun i _ => by ring

theorem softmax_eq_mul_exp (i : ι) :
    softmax w i = softmax z i * Real.exp (logSoftmax w i - logSoftmax z i) := by
  rw [← exp_logSoftmax z, ← exp_logSoftmax w, ← Real.exp_add]
  congr 1
  ring

/-- One term of the gap, compared with the difference of the probabilities. -/
theorem softmax_sub_le (i : ι) :
    softmax z i - softmax w i ≤ softmax z i * (logSoftmax z i - logSoftmax w i) := by
  have hexp := Real.add_one_le_exp (logSoftmax w i - logSoftmax z i)
  have hmul := mul_le_mul_of_nonneg_left hexp (softmax_pos z i).le
  rw [softmax_eq_mul_exp z w]
  linarith

theorem softmax_sub_lt {i : ι} (h : logSoftmax z i ≠ logSoftmax w i) :
    softmax z i - softmax w i < softmax z i * (logSoftmax z i - logSoftmax w i) := by
  have hexp := Real.add_one_lt_exp (sub_ne_zero.2 h.symm)
  have hmul := mul_lt_mul_of_pos_left hexp (softmax_pos z i)
  rw [softmax_eq_mul_exp z w]
  linarith

theorem entropy_le_crossEntropy : entropy z ≤ crossEntropy z w := by
  have hsum : ∑ i, (softmax z i - softmax w i) = 0 := by
    rw [sum_sub_distrib, sum_softmax, sum_softmax, sub_self]
  have hle := sum_le_sum fun i (_ : i ∈ univ) => softmax_sub_le z w i
  rw [← crossEntropy_sub_entropy] at hle
  linarith

variable {z w}

theorem logSoftmax_eq_of_crossEntropy_eq (h : crossEntropy z w = entropy z) (i : ι) :
    logSoftmax z i = logSoftmax w i := by
  by_contra hne
  have hsum : ∑ i, (softmax z i - softmax w i) = 0 := by
    rw [sum_sub_distrib, sum_softmax, sum_softmax, sub_self]
  have hlt := sum_lt_sum (fun i _ => softmax_sub_le z w i) ⟨i, mem_univ i, softmax_sub_lt z w hne⟩
  rw [hsum, ← crossEntropy_sub_entropy, h, sub_self] at hlt
  exact lt_irrefl 0 hlt

end Nonempty

theorem logSoftmax_eq_iff {z : ι → ℝ} {i j : ι} : logSoftmax z i = logSoftmax z j ↔ z i = z j := by
  unfold logSoftmax
  constructor
  · intro h; linarith
  · intro h; rw [h]

/-! ## Temperature -/

section Temperature

variable [Nonempty ι] {z : ι → ℝ} {s t : ℝ}

/-- Logits that are all equal make a uniform distribution. -/
theorem logSoftmax_of_const {w : ι → ℝ} (hz : ∀ i j, z i = z j) (hw : ∀ i j, w i = w j) (i : ι) :
    logSoftmax z i = logSoftmax w i := by
  have hconst : ∀ {v : ι → ℝ}, (∀ i j, v i = v j) →
      logSoftmax v i = -Real.log (Fintype.card ι) := by
    intro v hv
    unfold logSoftmax logSumExp
    rw [sum_congr rfl fun j _ => by rw [hv j i], sum_const, card_univ, nsmul_eq_mul,
      Real.log_mul (by exact_mod_cast Fintype.card_ne_zero) (Real.exp_pos _).ne', Real.log_exp]
    ring
  rw [hconst hz, hconst hw]

theorem entropy_eq_neg_sum (z : ι → ℝ) :
    entropy z = -∑ i, Real.exp (logSoftmax z i) * logSoftmax z i := by
  have hz : ∑ i, softmax z i * logSumExp z = logSumExp z := by
    rw [← sum_mul, sum_softmax, one_mul]
  unfold entropy
  simp only [exp_logSoftmax]
  unfold logSoftmax
  simp only [mul_sub, sum_sub_distrib, hz]
  ring

theorem entropy_of_const {w : ι → ℝ} (hz : ∀ i j, z i = z j) (hw : ∀ i j, w i = w j) :
    entropy z = entropy w := by
  rw [entropy_eq_neg_sum, entropy_eq_neg_sum]
  simp only [logSoftmax_of_const hz hw]

/-- If the entropies at `s` and `t` are equal, then by Gibbs' inequality, used both ways, so are
the means of the logits, and the two distributions are the same. -/
theorem eq_of_entropy_div_eq (hs : 0 < s) (ht : 0 < t) (hst : s ≠ t)
    (h : entropy (fun i => z i / s) = entropy (fun i => z i / t)) (i j : ι) : z i = z j := by
  set u : ι → ℝ := fun i => z i / s with hu
  set v : ι → ℝ := fun i => z i / t with hv
  have huv := entropy_le_crossEntropy u v
  have hvu := entropy_le_crossEntropy v u
  have hHu : entropy u = logSumExp u - (∑ i, softmax u i * z i) / s := crossEntropy_div u z s
  have hHv : entropy v = logSumExp v - (∑ i, softmax v i * z i) / t := crossEntropy_div v z t
  have hmean : ∑ i, softmax u i * z i = ∑ i, softmax v i * z i := by
    apply le_antisymm
    · rw [crossEntropy_div u z t] at huv
      exact (div_le_div_iff_of_pos_right ht).1 (by linarith)
    · rw [crossEntropy_div v z s] at hvu
      exact (div_le_div_iff_of_pos_right hs).1 (by linarith)
  have hcross : crossEntropy u v = entropy u := by
    rw [h, hHv, crossEntropy_div u z t, hmean]
  have hi := logSoftmax_eq_of_crossEntropy_eq hcross i
  have hj := logSoftmax_eq_of_crossEntropy_eq hcross j
  have hdiff : (z i - z j) * (s⁻¹ - t⁻¹) = 0 := by
    unfold logSoftmax at hi hj
    simp only [hu, hv, div_eq_mul_inv] at hi hj
    linarith
  rcases mul_eq_zero.1 hdiff with hz | hinv
  · exact sub_eq_zero.1 hz
  · exact absurd (inv_injective (sub_eq_zero.1 hinv)) hst

theorem entropy_div_eq_iff (hs : 0 < s) (ht : 0 < t) (hst : s ≠ t) :
    entropy (fun i => z i / s) = entropy (fun i => z i / t) ↔ ∀ i j, z i = z j := by
  constructor
  · exact eq_of_entropy_div_eq hs ht hst
  · intro h
    exact entropy_of_const (fun i j => by rw [h i j]) (fun i j => by rw [h i j])

end Temperature

end Verl.Softmax
