import Verl.Lib.Python

/-!
# Loss aggregation (`verl/trainer/ppo/core_algos.py`)

`agg_loss` turns the loss matrix of a micro-batch into one number.  Over exact arithmetic, with the
counts of the whole batch passed in,

    (∑ over all ranks and micro-batches of agg_loss(part, dp_size)) / dp_size = agg_loss(batch, 1)

because every mode is a sum of one term per row (`rowTerm`) times a factor that is the same for
every part (`normalize`).
-/

namespace Verl

open List

/-! ## Algorithm -/

inductive LossAggMode where
  | tokenMean
  | seqMeanTokenSum
  | seqMeanTokenSumNorm
  | seqMeanTokenMean
deriving DecidableEq, Repr

def LossAggMode.ofString (lossAggMode : String) : Except PyErr LossAggMode :=
  match lossAggMode with
  | "token-mean" => .ok .tokenMean
  | "seq-mean-token-sum" => .ok .seqMeanTokenSum
  | "seq-mean-token-sum-norm" => .ok .seqMeanTokenSumNorm
  | "seq-mean-token-mean" => .ok .seqMeanTokenMean
  | _ => .error (.valueError s!"Invalid loss_agg_mode: {lossAggMode}")

/-- A row of `loss_mat` with its row of `loss_mask`, of response width `w`. -/
structure LossRow (K : Type) (w : Nat) where
  loss : Fin w → K
  mask : Fin w → K

section Algorithm

variable {K : Type} [Field K] [LinearOrder K] {w : Nat}

/-- One entry of `masked_sum`: `torch.where(mask.bool(), value, 0.0) * mask`. -/
def maskedEntry (value mask : K) : K := (if mask ≠ 0 then value else 0) * mask

/-- `masked_sum`, over pairs of a value and its mask. -/
def maskedSum (entries : List (K × K)) : K := (entries.map fun e => maskedEntry e.1 e.2).sum

/-- Division of tensors: by zero it gives no number (`nan`, `inf`). -/
def tensorDiv (a b : K) : Option K := if b = 0 then none else some (a / b)

namespace LossRow

def maskSum (r : LossRow K w) : K := ∑ t, r.mask t

def tokenSum (r : LossRow K w) : K := ∑ t, r.loss t * r.mask t

/-- `(torch.sum(loss_mask, dim=-1) > 0).float()`. -/
def seqMask (r : LossRow K w) : K := if r.maskSum > 0 then 1 else 0

/-- The token mean of the row.  Where the denominator is zero the row is excluded. -/
def tokenMean (r : LossRow K w) : K := r.tokenSum / (r.maskSum + 1 / 10 ^ 8)

end LossRow

/-- A count that was passed in, or the local one, which only one rank may use. -/
def countOr (count : Option K) (dpSize : Nat) (msg : String) (localCount : K) : Except PyErr K :=
  match count with
  | some c => .ok c
  | none => if dpSize > 1 then .error (.valueError msg) else .ok localCount

def aggLoss (rows : List (LossRow K w)) (lossAggMode : String) (dpSize : Nat)
    (batchNumTokens globalBatchSize lossScaleFactor : Option K) : Except PyErr (Option K) := do
  match ← LossAggMode.ofString lossAggMode with
  | .tokenMean =>
    let batchNumTokens ← countOr batchNumTokens dpSize
      "(global) batch_num_tokens is required when dp_size > 1" (rows.map LossRow.maskSum).sum
    let entries := rows.flatMap fun r => List.ofFn fun t => (r.loss t, r.mask t)
    return (tensorDiv (maskedSum entries) batchNumTokens).map (· * dpSize)
  | .seqMeanTokenSum =>
    let globalBatchSize ← countOr globalBatchSize dpSize
      "global_batch_size is required when dp_size > 1" (rows.map LossRow.seqMask).sum
    let seqLosses := rows.map fun r => (r.tokenSum, r.seqMask)
    return (tensorDiv (maskedSum seqLosses) globalBatchSize).map (· * dpSize)
  | .seqMeanTokenSumNorm =>
    let globalBatchSize ← countOr globalBatchSize dpSize
      "global_batch_size is required when dp_size > 1" (rows.map LossRow.seqMask).sum
    let seqLosses := rows.map fun r => (r.tokenSum, r.seqMask)
    let loss := (tensorDiv (maskedSum seqLosses) globalBatchSize).map (· * (dpSize : K))
    let horizon : K := w
    return loss.bind fun l => tensorDiv l (lossScaleFactor.getD horizon)
  | .seqMeanTokenMean =>
    let globalBatchSize ← countOr globalBatchSize dpSize
      "global_batch_size is required when dp_size > 1" (rows.map LossRow.seqMask).sum
    let seqLosses := rows.map fun r => (r.tokenMean, r.seqMask)
    return (tensorDiv (maskedSum seqLosses) globalBatchSize).map (· * dpSize)

/-- A sum of numbers: none if one of them is none. -/
def numSum (xs : List (Option K)) : Option K := xs.foldr (Option.map₂ (· + ·)) (some 0)

/-- What training accumulates: every rank sums the losses of its micro-batches, and the ranks are
averaged. -/
def accumulateLoss (ranks : List (List (List (LossRow K w)))) (lossAggMode : String)
    (batchNumTokens globalBatchSize lossScaleFactor : Option K) : Except PyErr (Option K) := do
  let losses ← ranks.flatten.mapM fun part =>
    aggLoss part lossAggMode ranks.length batchNumTokens globalBatchSize lossScaleFactor
  return (numSum losses).bind (tensorDiv · (ranks.length : K))

end Algorithm

/-! ## Lemmas -/

theorem numSum_map_some {K α : Type} [Field K] (f : α → K) (xs : List α) :
    numSum (xs.map fun x => some (f x)) = some (xs.map f).sum := by
  induction xs with
  | nil => rfl
  | cons x xs ih =>
    show Option.map₂ (· + ·) (some (f x)) (numSum (xs.map fun x => some (f x))) = _
    rw [ih]
    rfl

theorem numSum_map_none {K α : Type} [Field K] (xs : List α) (h : xs ≠ []) :
    numSum (xs.map fun _ => (none : Option K)) = none := by
  cases xs with
  | nil => exact absurd rfl h
  | cons x xs => rfl

section Lemmas

variable {K : Type} [Field K] [LinearOrder K] {w : Nat}

/-- What a row adds to the sum of the mode. -/
def rowTerm (mode : LossAggMode) (r : LossRow K w) : K :=
  match mode with
  | .tokenMean => (List.ofFn fun t => maskedEntry (r.loss t) (r.mask t)).sum
  | .seqMeanTokenSum | .seqMeanTokenSumNorm => maskedEntry r.tokenSum r.seqMask
  | .seqMeanTokenMean => maskedEntry r.tokenMean r.seqMask

/-- The sum of the mode, normalised. -/
def normalize (w : Nat) (mode : LossAggMode) (dpSize : Nat) (batchNumTokens globalBatchSize : K)
    (lossScaleFactor : Option K) (x : K) : Option K :=
  match mode with
  | .tokenMean => (tensorDiv x batchNumTokens).map (· * dpSize)
  | .seqMeanTokenSum | .seqMeanTokenMean => (tensorDiv x globalBatchSize).map (· * dpSize)
  | .seqMeanTokenSumNorm =>
    ((tensorDiv x globalBatchSize).map (· * (dpSize : K))).bind fun l =>
      tensorDiv l (lossScaleFactor.getD (w : K))

theorem maskedSum_flatMap (rows : List (LossRow K w)) :
    maskedSum (rows.flatMap fun r => ofFn fun t => (r.loss t, r.mask t))
      = (rows.map (rowTerm .tokenMean)).sum := by
  unfold maskedSum
  induction rows with
  | nil => rfl
  | cons r rows ih =>
    rw [flatMap_cons, map_append, sum_append, ih,
      map_ofFn]
    rfl

theorem aggLoss_eq {lossAggMode : String} {mode : LossAggMode}
    (hmode : LossAggMode.ofString lossAggMode = .ok mode) (rows : List (LossRow K w)) (dpSize : Nat)
    (batchNumTokens globalBatchSize : K) (lossScaleFactor : Option K) :
    aggLoss rows lossAggMode dpSize (some batchNumTokens) (some globalBatchSize) lossScaleFactor
      = .ok (normalize w mode dpSize batchNumTokens globalBatchSize lossScaleFactor
        (rows.map (rowTerm mode)).sum) := by
  unfold aggLoss
  rw [hmode]
  cases mode with
  | tokenMean =>
    simp only [maskedSum_flatMap]
    rfl
  | seqMeanTokenSum =>
    simp only [maskedSum, map_map]
    rfl
  | seqMeanTokenSumNorm =>
    simp only [maskedSum, map_map]
    rfl
  | seqMeanTokenMean =>
    simp only [maskedSum, map_map]
    rfl

theorem normalize_cases (w : Nat) (mode : LossAggMode) (batchNumTokens globalBatchSize : K)
    (lossScaleFactor : Option K) :
    (∀ dpSize x, normalize w mode dpSize batchNumTokens globalBatchSize lossScaleFactor x = none) ∨
    ∃ c : K, ∀ dpSize x, normalize w mode dpSize batchNumTokens globalBatchSize lossScaleFactor x
      = some (x * c * dpSize) := by
  have hdiv : ∀ b : K, (∀ a, tensorDiv a b = none) ∨ ∀ a, tensorDiv a b = some (a * b⁻¹) := by
    intro b
    unfold tensorDiv
    by_cases hb : b = 0
    · left; intro a; rw [if_pos hb]
    · right; intro a; rw [if_neg hb, div_eq_mul_inv]
  cases mode with
  | tokenMean =>
    unfold normalize
    rcases hdiv batchNumTokens with h | h
    · left; intro dpSize x; simp only [h, Option.map_none]
    · right; refine ⟨batchNumTokens⁻¹, fun dpSize x => ?_⟩; simp only [h, Option.map_some]
  | seqMeanTokenSum =>
    unfold normalize
    rcases hdiv globalBatchSize with h | h
    · left; intro dpSize x; simp only [h, Option.map_none]
    · right; refine ⟨globalBatchSize⁻¹, fun dpSize x => ?_⟩; simp only [h, Option.map_some]
  | seqMeanTokenMean =>
    unfold normalize
    rcases hdiv globalBatchSize with h | h
    · left; intro dpSize x; simp only [h, Option.map_none]
    · right; refine ⟨globalBatchSize⁻¹, fun dpSize x => ?_⟩; simp only [h, Option.map_some]
  | seqMeanTokenSumNorm =>
    unfold normalize
    rcases hdiv globalBatchSize with h | h
    · left; intro dpSize x; simp only [h, Option.map_none, Option.bind_none]
    · rcases hdiv (lossScaleFactor.getD (w : K)) with h' | h'
      · left; intro dpSize x; simp only [h, h', Option.map_some, Option.bind_some]
      · right
        refine ⟨globalBatchSize⁻¹ * (lossScaleFactor.getD (w : K))⁻¹, fun dpSize x => ?_⟩
        simp only [h, h', Option.map_some, Option.bind_some]
        ring

theorem sum_rowTerm (mode : LossAggMode) (parts : List (List (LossRow K w)))
    (batch : List (LossRow K w)) (h : parts.flatten.Perm batch) :
    (parts.map fun part => (part.map (rowTerm mode)).sum).sum = (batch.map (rowTerm mode)).sum := by
  rw [← (h.map (rowTerm mode)).sum_eq, map_flatten, sum_flatten, map_map]
  rfl

theorem accumulateLoss_eq [IsStrictOrderedRing K] (ranks : List (List (List (LossRow K w)))) (batch : List (LossRow K w))
    (hparts : ranks.flatten ≠ []) (hperm : ranks.flatten.flatten.Perm batch) (lossAggMode : String)
    (batchNumTokens globalBatchSize : K) (lossScaleFactor : Option K) :
    accumulateLoss ranks lossAggMode (some batchNumTokens) (some globalBatchSize) lossScaleFactor
      = aggLoss batch lossAggMode 1 (some batchNumTokens) (some globalBatchSize)
        lossScaleFactor := by
  unfold accumulateLoss
  cases hmode : LossAggMode.ofString lossAggMode with
  | error e =>
    have herr : ∀ rows : List (LossRow K w), ∀ dpSize, aggLoss rows lossAggMode dpSize
        (some batchNumTokens) (some globalBatchSize) lossScaleFactor = .error e := by
      simp [aggLoss, hmode]
    rw [herr batch 1]
    cases hlist : ranks.flatten with
    | nil => exact absurd hlist hparts
    | cons part parts =>
      rw [mapM_cons, herr part]
      rfl
  | ok mode =>
    have hdp : (ranks.length : K) ≠ 0 := by
      rw [Nat.cast_ne_zero]
      rintro h0
      rw [length_eq_zero_iff] at h0
      rw [h0] at hparts
      exact hparts rfl
    rw [mapM_eq_ok_map _ _ _ fun part _ => aggLoss_eq hmode part ranks.length _ _ _,
      ok_bind, aggLoss_eq hmode batch]
    rcases normalize_cases w mode batchNumTokens globalBatchSize lossScaleFactor with h | ⟨c, h⟩
    · simp only [h]
      rw [numSum_map_none _ hparts]
      rfl
    · simp only [h]
      rw [numSum_map_some]
      have hsum : (ranks.flatten.map fun part =>
          (part.map (rowTerm mode)).sum * c * (ranks.length : K)).sum
          = (batch.map (rowTerm mode)).sum * c * ranks.length := by
        rw [← sum_rowTerm mode ranks.flatten batch hperm, sum_map_mul_right,
          sum_map_mul_right]
      rw [hsum]
      show Except.ok (tensorDiv _ _) = _
      rw [tensorDiv, if_neg hdp, mul_div_assoc, div_self hdp, Nat.cast_one]

end Lemmas

/-! ## Gradients -/

section Gradient

variable {E : Type} {w : Nat}

/-- A row whose losses depend on the parameters. -/
structure ParamRow (E : Type) (w : Nat) where
  loss : E → Fin w → ℝ
  mask : Fin w → ℝ

/-- The row at given parameters. -/
def ParamRow.at (θ : E) (r : ParamRow E w) : LossRow ℝ w := { loss := r.loss θ, mask := r.mask }

theorem hasFDerivAt_list_sum {α : Type} [NormedAddCommGroup E] [NormedSpace ℝ E] (xs : List α) (f : α → E → ℝ) (f' : α → E →L[ℝ] ℝ) (θ : E)
    (h : ∀ a ∈ xs, HasFDerivAt (f a) (f' a) θ) :
    HasFDerivAt (fun θ => (xs.map fun a => f a θ).sum) (xs.map f').sum θ := by
  induction xs with
  | nil => exact hasFDerivAt_const 0 θ
  | cons a xs ih =>
    exact (h a mem_cons_self).add (ih fun b hb => h b (mem_cons_of_mem _ hb))

theorem loss_eq_of_parts (ranks : List (List (List (ParamRow E w)))) (batch : List (ParamRow E w))
    (hparts : ranks.flatten ≠ []) (hperm : ranks.flatten.flatten.Perm batch) (lossAggMode : String)
    (batchNumTokens globalBatchSize : ℝ) (lossScaleFactor : Option ℝ)
    (partLoss : List (ParamRow E w) → E → ℝ) (loss : E → ℝ)
    (hpart : ∀ part ∈ ranks.flatten, ∀ θ, aggLoss (part.map (ParamRow.at θ)) lossAggMode ranks.length (some batchNumTokens) (some globalBatchSize) lossScaleFactor = .ok (some (partLoss part θ)))
    (hloss : ∀ θ, aggLoss (batch.map (ParamRow.at θ)) lossAggMode 1 (some batchNumTokens) (some globalBatchSize) lossScaleFactor = .ok (some (loss θ)))
    (θ : E) :
    loss θ = (ranks.length : ℝ)⁻¹ * (ranks.flatten.map fun part => partLoss part θ).sum := by
  have hflat : (ranks.map (List.map (List.map (ParamRow.at θ)))).flatten
      = ranks.flatten.map (List.map (ParamRow.at θ)) := (map_flatten).symm
  have heq := accumulateLoss_eq (ranks.map (List.map (List.map (ParamRow.at θ))))
    (batch.map (ParamRow.at θ))
    (by rw [hflat, Ne, map_eq_nil_iff]; exact hparts)
    (by rw [hflat, ← map_flatten]; exact hperm.map _)
    lossAggMode batchNumTokens globalBatchSize lossScaleFactor
  have hlist : (ranks.flatten.map (List.map (ParamRow.at θ))).mapM (fun part =>
        aggLoss part lossAggMode ranks.length (some batchNumTokens) (some globalBatchSize)
          lossScaleFactor)
      = .ok (ranks.flatten.map fun part => some (partLoss part θ)) := by
    rw [mapM_map]
    exact mapM_eq_ok_map _ _ _ fun part hpart' => hpart part hpart' θ
  unfold accumulateLoss at heq
  rw [hflat, length_map, hlist, ok_bind, numSum_map_some, hloss θ] at heq
  have hdp : (ranks.length : ℝ) ≠ 0 := by
    rw [Nat.cast_ne_zero]
    intro h0
    rw [length_eq_zero_iff] at h0
    rw [h0] at hparts
    exact hparts rfl
  have hsome : tensorDiv (ranks.flatten.map fun part => partLoss part θ).sum (ranks.length : ℝ)
      = some (loss θ) := Except.ok.inj heq
  rw [tensorDiv, if_neg hdp] at hsome
  rw [← Option.some.inj hsome, div_eq_inv_mul]

end Gradient

/-! ## Top theorem -/

/-- With the global counts, the loss accumulated over any ranks and micro-batches is the loss of
the whole batch in every mode, and the gradient accumulated from the parts is the gradient of that
loss: neither depends on the parts. -/
theorem aggLoss_parts {K E : Type} [Field K] [LinearOrder K] [IsStrictOrderedRing K]
    [NormedAddCommGroup E] [NormedSpace ℝ E] {w : Nat} (lossAggMode : String) :
    (∀ (ranks : List (List (List (LossRow K w)))) (batch : List (LossRow K w))
      (batchNumTokens globalBatchSize : K) (lossScaleFactor : Option K),
      ranks.flatten ≠ [] → ranks.flatten.flatten.Perm batch →
      accumulateLoss ranks lossAggMode (some batchNumTokens) (some globalBatchSize) lossScaleFactor
        = aggLoss batch lossAggMode 1 (some batchNumTokens) (some globalBatchSize)
          lossScaleFactor) ∧
    (∀ (ranks : List (List (List (ParamRow E w)))) (batch : List (ParamRow E w))
      (batchNumTokens globalBatchSize : ℝ) (lossScaleFactor : Option ℝ)
      (partLoss : List (ParamRow E w) → E → ℝ) (loss : E → ℝ)
      (partGrad : List (ParamRow E w) → E →L[ℝ] ℝ) (θ : E),
      ranks.flatten ≠ [] → ranks.flatten.flatten.Perm batch →
      (∀ part ∈ ranks.flatten, ∀ θ, aggLoss (part.map (ParamRow.at θ)) lossAggMode ranks.length
        (some batchNumTokens) (some globalBatchSize) lossScaleFactor = .ok (some (partLoss part θ))) →
      (∀ θ, aggLoss (batch.map (ParamRow.at θ)) lossAggMode 1 (some batchNumTokens)
        (some globalBatchSize) lossScaleFactor = .ok (some (loss θ))) →
      (∀ part ∈ ranks.flatten, HasFDerivAt (partLoss part) (partGrad part) θ) →
      HasFDerivAt loss ((ranks.length : ℝ)⁻¹ • (ranks.flatten.map partGrad).sum) θ) := by
  constructor
  · intro ranks batch batchNumTokens globalBatchSize lossScaleFactor hparts hperm
    exact accumulateLoss_eq ranks batch hparts hperm lossAggMode _ _ _
  · intro ranks batch batchNumTokens globalBatchSize lossScaleFactor partLoss loss partGrad θ
      hparts hperm hpart hloss hgrad
    have heq : loss = fun θ => (ranks.length : ℝ)⁻¹ *
        (ranks.flatten.map fun part => partLoss part θ).sum := by
      funext θ
      exact loss_eq_of_parts ranks batch hparts hperm lossAggMode _ _ _ partLoss loss hpart hloss θ
    rw [heq]
    exact (hasFDerivAt_list_sum ranks.flatten partLoss partGrad θ hgrad).const_mul _

/-- A row of one token whose loss is `a * θ`. -/
def slopeRow (a : ℝ) : ParamRow ℝ 1 where
  loss := fun θ _ => a * θ
  mask := fun _ => 1

theorem hasFDerivAt_slopeRow (a : ℝ) :
    HasFDerivAt (fun θ : ℝ => ([slopeRow a].map fun r => r.loss θ 0).sum)
      (([slopeRow a].map fun r => r.loss 1 0).sum • ContinuousLinearMap.id ℝ ℝ) 0 := by
  have hid : HasFDerivAt (fun θ : ℝ => θ) (ContinuousLinearMap.id ℝ ℝ) 0 := hasFDerivAt_id 0
  simp only [map_cons, map_nil, sum_cons, sum_nil, slopeRow, mul_one, add_zero]
  exact hid.const_mul a

/-- Two ranks: one has a micro-batch without rows and a row that is half masked, the other a row
that is masked entirely; and the gradient of two rows on two ranks. -/
theorem aggLoss_parts_two_ranks :
    accumulateLoss [[[{ loss := fun _ : Fin 2 => 3, mask := fun t => (t.val : ℚ) }], []],
        [[{ loss := fun _ => 5, mask := fun _ => 0 }]]] "seq-mean-token-mean" (some 1) (some 1) none
      = aggLoss [{ loss := fun _ : Fin 2 => 3, mask := fun t => (t.val : ℚ) },
        { loss := fun _ => 5, mask := fun _ => 0 }] "seq-mean-token-mean" 1 (some 1) (some 1) none ∧
    HasFDerivAt (fun θ : ℝ => (1 * θ + 3 * θ) / 2)
      ((2 : ℝ)⁻¹ • ((1 : ℝ) • ContinuousLinearMap.id ℝ ℝ + (3 : ℝ) • ContinuousLinearMap.id ℝ ℝ))
      (0 : ℝ) := by
  have hvalue := (aggLoss_parts (K := ℚ) (E := ℝ) (w := 2) "seq-mean-token-mean").1
    [[[{ loss := fun _ => 3, mask := fun t => t.val }], []],
      [[{ loss := fun _ => 5, mask := fun _ => 0 }]]]
    [{ loss := fun _ => 3, mask := fun t => t.val }, { loss := fun _ => 5, mask := fun _ => 0 }]
    1 1 none (by simp) (by simp)
  have hgrad := (aggLoss_parts (K := ℚ) (E := ℝ) (w := 1) "token-mean").2
    [[[slopeRow 1]], [[slopeRow 3]]] [slopeRow 1, slopeRow 3] 2 2 none
    (fun part θ => (part.map fun r => r.loss θ 0).sum) (fun θ => (1 * θ + 3 * θ) / 2)
    (fun part => (part.map fun r => r.loss 1 0).sum • ContinuousLinearMap.id ℝ ℝ) 0
    (by simp) (by simp)
    (by
      intro part hpart θ
      rw [aggLoss_eq rfl]
      rcases mem_pair.1 hpart with rfl | rfl <;>
        simp [normalize, tensorDiv, rowTerm, maskedEntry, slopeRow, ParamRow.at])
    (by
      intro θ
      rw [aggLoss_eq rfl]
      simp [normalize, tensorDiv, rowTerm, maskedEntry, slopeRow, ParamRow.at])
    (by
      intro part hpart
      rcases mem_pair.1 hpart with rfl | rfl
      · exact hasFDerivAt_slopeRow 1
      · exact hasFDerivAt_slopeRow 3)
  refine ⟨hvalue, ?_⟩
  simpa [slopeRow] using hgrad

end Verl
