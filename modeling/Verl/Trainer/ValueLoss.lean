import Verl.Trainer.AggLoss

/-!
# The critic's loss (`compute_value_loss`, `value_loss`)

The training engine sums the gradients of the micro-batches and never divides by their number.
`value_loss` calls `agg_loss` without the counts of the whole batch, so every micro-batch is
normalised by a count of its own (`normalizer`).

    criticGrad split₁ = criticGrad split₂ (for every critic)   ↔
      every row with a token that moves the critic has one and the same normalizer in both

The backward pass is written after autograd's rules: `torch.where` lets no gradient through outside
the mask, and `torch.max` / `torch.min` halve the gradient on ties.
-/

namespace Verl

open List

/-! ## Algorithm -/

/-- A response token: the prediction, the old value, the return and whether it counts. -/
structure ValueToken (K : Type) where
  vpred : K
  value : K
  ret : K
  mask : Bool

/-- The rows of a rank.  `maxResponseLen` is the width of padded rows; rows without padding are
padded to the longest row of their micro-batch. -/
structure ValueBatch (K : Type) (n : Nat) where
  row : Fin n → List (ValueToken K)
  maxResponseLen : Option Nat
  fits : ∀ w ∈ maxResponseLen, ∀ i, (row i).length ≤ w

section Algorithm

variable {K : Type} [Field K] [LinearOrder K]

def ValueToken.pad : ValueToken K := { vpred := 0, value := 0, ret := 0, mask := false }

/-- `clip_by_value`. -/
def clipByValue (x tensorMin tensorMax : K) : K := max (min x tensorMax) tensorMin

namespace ValueToken

def vpredclipped (cliprangeValue : K) (tok : ValueToken K) : K :=
  clipByValue tok.vpred (tok.value - cliprangeValue) (tok.value + cliprangeValue)

def vfLoss1 (tok : ValueToken K) : K := (tok.vpred - tok.ret) ^ 2

def vfLoss2 (cliprangeValue : K) (tok : ValueToken K) : K :=
  (tok.vpredclipped cliprangeValue - tok.ret) ^ 2

end ValueToken

/-- A row of `clipped_vf_losses` with its row of `response_mask`. -/
def vfLossRow (w : Nat) (cliprangeValue : K) (row : List (ValueToken K)) : LossRow K w where
  loss := fun t =>
    max (row.getD t ValueToken.pad).vfLoss1 ((row.getD t ValueToken.pad).vfLoss2 cliprangeValue)
  mask := fun t => if (row.getD t ValueToken.pad).mask then 1 else 0

/-- The width of the matrices of a micro-batch. -/
def responseWidth (maxResponseLen : Option Nat) (rows : List (List (ValueToken K))) : Nat :=
  match maxResponseLen with
  | some w => w
  | none => (rows.map List.length).foldl max 0

/-- `compute_value_loss`: `agg_loss` is called without any global count. -/
def computeValueLoss (lossAggMode : String) (cliprangeValue : K) (maxResponseLen : Option Nat)
    (rows : List (List (ValueToken K))) : Except PyErr (Option K) := do
  let lossMat := rows.map (vfLossRow (responseWidth maxResponseLen rows) cliprangeValue)
  let loss ← aggLoss lossMat lossAggMode 1 none none none
  return loss.map (1 / 2 * ·)

/-! ### Backward -/

/-- The gradient of `maskedEntry` in its value. -/
def maskedEntryBackward (grad mask : K) : K := if mask ≠ 0 then grad * mask else 0

/-- The gradient of `agg_loss` in entry `t` of row `r` of the loss matrix. -/
def aggLossBackward {w : Nat} (mode : LossAggMode) (rows : List (LossRow K w)) (dpSize : Nat)
    (batchNumTokens globalBatchSize lossScaleFactor : Option K) (r : LossRow K w) (t : Fin w) : K :=
  let numTokens := batchNumTokens.getD (rows.map LossRow.maskSum).sum
  let batchSize := globalBatchSize.getD (rows.map LossRow.seqMask).sum
  match mode with
  | .tokenMean => maskedEntryBackward (dpSize / numTokens) (r.mask t)
  | .seqMeanTokenSum => maskedEntryBackward (dpSize / batchSize) r.seqMask * r.mask t
  | .seqMeanTokenSumNorm =>
    maskedEntryBackward (1 / lossScaleFactor.getD w * dpSize / batchSize) r.seqMask * r.mask t
  | .seqMeanTokenMean =>
    maskedEntryBackward (dpSize / batchSize) r.seqMask / (r.maskSum + 1 / 10 ^ 8) * r.mask t

/-- The gradients of `torch.max(a, b)` in `a` and in `b`. -/
def maxBackward (a b : K) : K × K :=
  if a = b then (1 / 2, 1 / 2) else if a < b then (0, 1) else (1, 0)

/-- The gradients of `torch.min(a, b)` in `a` and in `b`. -/
def minBackward (a b : K) : K × K :=
  if a = b then (1 / 2, 1 / 2) else if a < b then (1, 0) else (0, 1)

/-- The gradient of `clip_by_value` in `x`. -/
def clipByValueBackward (x tensorMin tensorMax : K) : K :=
  (maxBackward (min x tensorMax) tensorMin).1 * (minBackward x tensorMax).1

/-- The gradient of a clipped loss in its prediction. -/
def ValueToken.backward (cliprangeValue : K) (tok : ValueToken K) : K :=
  let dmax := maxBackward tok.vfLoss1 (tok.vfLoss2 cliprangeValue)
  let dclip := clipByValueBackward tok.vpred (tok.value - cliprangeValue) (tok.value + cliprangeValue)
  dmax.1 * (2 * (tok.vpred - tok.ret)) +
    dmax.2 * (2 * (tok.vpredclipped cliprangeValue - tok.ret)) * dclip

/-- The gradient of `compute_value_loss` of a micro-batch in entry `t` of the predictions of a
row. -/
def computeValueLossBackward (mode : LossAggMode) (cliprangeValue : K) (w : Nat)
    (rows : List (List (ValueToken K))) (row : List (ValueToken K)) (t : Fin w) : K :=
  1 / 2 * aggLossBackward mode (rows.map (vfLossRow w cliprangeValue)) 1 none none none
    (vfLossRow w cliprangeValue row) t * (row.getD t ValueToken.pad).backward cliprangeValue

variable {n : Nat}

/-- The backward pass of one micro-batch into a parameter: `jac i t` is the derivative of the
prediction of token `t` of row `i` in it. -/
def microBatchGrad (mode : LossAggMode) (cliprangeValue : K) (batch : ValueBatch K n)
    (microBatch : List (Fin n)) (jac : Fin n → Nat → K) : K :=
  let rows := microBatch.map batch.row
  let w := responseWidth batch.maxResponseLen rows
  (microBatch.map fun i =>
    ∑ t : Fin w, computeValueLossBackward mode cliprangeValue w rows (batch.row i) t * jac i t).sum

/-- `forward_backward_batch`: the gradients of the micro-batches add up. -/
def criticGrad (mode : LossAggMode) (cliprangeValue : K) (batch : ValueBatch K n)
    (split : List (List (Fin n))) (jac : Fin n → Nat → K) : K :=
  (split.map fun microBatch => microBatchGrad mode cliprangeValue batch microBatch jac).sum

end Algorithm

/-! ## Lemmas: counts -/

section Counts

variable {K : Type}

def validTokens (rows : List (List (ValueToken K))) : Nat :=
  (rows.map fun row => row.countP (·.mask)).sum

def validRows (rows : List (List (ValueToken K))) : Nat :=
  rows.countP fun row => row.any (·.mask)

/-- What a micro-batch of width `w` is normalised by. -/
def normalizer (mode : LossAggMode) (w : Nat) (rows : List (List (ValueToken K))) : Nat :=
  match mode with
  | .tokenMean => validTokens rows
  | .seqMeanTokenSum | .seqMeanTokenMean => validRows rows
  | .seqMeanTokenSumNorm => validRows rows * w

/-- The normalizer of a micro-batch of a batch. -/
def ValueBatch.normalizer {n : Nat} (mode : LossAggMode) (batch : ValueBatch K n)
    (microBatch : List (Fin n)) : Nat :=
  Verl.normalizer mode (responseWidth batch.maxResponseLen (microBatch.map batch.row))
    (microBatch.map batch.row)

theorem le_foldl_max (xs : List Nat) (start x : Nat) (h : x ≤ start ∨ x ∈ xs) :
    x ≤ xs.foldl max start := by
  induction xs generalizing start with
  | nil =>
    rcases h with h | h
    · exact h
    · cases h
  | cons y ys ih =>
    apply ih
    rcases h with h | h
    · left; omega
    · grind

theorem length_le_responseWidth {n : Nat} (batch : ValueBatch K n) (microBatch : List (Fin n)) :
    ∀ row ∈ microBatch.map batch.row,
      row.length ≤ responseWidth batch.maxResponseLen (microBatch.map batch.row) := by
  intro row hrow
  cases hw : batch.maxResponseLen with
  | some w =>
    obtain ⟨i, -, rfl⟩ := mem_map.1 hrow
    exact batch.fits w hw i
  | none => exact le_foldl_max _ 0 _ (.inr (mem_map.2 ⟨row, hrow, rfl⟩))

end Counts

section Sums

variable {K : Type} [Field K]

theorem sum_fin_eq_range (F : Nat → K) (len w : Nat) (hlen : len ≤ w) (hF : ∀ t, len ≤ t → F t = 0) :
    ∑ t : Fin w, F t = ∑ t ∈ Finset.range len, F t := by
  rw [Fin.sum_univ_eq_sum_range]
  refine (Finset.sum_subset (Finset.range_subset_range.2 hlen) ?_).symm
  intro t _ ht
  exact hF t (by simpa using ht)

variable {row : List (ValueToken K)} {t : Nat}

theorem getD_pad_of_le (h : row.length ≤ t) :
    row.getD t ValueToken.pad = ValueToken.pad := by grind

theorem getD_mem_of_mask (h : (row.getD t ValueToken.pad).mask = true) :
    t < row.length ∧ row.getD t ValueToken.pad ∈ row := by
  by_cases ht : t < row.length
  · grind
  · rw [getD_pad_of_le (by omega)] at h
    cases h

theorem sum_range_getD (row : List (ValueToken K)) (f : ValueToken K → K) :
    ∑ t ∈ Finset.range row.length, f (row.getD t ValueToken.pad) = (row.map f).sum := by
  induction row with
  | nil => rfl
  | cons tok row ih =>
    rw [length_cons, Finset.sum_range_succ', map_cons, sum_cons, add_comm, ← ih]
    rfl

theorem sum_map_indicator {α : Type} (p : α → Bool) (xs : List α) :
    (xs.map fun a => if p a = true then (1 : K) else 0).sum = xs.countP p := by
  induction xs with
  | nil => simp
  | cons a xs ih =>
    rw [map_cons, sum_cons, ih]
    cases h : p a with
    | true => rw [if_pos rfl, countP_cons_of_pos h, Nat.cast_succ, add_comm]
    | false => rw [if_neg Bool.false_ne_true, countP_cons_of_neg (by simp [h]), zero_add]

end Sums

/-! ## Lemmas: the gradient of a micro-batch -/

section Lemmas

variable {K : Type} [Field K] [LinearOrder K] {w : Nat}

variable {rows : List (List (ValueToken K))} {row : List (ValueToken K)}

theorem maskSum_vfLossRow (cliprangeValue : K) (h : row.length ≤ w) :
    (vfLossRow w cliprangeValue row).maskSum = (row.countP (·.mask) : K) := by
  have hsum := sum_fin_eq_range (fun t => if (row.getD t ValueToken.pad).mask then (1 : K) else 0)
    row.length w h (fun t ht => by rw [getD_pad_of_le ht]; rfl)
  rw [sum_range_getD row fun tok => if tok.mask then (1 : K) else 0, sum_map_indicator] at hsum
  exact hsum

theorem sum_maskSum_vfLossRow (cliprangeValue : K) (h : ∀ row ∈ rows, row.length ≤ w) :
    ((rows.map (vfLossRow w cliprangeValue)).map LossRow.maskSum).sum = (validTokens rows : K) := by
  unfold validTokens
  rw [map_map, Nat.cast_list_sum, map_map]
  congr 1
  exact map_congr_left fun row hrow => maskSum_vfLossRow cliprangeValue (h row hrow)

variable [IsStrictOrderedRing K]

theorem seqMask_vfLossRow (cliprangeValue : K) (h : row.length ≤ w) :
    (vfLossRow w cliprangeValue row).seqMask = if row.any (·.mask) = true then 1 else 0 := by
  unfold LossRow.seqMask
  rw [maskSum_vfLossRow cliprangeValue h]
  have hiff : (row.countP (·.mask) : K) > 0 ↔ row.any (·.mask) = true := by simp
  simp only [hiff]

theorem sum_seqMask_vfLossRow (cliprangeValue : K) (h : ∀ row ∈ rows, row.length ≤ w) :
    ((rows.map (vfLossRow w cliprangeValue)).map LossRow.seqMask).sum = (validRows rows : K) := by
  unfold validRows
  rw [map_map, ← sum_map_indicator]
  congr 1
  exact map_congr_left fun row hrow => seqMask_vfLossRow cliprangeValue (h row hrow)

/-- The factor of a row's own token mean. -/
def seqFactor (mode : LossAggMode) (row : List (ValueToken K)) : K :=
  match mode with
  | .seqMeanTokenMean => 1 / (row.countP (·.mask) + 1 / 10 ^ 8)
  | _ => 1

/-- What a row's token contributes before it is normalised. -/
def tokenGrad (mode : LossAggMode) (cliprangeValue : K) (row : List (ValueToken K)) (t : Nat) : K :=
  let tok := row.getD t ValueToken.pad
  if tok.mask then 1 / 2 * seqFactor mode row * tok.backward cliprangeValue else 0

theorem computeValueLossBackward_eq (mode : LossAggMode) (cliprangeValue : K)
    (h : ∀ row ∈ rows, row.length ≤ w) (hrow : row ∈ rows) (t : Fin w) :
    computeValueLossBackward mode cliprangeValue w rows row t
      = (normalizer mode w rows : K)⁻¹ * tokenGrad mode cliprangeValue row t := by
  unfold computeValueLossBackward tokenGrad seqFactor aggLossBackward
  simp only [sum_maskSum_vfLossRow cliprangeValue h,
    sum_seqMask_vfLossRow cliprangeValue h, seqMask_vfLossRow cliprangeValue (h row hrow),
    maskSum_vfLossRow cliprangeValue (h row hrow)]
  have hmask : (vfLossRow w cliprangeValue row).mask t
      = if (row.getD t ValueToken.pad).mask = true then 1 else 0 := rfl
  rw [hmask]
  by_cases hm : (row.getD t ValueToken.pad).mask = true
  · have hany : row.any (·.mask) = true :=
      any_eq_true.2 ⟨_, (getD_mem_of_mask hm).2, hm⟩
    simp only [hm, hany]
    cases mode with
    | tokenMean => simp [maskedEntryBackward, normalizer]; ring
    | seqMeanTokenSum => simp [maskedEntryBackward, normalizer]; ring
    | seqMeanTokenSumNorm => simp [maskedEntryBackward, normalizer]; ring
    | seqMeanTokenMean => simp [maskedEntryBackward, normalizer]; ring
  · simp only [if_neg hm]
    cases mode <;> simp [maskedEntryBackward]

variable {n : Nat}

/-- What a row contributes before it is normalised. -/
def rowGrad (mode : LossAggMode) (cliprangeValue : K) (batch : ValueBatch K n)
    (jac : Fin n → Nat → K) (i : Fin n) : K :=
  ∑ t ∈ Finset.range (batch.row i).length,
    tokenGrad mode cliprangeValue (batch.row i) t * jac i t

omit [IsStrictOrderedRing K] in
theorem tokenGrad_of_le (mode : LossAggMode) (cliprangeValue : K)
    {t : Nat} (h : row.length ≤ t) : tokenGrad mode cliprangeValue row t = 0 := by
  unfold tokenGrad
  rw [getD_pad_of_le h]
  rfl

variable (mode : LossAggMode)

theorem microBatchGrad_eq (cliprangeValue : K) (batch : ValueBatch K n)
    (microBatch : List (Fin n)) (jac : Fin n → Nat → K) :
    microBatchGrad mode cliprangeValue batch microBatch jac
      = (microBatch.map fun i => (batch.normalizer mode microBatch : K)⁻¹ *
        rowGrad mode cliprangeValue batch jac i).sum := by
  unfold microBatchGrad
  dsimp only
  congr 1
  refine map_congr_left fun i hi => ?_
  have hrow : batch.row i ∈ microBatch.map batch.row := mem_map.2 ⟨i, hi, rfl⟩
  have hfit := length_le_responseWidth batch microBatch
  have hterm : ∀ t : Fin (responseWidth batch.maxResponseLen (microBatch.map batch.row)),
      computeValueLossBackward mode cliprangeValue _ (microBatch.map batch.row) (batch.row i) t *
          jac i t
        = (batch.normalizer mode microBatch : K)⁻¹ *
          (tokenGrad mode cliprangeValue (batch.row i) t * jac i t) := by
    intro t
    rw [computeValueLossBackward_eq mode cliprangeValue hfit hrow t, mul_assoc]
    rfl
  rw [Finset.sum_congr rfl fun t _ => hterm t, ← Finset.mul_sum]
  congr 1
  refine sum_fin_eq_range (fun t => tokenGrad mode cliprangeValue (batch.row i) t * jac i t) _ _
    (hfit _ hrow) ?_
  intro t ht
  rw [tokenGrad_of_le mode cliprangeValue ht, zero_mul]

/-- The micro-batch of row `i`. -/
def microBatchOf (split : List (List (Fin n))) (i : Fin n) : List (Fin n) :=
  (split.find? fun microBatch => microBatch.contains i).getD []

theorem microBatchOf_eq {split : List (List (Fin n))} (hnd : split.flatten.Nodup)
    {microBatch : List (Fin n)} (hmem : microBatch ∈ split) {i : Fin n} (hi : i ∈ microBatch) :
    microBatchOf split i = microBatch := by
  unfold microBatchOf
  induction split with
  | nil => cases hmem
  | cons mb split ih =>
    rw [flatten_cons, nodup_append] at hnd
    rw [find?_cons]
    by_cases hmb : i ∈ mb
    · have hfirst : mb = microBatch := by
        rcases mem_cons.1 hmem with rfl | hmem
        · rfl
        · exact absurd rfl (hnd.2.2 i hmb i (mem_flatten.2 ⟨_, hmem, hi⟩))
      rw [show mb.contains i = true by simpa using hmb]
      exact hfirst
    · grind

theorem criticGrad_eq (cliprangeValue : K) (batch : ValueBatch K n) (split : List (List (Fin n)))
    (h : split.flatten.Perm (finRange n)) (jac : Fin n → Nat → K) :
    criticGrad mode cliprangeValue batch split jac
      = ∑ i, (batch.normalizer mode (microBatchOf split i) : K)⁻¹ *
        rowGrad mode cliprangeValue batch jac i := by
  have hnd : split.flatten.Nodup := h.nodup_iff.2 (nodup_finRange n)
  have hmb : ∀ microBatch ∈ split, microBatchGrad mode cliprangeValue batch microBatch jac
      = (microBatch.map fun i => (batch.normalizer mode (microBatchOf split i) : K)⁻¹ *
        rowGrad mode cliprangeValue batch jac i).sum := by
    intro microBatch hmem
    rw [microBatchGrad_eq]
    congr 1
    refine map_congr_left fun i hi => ?_
    rw [microBatchOf_eq hnd hmem hi]
  unfold criticGrad
  rw [map_congr_left hmb, Fin.sum_univ_def, ← (h.map _).sum_eq, map_flatten,
    sum_flatten, map_map]
  rfl

/-! ## Lemmas: the tokens that move the critic -/

/-- A token moves the critic when it counts, its prediction is not its return, and clipping does
not take over: the clipped error is not the larger one. -/
def ValueToken.Active (cliprangeValue : K) (tok : ValueToken K) : Prop :=
  tok.mask = true ∧ tok.vpred ≠ tok.ret ∧ ¬ tok.vfLoss1 < tok.vfLoss2 cliprangeValue

omit [IsStrictOrderedRing K] in
theorem clipByValueBackward_eq_zero {x lo hi : K} (h : clipByValue x lo hi ≠ x) :
    clipByValueBackward x lo hi = 0 := by
  unfold clipByValue at h
  unfold clipByValueBackward minBackward maxBackward
  by_cases hx : x ≤ hi
  · grind
  · grind

theorem clipByValueBackward_nonneg (x lo hi : K) : 0 ≤ clipByValueBackward x lo hi := by
  have hmax : ∀ a b : K, 0 ≤ (maxBackward a b).1 := by
    intro a b
    unfold maxBackward
    split
    · exact one_half_pos.le
    · grind
  have hmin : ∀ a b : K, 0 ≤ (minBackward a b).1 := by
    intro a b
    unfold minBackward
    split
    · exact one_half_pos.le
    · grind
  exact mul_nonneg (hmax _ _) (hmin _ _)

theorem backward_ne_zero_iff (cliprangeValue : K) (tok : ValueToken K) :
    tok.backward cliprangeValue ≠ 0 ↔
      tok.vpred ≠ tok.ret ∧ ¬ tok.vfLoss1 < tok.vfLoss2 cliprangeValue := by
  have hclip : tok.vpredclipped cliprangeValue ≠ tok.vpred → clipByValueBackward tok.vpred
      (tok.value - cliprangeValue) (tok.value + cliprangeValue) = 0 := clipByValueBackward_eq_zero
  have hnonneg := clipByValueBackward_nonneg tok.vpred (tok.value - cliprangeValue)
    (tok.value + cliprangeValue)
  unfold ValueToken.backward
  generalize clipByValueBackward tok.vpred (tok.value - cliprangeValue)
    (tok.value + cliprangeValue) = dclip at hclip hnonneg
  unfold maxBackward
  have hret : tok.vpred - tok.ret ≠ 0 ↔ tok.vpred ≠ tok.ret := sub_ne_zero
  rcases lt_trichotomy tok.vfLoss1 (tok.vfLoss2 cliprangeValue) with hlt | heq | hgt
  · -- the clipped loss is the larger one, so the prediction was clipped
    have hne : tok.vpredclipped cliprangeValue ≠ tok.vpred := by
      intro he
      unfold ValueToken.vfLoss2 at hlt
      rw [he] at hlt
      exact lt_irrefl _ hlt
    rw [if_neg (ne_of_lt hlt), hclip hne]
    simp [hlt]
  · rw [if_pos heq]
    have hnlt : ¬ tok.vfLoss1 < tok.vfLoss2 cliprangeValue := by rw [heq]; exact lt_irrefl _
    by_cases he : tok.vpredclipped cliprangeValue = tok.vpred
    · have hfactor : 1 / 2 * (2 * (tok.vpred - tok.ret)) +
          1 / 2 * (2 * (tok.vpredclipped cliprangeValue - tok.ret)) * dclip
          = (tok.vpred - tok.ret) * (1 + dclip) := by
        rw [he]
        ring
      have hpos : (1 : K) + dclip ≠ 0 := by linarith
      rw [hfactor, mul_ne_zero_iff, hret]
      exact ⟨fun h => ⟨h.1, hnlt⟩, fun h => ⟨h.1, hpos⟩⟩
    · grind
  · grind

theorem tokenGrad_ne_zero_iff (cliprangeValue : K) (row : List (ValueToken K)) (t : Nat) :
    tokenGrad mode cliprangeValue row t ≠ 0 ↔
      (row.getD t ValueToken.pad).Active cliprangeValue := by
  unfold tokenGrad ValueToken.Active
  rw [← backward_ne_zero_iff]
  by_cases hm : (row.getD t ValueToken.pad).mask = true
  · have hcount : (0 : K) ≤ row.countP (·.mask) := Nat.cast_nonneg _
    have hfactor : 1 / 2 * seqFactor mode row ≠ (0 : K) := by
      refine mul_ne_zero one_half_pos.ne' ?_
      unfold seqFactor
      split
      · grind
      · exact one_ne_zero
    rw [if_pos hm, mul_ne_zero_iff]
    exact ⟨fun h => ⟨hm, h.2⟩, fun h => ⟨hfactor, h.2⟩⟩
  · grind

/-- A critic whose parameter only moves the prediction of token `t` of row `i`. -/
def oneToken (i : Fin n) (t : Nat) (j : Fin n) (u : Nat) : K := if j = i ∧ u = t then 1 else 0

theorem criticGrad_oneToken (cliprangeValue : K) (batch : ValueBatch K n)
    (split : List (List (Fin n))) (h : split.flatten.Perm (finRange n)) (i : Fin n) {t : Nat}
    (ht : t < (batch.row i).length) :
    criticGrad mode cliprangeValue batch split (oneToken i t)
      = (batch.normalizer mode (microBatchOf split i) : K)⁻¹ *
        tokenGrad mode cliprangeValue (batch.row i) t := by
  have hrow : rowGrad mode cliprangeValue batch (oneToken i t) i
      = tokenGrad mode cliprangeValue (batch.row i) t := by
    unfold rowGrad oneToken
    rw [Finset.sum_eq_single t]
    · rw [if_pos ⟨rfl, rfl⟩, mul_one]
    · grind
    · grind
  have hother : ∀ j, j ≠ i → rowGrad mode cliprangeValue batch (oneToken i t) j = 0 := by
    intro j hj
    unfold rowGrad oneToken
    refine Finset.sum_eq_zero fun u _ => ?_
    rw [if_neg (fun h => hj h.1), mul_zero]
  rw [criticGrad_eq mode cliprangeValue batch split h, Finset.sum_eq_single i, hrow]
  · grind
  · simp

/-! ## Top theorem -/

/-- Two ways of splitting a rank's rows give every critic the same gradient exactly when each row
with a token that moves the critic has the same normalizer in both. -/
theorem criticGrad_eq_iff (mode : LossAggMode) (cliprangeValue : K) (batch : ValueBatch K n)
    (split₁ split₂ : List (List (Fin n))) (h₁ : split₁.flatten.Perm (List.finRange n))
    (h₂ : split₂.flatten.Perm (List.finRange n)) :
    (∀ jac, criticGrad mode cliprangeValue batch split₁ jac
        = criticGrad mode cliprangeValue batch split₂ jac) ↔
      ∀ i, (∃ tok ∈ batch.row i, tok.Active cliprangeValue) →
        batch.normalizer mode (microBatchOf split₁ i)
          = batch.normalizer mode (microBatchOf split₂ i) := by
  constructor
  · rintro hgrad i ⟨tok, htok, hactive⟩
    obtain ⟨t, ht, rfl⟩ := getElem_of_mem htok
    have hmask : (batch.row i).getD t ValueToken.pad = (batch.row i)[t] := by grind
    have hne : tokenGrad mode cliprangeValue (batch.row i) t ≠ 0 :=
      (tokenGrad_ne_zero_iff mode cliprangeValue _ t).2 (by rw [hmask]; exact hactive)
    have hone := hgrad (oneToken i t)
    rw [criticGrad_oneToken mode cliprangeValue batch split₁ h₁ i ht,
      criticGrad_oneToken mode cliprangeValue batch split₂ h₂ i ht] at hone
    exact Nat.cast_injective (inv_injective (mul_right_cancel₀ hne hone))
  · intro hnorm jac
    rw [criticGrad_eq mode cliprangeValue batch split₁ h₁,
      criticGrad_eq mode cliprangeValue batch split₂ h₂]
    refine Finset.sum_congr rfl fun i _ => ?_
    by_cases hactive : ∃ tok ∈ batch.row i, tok.Active cliprangeValue
    · rw [hnorm i hactive]
    · have hzero : rowGrad mode cliprangeValue batch jac i = 0 := by
        refine Finset.sum_eq_zero fun t ht => ?_
        have htok : tokenGrad mode cliprangeValue (batch.row i) t = 0 := by
          by_contra hne
          have hact := (tokenGrad_ne_zero_iff mode cliprangeValue _ t).1 hne
          exact hactive ⟨_, (getD_mem_of_mask hact.1).2, hact⟩
        rw [htok, zero_mul]
      rw [hzero, mul_zero, mul_zero]

end Lemmas

/-- A row of `k` valid tokens whose prediction is one above the return. -/
def onesRow (k : Nat) : List (ValueToken ℚ) :=
  List.replicate k { vpred := 1, value := 1, ret := 0, mask := true }

/-- Rows of one and of three tokens. -/
def oneAndThree : ValueBatch ℚ 2 where
  row := fun i => if i = 0 then onesRow 1 else onesRow 3
  maxResponseLen := some 3
  fits := by decide

/-- Two rows of equal lengths. -/
def twoAndTwo : ValueBatch ℚ 2 where
  row := fun _ => onesRow 2
  maxResponseLen := some 3
  fits := by decide

theorem criticGrad_eq_iff_twoAndTwo : (∀ jac, criticGrad .tokenMean (1 / 2) twoAndTwo [[0], [1]] jac
        = criticGrad .tokenMean (1 / 2) twoAndTwo [[1], [0]] jac) ↔
      ∀ i, (∃ tok ∈ twoAndTwo.row i, tok.Active (1 / 2)) →
        twoAndTwo.normalizer .tokenMean (microBatchOf [[0], [1]] i)
          = twoAndTwo.normalizer .tokenMean (microBatchOf [[1], [0]] i) :=
  criticGrad_eq_iff .tokenMean (1 / 2) twoAndTwo [[0], [1]] [[1], [0]] (by decide) (by decide)

/-- Together the four tokens weigh a quarter each; apart, the one weighs one and the three a third
each: the gradient doubles. -/
theorem criticGrad_oneAndThree_ne :
    criticGrad .tokenMean (1 / 2) oneAndThree [[0, 1]] (fun _ _ => 1) = 1 ∧
    criticGrad .tokenMean (1 / 2) oneAndThree [[0], [1]] (fun _ _ => 1) = 2 ∧
    ¬ ∀ jac, criticGrad .tokenMean (1 / 2) oneAndThree [[0, 1]] jac
      = criticGrad .tokenMean (1 / 2) oneAndThree [[0], [1]] jac := by
  have hone : criticGrad .tokenMean (1 / 2) oneAndThree [[0, 1]] (fun _ _ => 1) = 1 := by
    decide +kernel
  have htwo : criticGrad .tokenMean (1 / 2) oneAndThree [[0], [1]] (fun _ _ => 1) = 2 := by
    decide +kernel
  refine ⟨hone, htwo, fun h => ?_⟩
  have heq := h fun _ _ => 1
  rw [hone, htwo] at heq
  exact absurd heq (by decide)

end Verl
