import Verl.Trainer.Distillation

/-!
# The geometric-mean policy loss (`verl/trainer/ppo/core_algos.py`)

A rank adds up the losses of its micro-batches and the ranks are averaged, so a policy loss has to
divide by the counts of the whole batch.  `compute_policy_loss_vanilla` leaves this to `agg_loss`;
`compute_policy_loss_geo_mean` takes the mean of the rows at hand.

    the accumulated loss is that of the batch, for all rows
      vanilla    always                                                       (accumulate_vanilla)
      geo_mean   ↔ every micro-batch has (rows of the batch) / (ranks) rows   (geoMean_split_iff)
-/

namespace Verl.PolicyLoss

open List

open Distillation (BatchInfo clamp)

/-! ## Algorithm -/

/-- A row of the tensors that `ppo_loss` hands to the policy loss. -/
structure PolicyRow (K : Type) (w : Nat) where
  oldLogProb : Fin w → K
  logProb : Fin w → K
  advantages : Fin w → K
  responseMask : Fin w → Bool
  rolloutIsWeights : Fin w → K

structure PolicyConfig (K : Type) where
  clipRatio : K
  clipRatioLow : Option K
  clipRatioHigh : Option K
  clipRatioC : K
  lossAggMode : String
  lossScaleFactor : Option K

structure PgMetrics (K : Type) where
  pgClipfrac : K
  ppoKl : K
  pgClipfracLower : K

/-- `torch.exp` and `torch.log`. -/
structure Functions (K : Type) where
  exp : K → K
  log : K → K

section Algorithm

variable {K : Type} [Field K] [LinearOrder K] {w : Nat}

namespace PolicyConfig

def cliprangeLow (config : PolicyConfig K) : K := config.clipRatioLow.getD config.clipRatio

def cliprangeHigh (config : PolicyConfig K) : K := config.clipRatioHigh.getD config.clipRatio

end PolicyConfig

/-- `torch.sign`. -/
def sgn (x : K) : K := if 0 < x then 1 else if x < 0 then -1 else 0

namespace PolicyRow

def mask (r : PolicyRow K w) (t : Fin w) : K := if r.responseMask t then 1 else 0

def maskSum (r : PolicyRow K w) : K := ∑ t, r.mask t

/-- The mean of `values` over the response tokens of the row. -/
def rowMean (r : PolicyRow K w) (values : Fin w → K) : K :=
  (∑ t, values t * r.mask t) / (r.maskSum + 1 / 10 ^ 8)

def negativeApproxKl (r : PolicyRow K w) (t : Fin w) : K := r.logProb t - r.oldLogProb t

end PolicyRow

/-- `masked_mean` over the rows. -/
def maskedMean (rows : List (PolicyRow K w)) (values : PolicyRow K w → Fin w → K) : K :=
  maskedSum (rows.flatMap fun r => List.ofFn fun t => (values r t, r.mask t)) /
    ((rows.map PolicyRow.maskSum).sum + 1 / 10 ^ 8)

variable (fns : Functions K) (config : PolicyConfig K) (hasWeights : Bool)

/-! ### `compute_policy_loss_geo_mean` -/

def negativeApproxKlClamp (r : PolicyRow K w) (t : Fin w) : K :=
  clamp (r.negativeApproxKl t) (-config.cliprangeLow) config.cliprangeHigh

def negativeApproxKlMin (r : PolicyRow K w) (t : Fin w) : K :=
  let sgnAdvantage := sgn (r.advantages t)
  sgnAdvantage * min (sgnAdvantage * r.negativeApproxKl t)
    (sgnAdvantage * negativeApproxKlClamp config r t)

/-- The weights of the row, by their geometric mean. -/
def seqIsWeights (r : PolicyRow K w) : K :=
  fns.exp (r.rowMean fun t => fns.log (r.rolloutIsWeights t + 1 / 10 ^ 10))

/-- `pg_losses`, one for each row. -/
def geoMeanLosses (r : PolicyRow K w) : K :=
  let ratio := fns.exp (r.rowMean (negativeApproxKlMin config r))
  let advantage := r.rowMean r.advantages
  let pgLosses := -advantage * ratio
  if hasWeights then pgLosses * seqIsWeights fns r else pgLosses

/-- `torch.mean` gives no number for no rows. -/
def mean (xs : List K) : Option K := tensorDiv xs.sum (xs.length : K)

/-- Neither `loss_agg_mode` nor `global_batch_info` is used. -/
def computePolicyLossGeoMean (_info : BatchInfo K) (rows : List (PolicyRow K w)) :
    Except PyErr (Option K × PgMetrics K) :=
  let clipped (r : PolicyRow K w) (t : Fin w) :=
    r.negativeApproxKl t ≠ negativeApproxKlClamp config r t
  .ok (mean (rows.map (geoMeanLosses fns config hasWeights)),
    { pgClipfrac := maskedMean rows fun r t =>
        if clipped r t ∧ 0 < r.advantages t then 1 else 0
      ppoKl := maskedMean rows fun r t => -r.negativeApproxKl t
      pgClipfracLower := maskedMean rows fun r t =>
        if clipped r t ∧ r.advantages t < 0 then 1 else 0 })

/-! ### `compute_policy_loss_vanilla` -/

/-- The difference of the log-probabilities, clamped for stability. -/
def clampedKl (r : PolicyRow K w) (t : Fin w) : K := clamp (r.negativeApproxKl t) (-20) 20

def pgLosses1 (r : PolicyRow K w) (t : Fin w) : K :=
  -r.advantages t * fns.exp (clampedKl r t)

def pgLosses2 (r : PolicyRow K w) (t : Fin w) : K :=
  -r.advantages t * clamp (fns.exp (clampedKl r t)) (1 - config.cliprangeLow)
    (1 + config.cliprangeHigh)

def pgLosses3 (r : PolicyRow K w) (t : Fin w) : K := -r.advantages t * config.clipRatioC

def clipPgLosses1 (r : PolicyRow K w) (t : Fin w) : K :=
  max (pgLosses1 fns r t) (pgLosses2 fns config r t)

def vanillaLosses (r : PolicyRow K w) (t : Fin w) : K :=
  let pgLosses :=
    if r.advantages t < 0 then min (pgLosses3 config r t) (clipPgLosses1 fns config r t)
    else clipPgLosses1 fns config r t
  if hasWeights then pgLosses * r.rolloutIsWeights t else pgLosses

/-- The row for `agg_loss`. -/
def vanillaRow (r : PolicyRow K w) : LossRow K w where
  loss := vanillaLosses fns config hasWeights r
  mask := r.mask

def computePolicyLossVanilla (info : BatchInfo K) (rows : List (PolicyRow K w)) :
    Except PyErr (Option K × PgMetrics K) := do
  pyAssert (config.clipRatioC > 1)
    "The lower bound of the clip_ratio_c for dual-clip PPO should be greater than 1.0"
  let pgLoss ← aggLoss (rows.map (vanillaRow fns config hasWeights)) config.lossAggMode info.dpSize
    info.batchNumTokens info.globalBatchSize info.lossScaleFactor
  return (pgLoss,
    { pgClipfrac := maskedMean rows fun r t =>
        if pgLosses1 fns r t < pgLosses2 fns config r t then 1 else 0
      ppoKl := maskedMean rows fun r t => -clampedKl r t
      pgClipfracLower := maskedMean rows fun r t =>
        if pgLosses3 config r t < clipPgLosses1 fns config r t ∧ r.advantages t < 0 then 1 else 0 })

/-! ### Accumulating -/

/-- `global_batch_info` as `ppo_loss` sets it, with the tokens that `forward_backward_batch` counts
over all ranks. -/
def globalBatchInfo (globalBatchSize : K) (ranks : List (List (List (PolicyRow K w)))) :
    BatchInfo K where
  dpSize := ranks.length
  batchNumTokens := some (ranks.flatten.flatten.map PolicyRow.maskSum).sum
  globalBatchSize := some globalBatchSize
  lossScaleFactor := config.lossScaleFactor

/-- `forward_backward_batch` on all ranks: every rank adds up the losses of its micro-batches, and
the gradients of the ranks are averaged. -/
def accumulate (policyLossFn : BatchInfo K → List (PolicyRow K w) →
      Except PyErr (Option K × PgMetrics K)) (globalBatchSize : K)
    (ranks : List (List (List (PolicyRow K w)))) : Except PyErr (Option K) := do
  let info := globalBatchInfo config globalBatchSize ranks
  let losses ← ranks.flatten.mapM fun part => (policyLossFn info part).map Prod.fst
  return (numSum losses).bind (tensorDiv · (ranks.length : K))

end Algorithm

/-! ## Losses through `agg_loss` -/

section Vanilla

variable {K : Type} [Field K] [LinearOrder K] {w : Nat} (fns : Functions K)
  (config : PolicyConfig K) (hasWeights : Bool)

theorem map_fst_vanilla (hclip : config.clipRatioC > 1) (info : BatchInfo K)
    (rows : List (PolicyRow K w)) :
    (computePolicyLossVanilla fns config hasWeights info rows).map Prod.fst =
      aggLoss (rows.map (vanillaRow fns config hasWeights)) config.lossAggMode info.dpSize
        info.batchNumTokens info.globalBatchSize info.lossScaleFactor := by
  unfold computePolicyLossVanilla
  rw [decide_eq_true hclip]
  cases aggLoss (rows.map (vanillaRow fns config hasWeights)) config.lossAggMode info.dpSize
    info.batchNumTokens info.globalBatchSize info.lossScaleFactor <;> rfl

theorem accumulate_vanilla_eq (hclip : config.clipRatioC > 1) (globalBatchSize : K)
    (ranks : List (List (List (PolicyRow K w)))) :
    accumulate config (computePolicyLossVanilla fns config hasWeights) globalBatchSize ranks =
      accumulateLoss (ranks.map (List.map (List.map (vanillaRow fns config hasWeights))))
        config.lossAggMode (some (ranks.flatten.flatten.map PolicyRow.maskSum).sum)
        (some globalBatchSize) config.lossScaleFactor := by
  unfold accumulate accumulateLoss
  rw [length_map, ← map_flatten, mapM_map]
  simp only [map_fst_vanilla fns config hasWeights hclip]
  rfl

theorem accumulate_vanilla [IsStrictOrderedRing K] (globalBatchSize : K)
    {ranks : List (List (List (PolicyRow K w)))} {batch : List (PolicyRow K w)}
    (hparts : ranks.flatten ≠ []) (hperm : ranks.flatten.flatten.Perm batch) :
    accumulate config (computePolicyLossVanilla fns config hasWeights) globalBatchSize ranks =
      accumulate config (computePolicyLossVanilla fns config hasWeights) globalBatchSize
        [[batch]] := by
  by_cases hclip : config.clipRatioC > 1
  · have htokens : (ranks.flatten.flatten.map PolicyRow.maskSum).sum =
        ([[batch]].flatten.flatten.map PolicyRow.maskSum).sum := by
      simp only [flatten_cons, flatten_nil, append_nil]
      exact (hperm.map PolicyRow.maskSum).sum_eq
    have hmapped : (ranks.map (List.map (List.map (vanillaRow fns config hasWeights)))).flatten =
        ranks.flatten.map (List.map (vanillaRow fns config hasWeights)) := map_flatten.symm
    rw [accumulate_vanilla_eq _ _ _ hclip, accumulate_vanilla_eq _ _ _ hclip, htokens,
      accumulateLoss_eq _ (batch.map (vanillaRow fns config hasWeights)),
      accumulateLoss_eq _ (batch.map (vanillaRow fns config hasWeights))]
    · simp
    · simp
    · rwa [hmapped, Ne, map_eq_nil_iff]
    · grind
  · -- the assertion fails on the first micro-batch
    have herror : ∀ info (rows : List (PolicyRow K w)),
        (computePolicyLossVanilla fns config hasWeights info rows).map Prod.fst =
          .error (.assertionError
            "The lower bound of the clip_ratio_c for dual-clip PPO should be greater than 1.0") := by
      intro info rows
      unfold computePolicyLossVanilla
      rw [decide_eq_false hclip]
      rfl
    unfold accumulate
    cases hlist : ranks.flatten with
    | nil => exact absurd hlist hparts
    | cons part parts =>
      simp only [herror]
      rfl

end Vanilla

/-! ## The geometric mean -/

section GeoMean

variable {K : Type} [Field K] [LinearOrder K] {w : Nat} (fns : Functions K)
  (config : PolicyConfig K) (hasWeights : Bool) (globalBatchSize : K)

variable {batch : List (PolicyRow K w)} {ranks : List (List (List (PolicyRow K w)))}

omit [LinearOrder K] in
theorem sum_map_div {α : Type} (xs : List α) (f : α → K) (c : K) :
    (xs.map fun x => f x / c).sum = (xs.map f).sum / c := by
  simp only [div_eq_mul_inv]
  exact sum_map_mul_right xs f c⁻¹

/-- The sum of the row losses of a micro-batch. -/
def lossSum (part : List (PolicyRow K w)) : K := (part.map (geoMeanLosses fns config hasWeights)).sum

theorem lossSum_flatten (parts : List (List (PolicyRow K w))) :
    lossSum fns config hasWeights parts.flatten =
      (parts.map (lossSum fns config hasWeights)).sum := by
  unfold lossSum
  rw [map_flatten, sum_flatten, map_map]
  rfl

theorem lossSum_perm {rows : List (PolicyRow K w)} (h : rows.Perm batch) :
    lossSum fns config hasWeights rows = lossSum fns config hasWeights batch :=
  (h.map _).sum_eq

theorem accumulate_geoMean (ranks : List (List (List (PolicyRow K w)))) :
    accumulate config (computePolicyLossGeoMean fns config hasWeights) globalBatchSize ranks =
      .ok ((numSum (ranks.flatten.map fun part =>
        tensorDiv (lossSum fns config hasWeights part) (part.length : K))).bind
          (tensorDiv · (ranks.length : K))) := by
  have hpart : ∀ info : BatchInfo K, ∀ part : List (PolicyRow K w),
      (computePolicyLossGeoMean fns config hasWeights info part).map Prod.fst =
        .ok (tensorDiv (lossSum fns config hasWeights part) (part.length : K)) := by
    intro info part
    unfold computePolicyLossGeoMean mean
    rw [length_map]
    rfl
  unfold accumulate
  dsimp only
  rw [mapM_eq_ok_map _ _ _ fun part _ => hpart _ part]
  rfl

theorem accumulate_geoMean_of_nil (hnil : [] ∈ ranks.flatten) :
    accumulate config (computePolicyLossGeoMean fns config hasWeights) globalBatchSize ranks =
      .ok none := by
  have hnone : ∀ xs : List (Option K), none ∈ xs → numSum xs = none := by
    intro xs hxs
    induction xs with
    | nil => cases hxs
    | cons x xs ih =>
      show Option.map₂ (· + ·) x (numSum xs) = none
      rcases mem_cons.1 hxs with rfl | hxs
      · rfl
      · rw [ih hxs, Option.map₂_none_right]
  have hmem : none ∈ ranks.flatten.map fun part =>
      tensorDiv (lossSum fns config hasWeights part) (part.length : K) := by
    refine mem_map.2 ⟨[], hnil, ?_⟩
    unfold tensorDiv
    rw [length_nil, Nat.cast_zero, if_pos rfl]
  rw [accumulate_geoMean, hnone _ hmem, Option.bind_none]

variable [CharZero K]

theorem accumulate_geoMean_of_ne_nil
    (hparts : ranks.flatten ≠ []) (hne : ∀ part ∈ ranks.flatten, part ≠ []) :
    accumulate config (computePolicyLossGeoMean fns config hasWeights) globalBatchSize ranks =
      .ok (some ((ranks.flatten.map fun part =>
        lossSum fns config hasWeights part / (part.length : K)).sum / (ranks.length : K))) := by
  have hranks : (ranks.length : K) ≠ 0 := by
    rw [Nat.cast_ne_zero, ← length_pos_iff.symm.trans Nat.pos_iff_ne_zero]
    rintro rfl
    exact hparts rfl
  have hmeans : (ranks.flatten.map fun part =>
      tensorDiv (lossSum fns config hasWeights part) (part.length : K)) =
      ranks.flatten.map fun part =>
        some (lossSum fns config hasWeights part / (part.length : K)) := by
    refine map_congr_left fun part hpart => ?_
    have hlength : (part.length : K) ≠ 0 :=
      Nat.cast_ne_zero.2 (Nat.ne_of_gt (length_pos_iff.2 (hne part hpart)))
    unfold tensorDiv
    rw [if_neg hlength]
  rw [accumulate_geoMean, hmeans, numSum_map_some, Option.bind_some, tensorDiv, if_neg hranks]

theorem accumulate_geoMean_whole (hbatch : batch ≠ []) :
    accumulate config (computePolicyLossGeoMean fns config hasWeights) globalBatchSize [[batch]] =
      .ok (some (lossSum fns config hasWeights batch / (batch.length : K))) := by
  rw [accumulate_geoMean_of_ne_nil fns config hasWeights globalBatchSize (by simp)
    (by simpa using hbatch)]
  simp

theorem accumulate_geoMean_of_even (hparts : ranks.flatten ≠ [])
    (hperm : ranks.flatten.flatten.Perm batch)
    (heven : ∀ part ∈ ranks.flatten, part.length * ranks.length = batch.length) :
    accumulate config (computePolicyLossGeoMean fns config hasWeights) globalBatchSize ranks =
      accumulate config (computePolicyLossGeoMean fns config hasWeights) globalBatchSize
        [[batch]] := by
  by_cases hbatch : batch = []
  · -- no rows at all
    subst hbatch
    have hnil : [] ∈ ranks.flatten := by
      obtain ⟨part, hpart⟩ := exists_mem_of_ne_nil _ hparts
      have hempty : part = [] := flatten_eq_nil_iff.1 hperm.eq_nil part hpart
      rwa [hempty] at hpart
    rw [accumulate_geoMean_of_nil fns config hasWeights globalBatchSize hnil,
      accumulate_geoMean_of_nil fns config hasWeights globalBatchSize (by simp)]
  · have hne : ∀ part ∈ ranks.flatten, part ≠ [] := by grind
    have hterm : ∀ part ∈ ranks.flatten,
        lossSum fns config hasWeights part / (part.length : K) / (ranks.length : K) =
          lossSum fns config hasWeights part / (batch.length : K) := fun part hpart => by
      rw [div_div, ← heven part hpart, Nat.cast_mul]
    rw [accumulate_geoMean_of_ne_nil fns config hasWeights globalBatchSize hparts hne,
      accumulate_geoMean_whole fns config hasWeights globalBatchSize hbatch]
    refine congrArg (fun x => Except.ok (some x)) ?_
    calc (ranks.flatten.map fun part =>
          lossSum fns config hasWeights part / (part.length : K)).sum / (ranks.length : K)
        = (ranks.flatten.map fun part =>
            lossSum fns config hasWeights part / (batch.length : K)).sum := by
          rw [← sum_map_div, map_congr_left hterm]
      _ = lossSum fns config hasWeights batch / (batch.length : K) := by
          rw [sum_map_div, ← lossSum_flatten, lossSum_perm fns config hasWeights hperm]

end GeoMean

/-! ### Splits that are not even -/

theorem length_of_sizes {α : Type} {ranks : List (List (List α))} {sizes : List (List Nat)}
    (h : ranks.map (List.map length) = sizes) :
    ranks.length = sizes.length ∧ ranks.flatten.map length = sizes.flatten ∧
      ranks.flatten.flatten.length = sizes.flatten.sum := by
  subst h
  refine ⟨(length_map _).symm, map_flatten, ?_⟩
  rw [length_flatten, map_flatten]

section Uneven

variable {K : Type} [Field K] [LinearOrder K] [IsStrictOrderedRing K] (fns : Functions K)
  (config : PolicyConfig K) (hasWeights : Bool) (globalBatchSize : K)

/-- A row of one token, under the same policy. -/
def unitRow (advantage : K) : PolicyRow K 1 where
  oldLogProb := fun _ => 0
  logProb := fun _ => 0
  advantages := fun _ => advantage
  responseMask := fun _ => true
  rolloutIsWeights := fun _ => 1

omit [IsStrictOrderedRing K] in
theorem geoMeanLosses_zero : geoMeanLosses fns config hasWeights (unitRow (0 : K)) = 0 := by
  have hmean : (unitRow (0 : K)).rowMean (unitRow (0 : K)).advantages = 0 := by
    simp [PolicyRow.rowMean, unitRow]
  unfold geoMeanLosses
  dsimp only
  rw [hmean, neg_zero, zero_mul, zero_mul, ite_self]

theorem geoMeanLosses_one (hexp : ∀ x, fns.exp x ≠ 0) :
    geoMeanLosses fns config hasWeights (unitRow (1 : K)) ≠ 0 := by
  have hmean : (unitRow (1 : K)).rowMean (unitRow (1 : K)).advantages ≠ 0 := by
    have hpos : (0 : K) < 1 / (1 + 1 / 10 ^ 8) := by positivity
    simpa [PolicyRow.rowMean, PolicyRow.maskSum, PolicyRow.mask, unitRow] using hpos.ne'
  have hloss := mul_ne_zero (neg_ne_zero.2 hmean)
    (hexp ((unitRow (1 : K)).rowMean (negativeApproxKlMin config (unitRow 1))))
  unfold geoMeanLosses
  split
  · exact mul_ne_zero hloss (hexp _)
  · exact hloss

omit [IsStrictOrderedRing K] in
theorem lossSum_replicate (n : Nat) :
    lossSum fns config hasWeights (replicate n (unitRow (0 : K))) = 0 := by
  unfold lossSum
  rw [map_replicate, geoMeanLosses_zero, sum_replicate, nsmul_zero]

/-- Micro-batches of the sizes, without any loss. -/
def zeroRanks (K : Type) [Field K] (sizes : List (List Nat)) : List (List (List (PolicyRow K 1))) :=
  sizes.map (List.map fun n => List.replicate n (unitRow 0))

omit [LinearOrder K] [IsStrictOrderedRing K] in
theorem sum_zeros {g : List (PolicyRow K 1) → K}
    (hg : ∀ m, g (replicate m (unitRow 0)) = 0) (sizes : List Nat) :
    ((sizes.map fun m => replicate m (unitRow (0 : K))).map g).sum = 0 := by
  rw [map_map]
  refine sum_eq_zero fun x hx => ?_
  obtain ⟨m, -, rfl⟩ := mem_map.1 hx
  exact hg m

omit [LinearOrder K] [IsStrictOrderedRing K] in
theorem sum_zeroRanks {g : List (PolicyRow K 1) → K}
    (hg : ∀ m, g (replicate m (unitRow 0)) = 0) (sizes : List (List Nat)) :
    ((zeroRanks K sizes).flatten.map g).sum = 0 := by
  unfold zeroRanks
  rw [← map_flatten]
  exact sum_zeros hg sizes.flatten

theorem even_of_accumulate (hexp : ∀ x, fns.exp x ≠ 0) {sizes : List (List Nat)}
    (h : ∀ ranks : List (List (List (PolicyRow K 1))), ranks.map (List.map length) = sizes → accumulate config (computePolicyLossGeoMean fns config hasWeights) globalBatchSize ranks = accumulate config (computePolicyLossGeoMean fns config hasWeights) globalBatchSize [[ranks.flatten.flatten]])
    {n : Nat} (hn : n ∈ sizes.flatten) :
    n * sizes.length = sizes.flatten.sum := by
  by_cases hrows : sizes.flatten.sum = 0
  · have hzero : n = 0 := sum_eq_zero_iff.1 hrows n hn
    rw [hrows, hzero, Nat.zero_mul]
  have hbatch : ∀ ranks : List (List (List (PolicyRow K 1))),
      ranks.map (List.map length) = sizes → ranks.flatten.flatten ≠ [] := by
    intro ranks hranks hnil
    have hlength := (length_of_sizes hranks).2.2
    rw [hnil] at hlength
    exact hrows hlength.symm
  have hne : ∀ m ∈ sizes.flatten, m ≠ 0 := by
    rintro m hm rfl
    have hsizes : (zeroRanks K sizes).map (List.map length) = sizes := by
      simp [zeroRanks, Function.comp_def]
    have hnil : [] ∈ (zeroRanks K sizes).flatten := by grind
    have heq := h (zeroRanks K sizes) hsizes
    rw [accumulate_geoMean_of_nil fns config hasWeights globalBatchSize hnil,
      accumulate_geoMean_whole fns config hasWeights globalBatchSize (hbatch _ hsizes)] at heq
    cases heq
  -- the micro-batch of this size begins with the row
  obtain ⟨rank, hrank, hmem⟩ := mem_flatten.1 hn
  obtain ⟨ranks₁, ranks₂, hranks⟩ := append_of_mem hrank
  obtain ⟨parts₁, parts₂, hparts⟩ := append_of_mem hmem
  obtain ⟨k, rfl⟩ := Nat.exists_eq_succ_of_ne_zero (hne n hn)
  let big : List (PolicyRow K 1) := unitRow 1 :: replicate k (unitRow 0)
  let ranks := zeroRanks K ranks₁ ++
    (parts₁.map (fun m => replicate m (unitRow 0)) ++
      big :: parts₂.map fun m => replicate m (unitRow 0)) :: zeroRanks K ranks₂
  have hsizes : ranks.map (List.map length) = sizes := by
    rw [hranks, hparts]
    simp [ranks, big, zeroRanks, Function.comp_def]
  have hbig : lossSum fns config hasWeights big =
      geoMeanLosses fns config hasWeights (unitRow 1) := by
    have hrest := lossSum_replicate fns config hasWeights k
    unfold lossSum at hrest ⊢
    rw [map_cons, sum_cons, hrest, add_zero]
  have hsum : ∀ g : List (PolicyRow K 1) → K, (∀ m, g (replicate m (unitRow 0)) = 0) →
      (ranks.flatten.map g).sum = g big := by
    intro g hg
    simp only [ranks, flatten_append, flatten_cons, map_append, map_cons,
      sum_append, sum_cons, sum_zeroRanks hg, sum_zeros hg, zero_add, add_zero]
  have hpart : ∀ part ∈ ranks.flatten, part ≠ [] := by grind
  have hnonempty : ranks.flatten ≠ [] := fun hnil => by grind
  have heq := h ranks hsizes
  rw [accumulate_geoMean_of_ne_nil fns config hasWeights globalBatchSize hnonempty hpart,
    accumulate_geoMean_whole fns config hasWeights globalBatchSize (hbatch ranks hsizes),
    hsum _ fun m => by rw [lossSum_replicate, zero_div], lossSum_flatten,
    hsum _ (lossSum_replicate fns config hasWeights), hbig, (length_of_sizes hsizes).1,
    (length_of_sizes hsizes).2.2, div_div] at heq
  have hloss := geoMeanLosses_one fns config hasWeights hexp
  have hdiv := Option.some.inj (Except.ok.inj heq)
  rw [div_eq_mul_inv, div_eq_mul_inv] at hdiv
  have hlength : (big.length : K) * (sizes.length : K) = (sizes.flatten.sum : K) :=
    inv_injective (mul_left_cancel₀ hloss hdiv)
  rw [← Nat.cast_mul, Nat.cast_inj] at hlength
  rwa [length_cons, length_replicate] at hlength

end Uneven

/-! ## When the split does not matter -/

/-- The geometric-mean loss of every batch is that of the whole batch exactly where every micro-batch
has as many rows as the batch has for each rank; a loss that goes through `agg_loss` does not
depend on the split. -/
theorem geoMean_split_iff (config : PolicyConfig ℝ) (hasWeights : Bool) (globalBatchSize : ℝ)
    (sizes : List (List Nat)) (hparts : sizes.flatten ≠ []) :
    ((∀ (w : Nat) (ranks : List (List (List (PolicyRow ℝ w)))) (batch : List (PolicyRow ℝ w)),
        ranks.map (List.map List.length) = sizes → ranks.flatten.flatten.Perm batch →
        accumulate config (computePolicyLossGeoMean ⟨Real.exp, Real.log⟩ config hasWeights)
            globalBatchSize ranks =
          accumulate config (computePolicyLossGeoMean ⟨Real.exp, Real.log⟩ config hasWeights)
            globalBatchSize [[batch]]) ↔
      ∀ n ∈ sizes.flatten, n * sizes.length = sizes.flatten.sum) ∧
    ∀ (w : Nat) (ranks : List (List (List (PolicyRow ℝ w)))) (batch : List (PolicyRow ℝ w)),
      ranks.map (List.map List.length) = sizes → ranks.flatten.flatten.Perm batch →
      accumulate config (computePolicyLossVanilla ⟨Real.exp, Real.log⟩ config hasWeights)
          globalBatchSize ranks =
        accumulate config (computePolicyLossVanilla ⟨Real.exp, Real.log⟩ config hasWeights)
          globalBatchSize [[batch]] := by
  have hnonempty : ∀ {w : Nat} {ranks : List (List (List (PolicyRow ℝ w)))},
      ranks.map (List.map List.length) = sizes → ranks.flatten ≠ [] := by grind
  refine ⟨⟨fun h n hn => ?_, fun heven w ranks batch hsizes hperm => ?_⟩,
    fun w ranks batch hsizes hperm =>
      accumulate_vanilla _ config hasWeights globalBatchSize (hnonempty hsizes) hperm⟩
  · exact even_of_accumulate _ config hasWeights globalBatchSize (fun x => (Real.exp_pos x).ne')
      (fun ranks hsizes => h 1 ranks _ hsizes (List.Perm.refl _)) hn
  · refine accumulate_geoMean_of_even _ config hasWeights globalBatchSize (hnonempty hsizes) hperm
      fun part hpart => ?_
    obtain ⟨hranks, hlengths, hrows⟩ := length_of_sizes hsizes
    rw [hranks, ← hperm.length_eq, hrows]
    refine heven _ ?_
    rw [← hlengths]
    exact mem_map_of_mem hpart

/-- The defaults of `ActorConfig`. -/
def defaultConfig (K : Type) [Field K] : PolicyConfig K where
  clipRatio := 2 / 10
  clipRatioLow := some (2 / 10)
  clipRatioHigh := some (2 / 10)
  clipRatioC := 3
  lossAggMode := "token-mean"
  lossScaleFactor := none

theorem geoMean_split_iff_two_ranks : accumulate (defaultConfig ℝ)
        (computePolicyLossGeoMean ⟨Real.exp, Real.log⟩ (defaultConfig ℝ) false) 2
        [[[unitRow 1]], [[unitRow 0]]] =
      accumulate (defaultConfig ℝ)
        (computePolicyLossGeoMean ⟨Real.exp, Real.log⟩ (defaultConfig ℝ) false) 2
        [[[unitRow 0, unitRow 1]]] :=
  (geoMean_split_iff (defaultConfig ℝ) false 2 [[1], [1]] (by decide)).1.2 (by decide) 1 _ _ rfl
    (List.Perm.swap _ _ [])

/-- One rank, with the two rows in two micro-batches. -/
theorem geoMean_split_two_micro_batches : accumulate (defaultConfig ℝ)
        (computePolicyLossGeoMean ⟨Real.exp, Real.log⟩ (defaultConfig ℝ) false) 2
        [[[unitRow 1], [unitRow 0]]] ≠
      accumulate (defaultConfig ℝ)
        (computePolicyLossGeoMean ⟨Real.exp, Real.log⟩ (defaultConfig ℝ) false) 2
        [[[unitRow 1, unitRow 0]]] := by
  rw [accumulate_geoMean_of_ne_nil _ _ _ _ (by simp) (by simp),
    accumulate_geoMean_whole _ _ _ _ (by simp)]
  intro h
  have hloss := geoMeanLosses_one ⟨Real.exp, Real.log⟩ (defaultConfig ℝ) false
    fun x => (Real.exp_pos x).ne'
  have hsum := Option.some.inj (Except.ok.inj h)
  simp only [lossSum, flatten_cons, flatten_nil, append_nil, map_cons,
    map_nil, sum_cons, sum_nil, geoMeanLosses_zero, length_cons,
    length_nil] at hsum
  push_cast at hsum
  exact hloss (by linarith)

end Verl.PolicyLoss
