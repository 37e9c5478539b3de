import Verl.Lib.Dict
import Verl.Trainer.AggLoss

/-!
# The distillation loss (`verl/trainer/distillation/losses.py`)

`distillation_ppo_loss` adds the distillation loss of a micro-batch to its policy loss.  The counts
of the whole batch come in with the micro-batch, and go through `global_batch_info` of the
configuration, which lives as long as the worker: `ppo_loss` writes it, and the distillation loss
is computed before.

    the distillation loss after the calls h is normalised as the micro-batch says
      ↔ global_batch_info as h left it gives the same factor       (ownLoss_iff)
-/

namespace Verl.Distillation

open Option

/-! ## Algorithm -/

/-- `global_batch_info` with the keys that `ppo_loss` writes. -/
structure BatchInfo (K : Type) where
  dpSize : Nat
  batchNumTokens : Option K
  globalBatchSize : Option K
  lossScaleFactor : Option K

/-- A micro-batch with the output of the model on it, padded. -/
structure MicroBatch (K : Type) where
  bsz : Nat
  respLen : Nat
  dpSize : Nat
  batchNumTokens : Option K
  globalBatchSize : Option K
  responseMask : Fin bsz → Fin respLen → K
  oldLogProbs : Fin bsz → Fin respLen → K
  advantages : Fin bsz → Fin respLen → K
  logProbs : Fin bsz → Fin respLen → K
  rolloutIsWeights : Option (Fin bsz → Fin respLen → K)
  refLogProb : Option (Fin bsz → Fin respLen → K)
  entropy : Option (Fin bsz → Fin respLen → K)

inductive AggregationType
  | mean
  | sum
  | min
  | max
  deriving DecidableEq, Repr

/-- An entry of a metrics dictionary: a `Metric`, or a plain number. -/
inductive MetricValue (K : Type)
  | metric (aggregation : AggregationType) (value : Option K)
  | number (value : Option K)

structure ActorConfig (K : Type) where
  lossAggMode : String
  lossScaleFactor : Option K
  entropyCoeff : K
  useKlLoss : Bool
  klLossCoef : K

structure DistillationLossConfig (K : Type) where
  useTaskRewards : Bool
  distillationLossCoef : K
  lossMaxClamp : Option K
  usePolicyGradient : Bool
  clipRatioLow : K
  clipRatioHigh : K

/-- The functions that the configuration names.  They read the tensors of the micro-batch; a policy
loss also reads `config.global_batch_info`. -/
structure LossFns (K : Type) where
  exp : K → K
  policyLossFn : Option (BatchInfo K) → MicroBatch K → Except PyErr (Option K × Dict (Option K))
  klPenalty : (d : MicroBatch K) → (Fin d.bsz → Fin d.respLen → K) →
    Except PyErr (Fin d.bsz → Fin d.respLen → K)
  distillationLossFn : (d : MicroBatch K) →
    Except PyErr ((Fin d.bsz → Fin d.respLen → K) × Dict (MetricValue K))

/-- `global_batch_info` of the actor's configuration and of the distillation loss. -/
structure State (K : Type) where
  globalBatchInfo : Option (BatchInfo K)
  lossGlobalBatchInfo : Option (BatchInfo K)

def update {β : Type} (d : Dict β) (other : Dict β) : Dict β :=
  other.items.foldl (fun acc item => acc.insert item.1 item.2) d

section Algorithm

variable {K : Type} [Field K] [LinearOrder K]

/-- `torch.clamp`. -/
def clamp (x lo hi : K) : K := min (max x lo) hi

def lossRows {n w : Nat} (lossMat lossMask : Fin n → Fin w → K) : List (LossRow K w) :=
  List.ofFn fun i => { loss := lossMat i, mask := lossMask i }

/-- `agg_loss(..., **global_batch_info)`; nothing is passed as long as the dictionary is empty. -/
def aggLossWith {w : Nat} (info : Option (BatchInfo K)) (rows : List (LossRow K w))
    (lossAggMode : String) : Except PyErr (Option K) :=
  match info with
  | none => aggLoss rows lossAggMode 1 none none none
  | some i =>
    aggLoss rows lossAggMode i.dpSize i.batchNumTokens i.globalBatchSize i.lossScaleFactor

def maskedMean {n w : Nat} (values mask : Fin n → Fin w → K) : Option K :=
  tensorDiv (maskedSum ((List.ofFn fun i => List.ofFn fun t => (values i t, mask i t)).flatten))
    (((List.ofFn fun i => List.ofFn fun t => mask i t).flatten).sum + 1 / 10 ^ 8)

variable (fns : LossFns K) (config : ActorConfig K) (lossConfig : DistillationLossConfig K)

/-- `clip_ratio_c`, which the distillation loss does not configure. -/
def clipRatioC : K := 3

def negativeApproxKl (logProb oldLogProb : K) : K := clamp (logProb - oldLogProb) (-20) 20

def pgLosses1 (oldLogProb logProb advantage : K) : K :=
  -advantage * fns.exp (negativeApproxKl logProb oldLogProb)

def pgLosses2 (oldLogProb logProb advantage : K) : K :=
  -advantage * clamp (fns.exp (negativeApproxKl logProb oldLogProb)) (1 - lossConfig.clipRatioLow)
    (1 + lossConfig.clipRatioHigh)

def clipPgLosses1 (oldLogProb logProb advantage : K) : K :=
  max (pgLosses1 fns oldLogProb logProb advantage)
    (pgLosses2 fns lossConfig oldLogProb logProb advantage)

def pgLosses (oldLogProb logProb advantage : K) : K :=
  if advantage < 0 then
    min (-advantage * clipRatioC) (clipPgLosses1 fns lossConfig oldLogProb logProb advantage)
  else clipPgLosses1 fns lossConfig oldLogProb logProb advantage

/-- The loss matrix of `compute_policy_loss_vanilla`, the one policy loss that the distillation loss
may be configured with. -/
def vanillaLosses (d : MicroBatch K) (advantages : Fin d.bsz → Fin d.respLen → K) :
    Fin d.bsz → Fin d.respLen → K := fun i t =>
  let loss := pgLosses fns lossConfig (d.oldLogProbs i t) (d.logProbs i t) (advantages i t)
  match d.rolloutIsWeights with
  | none => loss
  | some weights => loss * weights i t

def vanillaMetrics (d : MicroBatch K) (advantages : Fin d.bsz → Fin d.respLen → K) :
    Dict (Option K) :=
  let entry (f : K → K → K → K) : Fin d.bsz → Fin d.respLen → K := fun i t =>
    f (d.oldLogProbs i t) (d.logProbs i t) (advantages i t)
  Dict.ofItems [
    ("actor/pg_clipfrac", maskedMean (entry fun old new adv =>
      if pgLosses1 fns old new adv < pgLosses2 fns lossConfig old new adv then 1 else 0)
      d.responseMask),
    ("actor/ppo_kl", maskedMean (entry fun old new _ => -negativeApproxKl new old) d.responseMask),
    ("actor/pg_clipfrac_lower", maskedMean (entry fun old new adv =>
      if adv < 0 ∧ -adv * clipRatioC < clipPgLosses1 fns lossConfig old new adv then 1 else 0)
      d.responseMask)]

/-- The metrics of the policy loss under the names of the distillation. -/
def pgMetrics (d : MicroBatch K) (advantages : Fin d.bsz → Fin d.respLen → K) :
    Dict (MetricValue K) :=
  Dict.ofItems ((vanillaMetrics fns lossConfig d advantages).items.map fun item =>
    ("distillation/" ++ (item.1.drop "actor/".length).toString, MetricValue.number item.2))

/-- The entries of `values` at the response tokens. -/
def responseEntries (d : MicroBatch K) (values : Fin d.bsz → Fin d.respLen → K) : List K :=
  ((List.ofFn fun i => List.ofFn fun t => (values i t, d.responseMask i t)).flatten.filter
    (·.2 ≠ 0)).map Prod.fst

/-- `compute_distillation_loss_range`; `min` and `max` of no entries raise. -/
def computeDistillationLossRange (d : MicroBatch K) (losses : Fin d.bsz → Fin d.respLen → K) :
    Except PyErr (Dict (MetricValue K)) :=
  match responseEntries d losses with
  | [] => .error (.runtimeError "min(): Expected reduction dim to be specified for input.numel() == 0")
  | x :: xs => .ok (Dict.ofItems [
      ("distillation/loss_min", .metric .min (some (xs.foldl min x))),
      ("distillation/loss_max", .metric .max (some (xs.foldl max x)))])

/-- The token losses of the distillation, clamped, and their metrics. -/
def distillationLosses (d : MicroBatch K) :
    Except PyErr ((Fin d.bsz → Fin d.respLen → K) × Dict (MetricValue K)) := do
  let (losses, metrics) ← fns.distillationLossFn d
  let range ← computeDistillationLossRange d losses
  let clamped := match lossConfig.lossMaxClamp with
    | none => losses
    | some c => fun i t => clamp (losses i t) (-c) c
  return (clamped, update metrics range)

/-- `distillation_loss`, and what it leaves in the configurations. -/
def distillationLoss (s : State K) (d : MicroBatch K) :
    Except PyErr (Option K × Dict (MetricValue K)) × State K :=
  match distillationLosses fns lossConfig d with
  | .error e => (.error e, s)
  | .ok (losses, metrics) =>
    if lossConfig.usePolicyGradient then
      let s := { s with lossGlobalBatchInfo := s.globalBatchInfo.or s.lossGlobalBatchInfo }
      let advantages := fun i t => -losses i t
      (do
        let loss ← aggLossWith s.lossGlobalBatchInfo
          (lossRows (vanillaLosses fns lossConfig d advantages) d.responseMask) config.lossAggMode
        return (loss, update metrics (pgMetrics fns lossConfig d advantages)), s)
    else
      (do
        let loss ← aggLossWith s.globalBatchInfo (lossRows losses d.responseMask) config.lossAggMode
        return (loss, metrics), s)

/-- The counts that come in with a micro-batch. -/
def MicroBatch.info (config : ActorConfig K) (d : MicroBatch K) : BatchInfo K where
  dpSize := d.dpSize
  batchNumTokens := d.batchNumTokens
  globalBatchSize := d.globalBatchSize
  lossScaleFactor := config.lossScaleFactor

def metricAggregation (d : MicroBatch K) : AggregationType :=
  if d.dpSize > 1 ∨ d.batchNumTokens.isSome ∨ d.globalBatchSize.isSome ∨
    config.lossScaleFactor.isSome then .sum else .mean

/-- A sum of two losses, none if one of them is no number. -/
def addLoss (a b : Option K) : Option K := Option.map₂ (· + ·) a b

/-- `ppo_loss`, and what it leaves in the configuration. -/
def ppoLoss (s : State K) (d : MicroBatch K) :
    Except PyErr (Option K × Dict (MetricValue K)) × State K :=
  let s := { s with globalBatchInfo := some (d.info config) }
  let responseMask := fun i t => if d.responseMask i t = 0 then (0 : K) else 1
  let aggregation := metricAggregation config d
  (do
    let (pgLoss, pgMetrics) ← fns.policyLossFn s.globalBatchInfo d
    let metrics := (pgMetrics.mapVals fun _ v => MetricValue.metric .mean v).insert
      "actor/pg_loss" (.metric aggregation pgLoss)
    let (policyLoss, metrics) ← match d.entropy with
      | none => Except.ok (pgLoss, metrics)
      | some entropy => do
        let entropyLoss ← aggLossWith s.globalBatchInfo (lossRows entropy responseMask)
          config.lossAggMode
        return (addLoss pgLoss (entropyLoss.map fun l => -(config.entropyCoeff * l)),
          metrics.insert "actor/entropy_loss" (.metric aggregation entropyLoss))
    if config.useKlLoss then
      match d.refLogProb with
      | none => throw (.keyError "ref_log_prob")
      | some refLogProb =>
        let kld ← fns.klPenalty d refLogProb
        let klLoss ← aggLossWith s.globalBatchInfo (lossRows kld responseMask) config.lossAggMode
        return (addLoss policyLoss (klLoss.map (· * config.klLossCoef)),
          (metrics.insert "kl_loss" (.metric aggregation klLoss)).insert "kl_coef"
            (.number (some config.klLossCoef)))
    else return (policyLoss, metrics), s)

/-- `distillation_ppo_loss` as the final policy loss. -/
def distillationPpoLoss (s : State K) (d : MicroBatch K) :
    Except PyErr (Option K × Dict (MetricValue K)) × State K :=
  match distillationLoss fns config lossConfig s d with
  | (.error e, s) => (.error e, s)
  | (.ok (distillLoss, distillMetrics), s) =>
    match ppoLoss fns config s d with
    | (.error e, s) => (.error e, s)
    | (.ok (policyLoss, policyMetrics), s) =>
      let policyLoss := if lossConfig.useTaskRewards then policyLoss else some 0
      let coef := if lossConfig.useTaskRewards then lossConfig.distillationLossCoef else 1
      (.ok (addLoss policyLoss (distillLoss.map (· * coef)),
        (update policyMetrics distillMetrics).insert "distillation/loss"
          (.metric .sum distillLoss)), s)

end Algorithm

/-! ## The factor of an aggregation -/

section Factor

variable {K : Type} [Field K] [LinearOrder K] {w : Nat}

/-- What `agg_loss` multiplies the masked sum with; none if it divides by zero. -/
def lossFactor (mode : LossAggMode) (info : Option (BatchInfo K)) (rows : List (LossRow K w)) :
    Except PyErr (Option K) :=
  let i := info.getD ⟨1, none, none, none⟩
  let localSeqs := (rows.map LossRow.seqMask).sum
  let quotient (n : K) : Option K := if n = 0 then none else some (i.dpSize / n)
  match mode with
  | .tokenMean =>
    (countOr i.batchNumTokens i.dpSize "(global) batch_num_tokens is required when dp_size > 1"
      (rows.map LossRow.maskSum).sum).map quotient
  | .seqMeanTokenSum | .seqMeanTokenMean =>
    (countOr i.globalBatchSize i.dpSize "global_batch_size is required when dp_size > 1"
      localSeqs).map quotient
  | .seqMeanTokenSumNorm =>
    (countOr i.globalBatchSize i.dpSize "global_batch_size is required when dp_size > 1"
      localSeqs).map fun n => (quotient n).bind fun q => tensorDiv q (i.lossScaleFactor.getD w)

theorem map_tensorDiv (x n : K) (dpSize : Nat) : (tensorDiv x n).map (· * (dpSize : K)) =
      (if n = 0 then none else some ((dpSize : K) / n)).map (x * ·) := by
  unfold tensorDiv
  by_cases hn : n = 0
  · grind
  · grind

theorem tensorDiv_mul (x a b : K) : tensorDiv (x * a) b = (tensorDiv a b).map (x * ·) := by
  unfold tensorDiv
  by_cases hb : b = 0
  · grind
  · rw [if_neg hb, if_neg hb, mul_div_assoc]
    rfl

section

variable {lossAggMode : String} {mode : LossAggMode}
  (hmode : LossAggMode.ofString lossAggMode = .ok mode)
include hmode

theorem aggLossWith_eq (info : Option (BatchInfo K)) (rows : List (LossRow K w)) :
    aggLossWith info rows lossAggMode
      = (lossFactor mode info rows).map (Option.map ((rows.map (rowTerm mode)).sum * ·)) := by
  have hinfo : aggLossWith info rows lossAggMode =
      aggLossWith (some (info.getD ⟨1, none, none, none⟩)) rows lossAggMode := by
    cases info with
    | none => rfl
    | some i => rfl
  rw [hinfo]
  unfold aggLossWith aggLoss lossFactor
  generalize info.getD ⟨1, none, none, none⟩ = i
  dsimp only
  rw [hmode, ok_bind]
  cases mode with
  | tokenMean =>
    cases countOr i.batchNumTokens i.dpSize "(global) batch_num_tokens is required when dp_size > 1"
        (rows.map LossRow.maskSum).sum with
    | error e => rfl
    | ok n =>
      rw [ok_bind, maskedSum_flatMap, map_tensorDiv]
      rfl
  | seqMeanTokenSum | seqMeanTokenMean =>
    dsimp only
    cases countOr i.globalBatchSize i.dpSize "global_batch_size is required when dp_size > 1"
        (rows.map LossRow.seqMask).sum with
    | error e => rfl
    | ok n =>
      rw [ok_bind, map_tensorDiv]
      unfold maskedSum
      rw [List.map_map]
      rfl
  | seqMeanTokenSumNorm =>
    dsimp only
    cases countOr i.globalBatchSize i.dpSize "global_batch_size is required when dp_size > 1"
        (rows.map LossRow.seqMask).sum with
    | error e => rfl
    | ok n =>
      rw [ok_bind, map_tensorDiv]
      unfold maskedSum
      rw [List.map_map]
      show Except.ok (((if n = 0 then none else some ((i.dpSize : K) / n)).map _).bind fun l =>
          tensorDiv l (i.lossScaleFactor.getD (w : K)))
        = Except.ok (((if n = 0 then none else some ((i.dpSize : K) / n)).bind fun q =>
          tensorDiv q (i.lossScaleFactor.getD (w : K))).map _)
      by_cases hn : n = 0
      · rw [if_pos hn]
        rfl
      · rw [if_neg hn, map_some, bind_some, tensorDiv_mul]
        rfl

theorem aggLossWith_eq_iff (info info' : Option (BatchInfo K)) (rows : List (LossRow K w)) :
    aggLossWith info rows lossAggMode = aggLossWith info' rows lossAggMode ↔
      lossFactor mode info rows = lossFactor mode info' rows ∨
        ((rows.map (rowTerm mode)).sum = 0 ∧ ∃ a b, lossFactor mode info rows = .ok (some a) ∧
          lossFactor mode info' rows = .ok (some b)) := by
  rw [aggLossWith_eq hmode, aggLossWith_eq hmode]
  generalize lossFactor mode info rows = p
  generalize lossFactor mode info' rows = q
  constructor
  · intro h
    cases p with
    | error e =>
      cases q with
      | error e' => exact Or.inl (congrArg Except.error (Except.error.inj h))
      | ok b => cases h
    | ok a =>
      cases q with
      | error e' => cases h
      | ok b =>
        have hval := Except.ok.inj h
        cases a with
        | none =>
          cases b with
          | none => exact Or.inl rfl
          | some b => cases hval
        | some a =>
          cases b with
          | none => cases hval
          | some b =>
            obtain hab | hx := mul_eq_mul_left_iff.1 (some.inj hval)
            · exact Or.inl (by rw [hab])
            · exact Or.inr ⟨hx, a, b, rfl, rfl⟩
  · rintro (hpq | ⟨hx, a, b, hp, hq⟩)
    · rw [hpq]
    · rw [hp, hq, hx]
      show Except.ok (some (0 * a)) = Except.ok (some (0 * b))
      rw [zero_mul, zero_mul]

end

end Factor

/-! ## Histories -/

section History

variable {K : Type} [Field K] [LinearOrder K]

/-- A call of a loss function on the worker. -/
inductive LossCall (K : Type)
  | ppoLoss (d : MicroBatch K)
  | distillationPpoLoss (d : MicroBatch K)

variable (fns : LossFns K) (config : ActorConfig K) (lossConfig : DistillationLossConfig K)

def LossCall.effect (s : State K) : LossCall K → State K
  | .ppoLoss d => (Distillation.ppoLoss fns config s d).2
  | .distillationPpoLoss d => (Distillation.distillationPpoLoss fns config lossConfig s d).2

/-- The configurations of the worker after some calls. -/
def after (calls : List (LossCall K)) : State K :=
  calls.foldl (LossCall.effect fns config lossConfig) ⟨none, none⟩

/-- The rows that the distillation loss aggregates. -/
def distillationRows (d : MicroBatch K) : Except PyErr (List (LossRow K d.respLen)) := do
  let (losses, _) ← distillationLosses fns lossConfig d
  return lossRows (if lossConfig.usePolicyGradient then
    vanillaLosses fns lossConfig d fun i t => -losses i t else losses) d.responseMask

/-- The distillation loss of a micro-batch for a `global_batch_info`. -/
def distillationTerm (info : Option (BatchInfo K)) (d : MicroBatch K) : Except PyErr (Option K) := do
  let rows ← distillationRows fns lossConfig d
  aggLossWith info rows config.lossAggMode

/-- The dictionary gives the factor of the micro-batch's own counts, or the masked sum is zero and
both factors are numbers. -/
def SameFactor (info : Option (BatchInfo K)) (d : MicroBatch K) : Prop :=
  ∀ rows mode, distillationRows fns lossConfig d = .ok rows →
    LossAggMode.ofString config.lossAggMode = .ok mode →
    lossFactor mode info rows = lossFactor mode (some (d.info config)) rows ∨
      ((rows.map (rowTerm mode)).sum = 0 ∧ ∃ a b, lossFactor mode info rows = .ok (some a) ∧
        lossFactor mode (some (d.info config)) rows = .ok (some b))

/-- The distillation loss has a dictionary only if the actor has one. -/
def Consistent (s : State K) : Prop := s.globalBatchInfo = none → s.lossGlobalBatchInfo = none

omit [Field K] [LinearOrder K] in
theorem Consistent.or_eq {s : State K} (h : Consistent s) :
    s.globalBatchInfo.or s.lossGlobalBatchInfo = s.globalBatchInfo := by
  cases hinfo : s.globalBatchInfo with
  | none =>
    rw [h hinfo]
    rfl
  | some i => rfl

theorem distillationLoss_eq (d : MicroBatch K) : ∃ metrics, ∀ s : State K, Consistent s →
      (distillationLoss fns config lossConfig s d).1
        = (distillationTerm fns config lossConfig s.globalBatchInfo d).map (·, metrics) := by
  unfold distillationLoss distillationTerm distillationRows
  cases distillationLosses fns lossConfig d with
  | error e => exact ⟨Dict.empty, fun _ _ => rfl⟩
  | ok r =>
    obtain ⟨losses, metrics⟩ := r
    cases hpg : lossConfig.usePolicyGradient with
    | true =>
      refine ⟨update metrics (pgMetrics fns lossConfig d fun i t => -losses i t), fun s hs => ?_⟩
      simp only [if_true, hs.or_eq, ok_bind, pure, Except.pure]
      cases aggLossWith s.globalBatchInfo (lossRows (vanillaLosses fns lossConfig d
          fun i t => -losses i t) d.responseMask) config.lossAggMode with
      | error e => rfl
      | ok loss => rfl
    | false =>
      refine ⟨metrics, fun s _ => ?_⟩
      cases aggLossWith s.globalBatchInfo (lossRows losses d.responseMask) config.lossAggMode with
      | error e => rfl
      | ok loss => rfl

variable (s : State K) (calls : List (LossCall K))

theorem globalBatchInfo_distillationLoss (d : MicroBatch K) :
    (distillationLoss fns config lossConfig s d).2.globalBatchInfo = s.globalBatchInfo := by
  unfold distillationLoss
  cases distillationLosses fns lossConfig d with
  | error e => rfl
  | ok r =>
    dsimp only
    split
    · rfl
    · rfl

theorem consistent_distillationLoss {s : State K} (h : Consistent s) (d : MicroBatch K) :
    Consistent (distillationLoss fns config lossConfig s d).2 := by
  intro hnone
  rw [globalBatchInfo_distillationLoss] at hnone
  unfold distillationLoss
  cases distillationLosses fns lossConfig d with
  | error e => exact h hnone
  | ok r =>
    dsimp only
    split
    · dsimp only
      rw [hnone, h hnone]
      rfl
    · exact h hnone

theorem ppoLoss_eq (s s' : State K) (d : MicroBatch K) :
    (ppoLoss fns config s d).1 = (ppoLoss fns config s' d).1 ∧
      (ppoLoss fns config s d).2.globalBatchInfo = some (d.info config) := ⟨rfl, rfl⟩

theorem distillationPpoLoss_fst (d : MicroBatch K) :
    (distillationPpoLoss fns config lossConfig s d).1 = (do
      let (distillLoss, distillMetrics) ← (distillationLoss fns config lossConfig s d).1
      let (policyLoss, policyMetrics) ← (ppoLoss fns config s d).1
      let policyLoss := if lossConfig.useTaskRewards then policyLoss else some 0
      let coef := if lossConfig.useTaskRewards then lossConfig.distillationLossCoef else 1
      return (addLoss policyLoss (distillLoss.map (· * coef)),
        (update policyMetrics distillMetrics).insert "distillation/loss"
          (.metric .sum distillLoss))) := by
  unfold distillationPpoLoss
  obtain ⟨result, s'⟩ := distillationLoss fns config lossConfig s d
  cases result with
  | error e => rfl
  | ok r =>
    obtain ⟨hsame, -⟩ := ppoLoss_eq fns config s s' d
    rw [hsame]
    dsimp only [ok_bind]
    obtain ⟨policy, s''⟩ := ppoLoss fns config s' d
    cases policy with
    | error e => rfl
    | ok p => rfl

theorem distillationPpoLoss_cases (d : MicroBatch K) :
    (∃ e, (distillationPpoLoss fns config lossConfig s d).1 = .error e ∧
      (distillationPpoLoss fns config lossConfig s d).2
        = (distillationLoss fns config lossConfig s d).2) ∨
    (distillationPpoLoss fns config lossConfig s d).2.globalBatchInfo = some (d.info config) := by
  unfold distillationPpoLoss
  obtain ⟨result, s'⟩ := distillationLoss fns config lossConfig s d
  cases result with
  | error e => exact Or.inl ⟨e, rfl, rfl⟩
  | ok distill =>
    obtain ⟨-, hinfo⟩ := ppoLoss_eq fns config s' s' d
    right
    dsimp only
    generalize ppoLoss fns config s' d = p at hinfo ⊢
    obtain ⟨policy, s''⟩ := p
    cases policy with
    | error e => exact hinfo
    | ok p => exact hinfo

theorem consistent_effect {s : State K} (h : Consistent s) (call : LossCall K) :
    Consistent (call.effect fns config lossConfig s) := by
  cases call with
  | ppoLoss d =>
    intro hnone
    cases hnone
  | distillationPpoLoss d =>
    show Consistent (Distillation.distillationPpoLoss fns config lossConfig s d).2
    obtain ⟨e, -, hstate⟩ | hinfo := distillationPpoLoss_cases fns config lossConfig s d
    · rw [hstate]
      exact consistent_distillationLoss fns config lossConfig h d
    · intro hnone
      rw [hinfo] at hnone
      cases hnone

theorem consistent_after :
    Consistent (after fns config lossConfig calls) := by
  suffices h : ∀ s : State K, Consistent s →
      Consistent (calls.foldl (LossCall.effect fns config lossConfig) s) from
    h ⟨none, none⟩ fun _ => rfl
  induction calls with
  | nil => exact fun s hs => hs
  | cons call calls ih => exact fun s hs => ih _ (consistent_effect fns config lossConfig hs call)

/-- The distillation loss of a call is that of the micro-batch's own counts. -/
def OwnLoss (calls : List (LossCall K)) (d : MicroBatch K) : Prop :=
  (distillationLoss fns config lossConfig (after fns config lossConfig calls) d).1.map Prod.fst
    = distillationTerm fns config lossConfig (some (d.info config)) d

theorem ownLoss_iff_term (d : MicroBatch K) :
    OwnLoss fns config lossConfig calls d ↔
      distillationTerm fns config lossConfig (after fns config lossConfig calls).globalBatchInfo d
        = distillationTerm fns config lossConfig (some (d.info config)) d := by
  obtain ⟨metrics, hloss⟩ := distillationLoss_eq fns config lossConfig d
  have hfst : ∀ x : Except PyErr (Option K), (x.map (·, metrics)).map Prod.fst = x := by
    intro x
    cases x with
    | error e => rfl
    | ok loss => rfl
  unfold OwnLoss
  rw [hloss _ (consistent_after fns config lossConfig calls), hfst]

theorem ownLoss_iff (d : MicroBatch K) :
    OwnLoss fns config lossConfig calls d ↔
      SameFactor fns config lossConfig (after fns config lossConfig calls).globalBatchInfo d := by
  rw [ownLoss_iff_term]
  unfold distillationTerm SameFactor
  cases hrows : distillationRows fns lossConfig d with
  | error e =>
    refine ⟨fun _ rows mode hr => ?_, fun _ => rfl⟩
    cases hr
  | ok rows =>
    rw [ok_bind, ok_bind]
    cases hmode : LossAggMode.ofString config.lossAggMode with
    | error e =>
      have hraise : ∀ info', aggLossWith info' rows config.lossAggMode = .error e := by
        intro info'
        unfold aggLossWith aggLoss
        cases info' with
        | none =>
          rw [hmode]
          rfl
        | some i =>
          rw [hmode]
          rfl
      refine ⟨fun _ rows' mode _ hm => ?_, fun _ => ?_⟩
      · cases hm
      · rw [hraise, hraise]
    | ok mode =>
      rw [aggLossWith_eq_iff hmode]
      constructor
      · simp
      · simp

/-- Two histories of the worker make no difference to a call, and its distillation loss is
normalised with the counts of its own micro-batch after both. -/
structure HistoryFree (calls calls' : List (LossCall K)) (d : MicroBatch K) : Prop where
  same : (distillationPpoLoss fns config lossConfig (after fns config lossConfig calls) d).1
    = (distillationPpoLoss fns config lossConfig (after fns config lossConfig calls') d).1
  own : OwnLoss fns config lossConfig calls d
  own' : OwnLoss fns config lossConfig calls' d

/-- **Histories.** -/
theorem historyFree_iff (calls calls' : List (LossCall K)) (d : MicroBatch K) :
    HistoryFree fns config lossConfig calls calls' d ↔
      SameFactor fns config lossConfig (after fns config lossConfig calls).globalBatchInfo d ∧
        SameFactor fns config lossConfig (after fns config lossConfig calls').globalBatchInfo d := by
  rw [← ownLoss_iff, ← ownLoss_iff]
  refine ⟨fun h => ⟨h.own, h.own'⟩, fun h => ⟨?_, h.1, h.2⟩⟩
  obtain ⟨metrics, hloss⟩ := distillationLoss_eq fns config lossConfig d
  rw [distillationPpoLoss_fst, distillationPpoLoss_fst,
    hloss _ (consistent_after fns config lossConfig calls),
    hloss _ (consistent_after fns config lossConfig calls'),
    (ownLoss_iff_term fns config lossConfig calls d).1 h.1,
    (ownLoss_iff_term fns config lossConfig calls' d).1 h.2]
  rfl

end History

/-! ### One token -/

/-- One sequence of one token, of a batch with `tokens` tokens. -/
def oneToken (tokens : ℚ) : MicroBatch ℚ where
  bsz := 1
  respLen := 1
  dpSize := 1
  batchNumTokens := some tokens
  globalBatchSize := some 1
  responseMask := fun _ _ => 1
  oldLogProbs := fun _ _ => 0
  advantages := fun _ _ => 1
  logProbs := fun _ _ => 0
  rolloutIsWeights := none
  refLogProb := none
  entropy := none

/-- The distillation loss of a token is 1, and there is no task reward. -/
def supervised : LossFns ℚ × ActorConfig ℚ × DistillationLossConfig ℚ where
  fst :=
    { exp := fun x => 1 + x
      policyLossFn := fun _ _ => .ok (some 0, Dict.empty)
      klPenalty := fun _ _ => .ok fun _ _ => 0
      distillationLossFn := fun _ => .ok (fun _ _ => 1, Dict.empty) }
  snd :=
    ({ lossAggMode := "token-mean"
       lossScaleFactor := none
       entropyCoeff := 0
       useKlLoss := false
       klLossCoef := 0 },
     { useTaskRewards := false
       distillationLossCoef := 1
       lossMaxClamp := some 10
       usePolicyGradient := false
       clipRatioLow := 1 / 5
       clipRatioHigh := 1 / 5 })

/-- The first call takes its own tokens for those of the batch; the same call again has the counts
that the first one wrote. -/
theorem not_historyFree_firstCall : ((distillationPpoLoss supervised.1 supervised.2.1 supervised.2.2
        (after supervised.1 supervised.2.1 supervised.2.2 []) (oneToken 2)).1.map Prod.fst
      = .ok (some 1)) ∧
    ((distillationPpoLoss supervised.1 supervised.2.1 supervised.2.2
        (after supervised.1 supervised.2.1 supervised.2.2 [.distillationPpoLoss (oneToken 2)])
        (oneToken 2)).1.map Prod.fst = .ok (some (1 / 2))) ∧
    ¬HistoryFree supervised.1 supervised.2.1 supervised.2.2 []
      [.distillationPpoLoss (oneToken 2)] (oneToken 2) := by
  have hfirst : (distillationPpoLoss supervised.1 supervised.2.1 supervised.2.2
      (after supervised.1 supervised.2.1 supervised.2.2 []) (oneToken 2)).1.map Prod.fst
        = .ok (some 1) := by decide +kernel
  have hsecond : (distillationPpoLoss supervised.1 supervised.2.1 supervised.2.2
      (after supervised.1 supervised.2.1 supervised.2.2 [.distillationPpoLoss (oneToken 2)])
      (oneToken 2)).1.map Prod.fst = .ok (some (1 / 2)) := by decide +kernel
  refine ⟨hfirst, hsecond, fun h => ?_⟩
  have hsame := congrArg (Except.map Prod.fst) h.same
  exact absurd hsame (by decide +kernel)

end Verl.Distillation
