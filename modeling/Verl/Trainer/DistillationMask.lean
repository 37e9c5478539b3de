import Verl.Trainer.Distillation

/-! # Masked rows in the distillation loss (`verl/trainer/distillation/losses.py`)

Rows of padding and rejected rows have a response mask of zeros.  The registered loss functions and
the range of the losses reduce over the response tokens for their metrics.

    `distillation_ppo_loss` returns and its masked rows add nothing
      ↔ some token of the micro-batch is not masked                  (ignoresMasked_iff)
-/

namespace Verl.Distillation

open List

variable {K : Type} [Field K] [LinearOrder K]

/-! ## Algorithm -/

/-- What the registered loss functions read, padded: the outputs of the logits processor, and the
log-probabilities of the teacher. -/
structure Outputs (K : Type) (d : MicroBatch K) where
  distillationLosses : Fin d.bsz → Fin d.respLen → K
  studentMass : Fin d.bsz → Fin d.respLen → K
  teacherMass : Fin d.bsz → Fin d.respLen → K
  teacherLogProbs : Fin d.bsz → Fin d.respLen → K

/-- `min()` or `max()` of the entries at the response tokens. -/
def responseReduce (op : K → K → K) (d : MicroBatch K) (values : Fin d.bsz → Fin d.respLen → K) :
    Except PyErr K :=
  match responseEntries d values with
  | [] => .error (.runtimeError "Expected reduction dim to be specified for input.numel() == 0")
  | x :: xs => .ok (xs.foldl op x)

/-- `mean()`, no number for an empty tensor. -/
def mean (values : List K) : Option K := tensorDiv values.sum values.length

def computeForwardKlTopk (d : MicroBatch K) (out : Outputs K d) :
    Except PyErr ((Fin d.bsz → Fin d.respLen → K) × Dict (MetricValue K)) := do
  let studentMin ← responseReduce min d out.studentMass
  let studentMax ← responseReduce max d out.studentMass
  let teacherMin ← responseReduce min d out.teacherMass
  let teacherMax ← responseReduce max d out.teacherMass
  return (fun i t => max (out.distillationLosses i t) 0, Dict.ofItems [
    ("distillation/student_mass", .number (mean (responseEntries d out.studentMass))),
    ("distillation/student_mass_min", .metric .min studentMin),
    ("distillation/student_mass_max", .metric .max studentMax),
    ("distillation/teacher_mass", .number (mean (responseEntries d out.teacherMass))),
    ("distillation/teacher_mass_min", .metric .min teacherMin),
    ("distillation/teacher_mass_max", .metric .max teacherMax)])

/-- The names of `compute_distillation_loss_reverse_kl_estimator`. -/
inductive Estimator
  | kl | k1 | abs | mse | k2 | lowVarKl | k3

/-- `kl_penalty`, for the names without a `+`. -/
def klPenalty (exp : K → K) (logprob refLogprob : K) : Estimator → K
  | .kl | .k1 => logprob - refLogprob
  | .abs => |logprob - refLogprob|
  | .mse | .k2 => 1 / 2 * (logprob - refLogprob) ^ 2
  | .lowVarKl | .k3 =>
    let kl := clamp (refLogprob - logprob) (-20) 20
    clamp (exp kl - kl - 1) (-10) 10

def computeDistillationLossReverseKlEstimator (exp : K → K) (e : Estimator) (d : MicroBatch K)
    (out : Outputs K d) : (Fin d.bsz → Fin d.respLen → K) × Dict (MetricValue K) :=
  let losses := fun i t => klPenalty exp (d.logProbs i t) (out.teacherLogProbs i t) e
  (losses, Dict.ofItems
    [("distillation/abs_loss", .metric .mean (mean ((responseEntries d losses).map abs)))])

/-- The keys of `DISTILLATION_LOSS_REGISTRY`. -/
inductive LossMode
  | forwardKlTopk
  | estimator (e : Estimator)

/-- `get_distillation_loss_fn`. -/
def getDistillationLossFn (exp : K → K) (out : ∀ d, Outputs K d) (mode : LossMode)
    (d : MicroBatch K) :
    Except PyErr ((Fin d.bsz → Fin d.respLen → K) × Dict (MetricValue K)) :=
  match mode with
  | .forwardKlTopk => computeForwardKlTopk d (out d)
  | .estimator e => .ok (computeDistillationLossReverseKlEstimator exp e d (out d))

variable (fns : LossFns K) (out : ∀ d, Outputs K d) (lossMode : LossMode)

/-- The functions with a registered distillation loss. -/
def registered : LossFns K :=
  { fns with distillationLossFn := getDistillationLossFn fns.exp out lossMode }

/-! ## Masked rows -/

/-- Some token of the row is not masked. -/
def Unmasked {w : Nat} (r : LossRow K w) : Prop := ∃ t, r.mask t ≠ 0

instance {w : Nat} (r : LossRow K w) : Decidable (Unmasked r) := by
  unfold Unmasked
  infer_instance

variable (config : ActorConfig K) (lossConfig : DistillationLossConfig K)

/-- The call returns, and its distillation loss is that of the rows which are not masked. -/
def IgnoresMasked (s : State K) (d : MicroBatch K) : Prop :=
  ∃ loss metrics distillLoss rows,
    (distillationPpoLoss fns config lossConfig s d).1 = .ok (loss, metrics) ∧
    metrics.get? "distillation/loss" = some (.metric .sum distillLoss) ∧
    distillationRows fns lossConfig d = .ok rows ∧
    aggLossWith s.globalBatchInfo (rows.filter fun r => Unmasked r) config.lossAggMode =
      .ok distillLoss

/-- The counts that `agg_loss` needs of several ranks. -/
def Counted (info : Option (BatchInfo K)) : Prop :=
  ∀ i, info = some i → 1 < i.dpSize → i.batchNumTokens.isSome ∧ i.globalBatchSize.isSome

variable {fns out lossMode config lossConfig} {d : MicroBatch K} {w : Nat}
  {rows : List (LossRow K w)} {info : Option (BatchInfo K)} {mode : LossAggMode}

omit [LinearOrder K] in
theorem maskSum_eq_zero {r : LossRow K w} (h : ¬Unmasked r) : r.maskSum = 0 :=
  Finset.sum_eq_zero fun t _ => not_not.mp fun ht => h ⟨t, ht⟩

theorem seqMask_eq_zero {r : LossRow K w} (h : ¬Unmasked r) : r.seqMask = 0 :=
  if_neg (by rw [maskSum_eq_zero h]; exact lt_irrefl 0)

theorem rowTerm_eq_zero {r : LossRow K w} (h : ¬Unmasked r) : rowTerm mode r = 0 := by
  have hentry : ∀ x : K, maskedEntry x r.seqMask = 0 := by
    intro x
    rw [maskedEntry, seqMask_eq_zero h, mul_zero]
  cases mode with
  | tokenMean =>
    refine sum_eq_zero fun x hx => ?_
    obtain ⟨t, rfl⟩ := mem_ofFn.mp hx
    have hzero : r.mask t = 0 := not_not.mp fun ht => h ⟨t, ht⟩
    rw [maskedEntry, hzero, mul_zero]
  | seqMeanTokenSum | seqMeanTokenSumNorm | seqMeanTokenMean => exact hentry _

theorem sum_filter_unmasked {f : LossRow K w → K} (hf : ∀ r, ¬Unmasked r → f r = 0) :
    ((rows.filter fun r => Unmasked r).map f).sum = (rows.map f).sum := by
  induction rows with
  | nil => rfl
  | cons r rows ih =>
    rw [filter_cons, map_cons, sum_cons]
    by_cases hr : Unmasked r
    · rw [if_pos (decide_eq_true hr), map_cons, sum_cons, ih]
    · rw [if_neg (by simpa using hr), ih, hf r hr, zero_add]

/-- Masked rows add nothing to a loss. -/
theorem aggLossWith_filter (info : Option (BatchInfo K)) (rows : List (LossRow K w))
    (lossAggMode : String) :
    aggLossWith info (rows.filter fun r => Unmasked r) lossAggMode =
      aggLossWith info rows lossAggMode := by
  cases hmode : LossAggMode.ofString lossAggMode with
  | error e =>
    unfold aggLossWith aggLoss
    rw [hmode]
    rfl
  | ok mode =>
    rw [aggLossWith_eq hmode, aggLossWith_eq hmode, sum_filter_unmasked fun _ => rowTerm_eq_zero]
    unfold lossFactor
    rw [sum_filter_unmasked fun _ => maskSum_eq_zero, sum_filter_unmasked fun _ => seqMask_eq_zero]

theorem exists_aggLossWith {lossAggMode : String} (h : Counted info)
    (hmode : LossAggMode.ofString lossAggMode = .ok mode) (rows : List (LossRow K w)) :
    ∃ loss, aggLossWith info rows lossAggMode = .ok loss := by
  have hcount : ∀ (count : Option K) dpSize msg n, (1 < dpSize → count.isSome) →
      ∃ c, countOr count dpSize msg n = .ok c := by
    intro count dpSize msg n hsome
    cases count with
    | some c => exact ⟨c, rfl⟩
    | none => exact ⟨n, if_neg fun hlt => Bool.false_ne_true (hsome hlt)⟩
  have hinfo : 1 < (info.getD ⟨1, none, none, none⟩).dpSize →
      (info.getD ⟨1, none, none, none⟩).batchNumTokens.isSome ∧
        (info.getD ⟨1, none, none, none⟩).globalBatchSize.isSome := by
    cases info with
    | none => exact fun hlt => absurd hlt (lt_irrefl 1)
    | some i => exact h i rfl
  rw [aggLossWith_eq hmode]
  unfold lossFactor
  cases mode with
  | tokenMean =>
    obtain ⟨c, hc⟩ := hcount _ _ _ _ fun hlt => (hinfo hlt).1
    dsimp only
    rw [hc]
    exact ⟨_, rfl⟩
  | seqMeanTokenSum | seqMeanTokenSumNorm | seqMeanTokenMean =>
    obtain ⟨c, hc⟩ := hcount _ _ _ _ fun hlt => (hinfo hlt).2
    dsimp only
    rw [hc]
    exact ⟨_, rfl⟩

/-! ## Empty selections -/

theorem responseEntries_eq_nil_iff (values : Fin d.bsz → Fin d.respLen → K) :
    responseEntries d values = [] ↔ ∀ i t, d.responseMask i t = 0 := by
  unfold responseEntries
  rw [map_eq_nil_iff, filter_eq_nil_iff]
  simp only [mem_flatten, mem_ofFn]
  constructor
  · intro h i t
    simpa using h (values i t, d.responseMask i t) ⟨_, ⟨i, rfl⟩, mem_ofFn.mpr ⟨t, rfl⟩⟩
  · rintro h _ ⟨_, ⟨i, rfl⟩, hentry⟩
    obtain ⟨t, rfl⟩ := mem_ofFn.mp hentry
    simpa using h i t

theorem responseEntries_ne_nil (hd : ∃ i t, d.responseMask i t ≠ 0)
    (values : Fin d.bsz → Fin d.respLen → K) : responseEntries d values ≠ [] := by
  rw [Ne, responseEntries_eq_nil_iff]
  push Not
  exact hd

theorem exists_responseReduce (hd : ∃ i t, d.responseMask i t ≠ 0) (op : K → K → K)
    (values : Fin d.bsz → Fin d.respLen → K) : ∃ x, responseReduce op d values = .ok x := by
  obtain ⟨x, xs, hxs⟩ := exists_cons_of_ne_nil (responseEntries_ne_nil hd values)
  unfold responseReduce
  rw [hxs]
  exact ⟨_, rfl⟩

variable (fns out lossMode config lossConfig)

/-- The losses are computed exactly if some token is not masked. -/
theorem exists_distillationLosses_iff :
    (∃ r, distillationLosses (registered fns out lossMode) lossConfig d = .ok r) ↔
      ∃ i t, d.responseMask i t ≠ 0 := by
  constructor
  · rintro ⟨r, hr⟩
    obtain ⟨⟨losses, metrics⟩, -, hrest⟩ := bind_eq_ok.mp hr
    obtain ⟨range, hrange, -⟩ := bind_eq_ok.mp hrest
    by_contra! hzero
    unfold computeDistillationLossRange at hrange
    rw [(responseEntries_eq_nil_iff losses).mpr hzero] at hrange
    cases hrange
  · intro hd
    have hlosses : ∃ r, (registered fns out lossMode).distillationLossFn d = .ok r := by
      cases lossMode with
      | forwardKlTopk =>
        obtain ⟨a, ha⟩ := exists_responseReduce hd min (out d).studentMass
        obtain ⟨b, hb⟩ := exists_responseReduce hd max (out d).studentMass
        obtain ⟨u, hu⟩ := exists_responseReduce hd min (out d).teacherMass
        obtain ⟨v, hv⟩ := exists_responseReduce hd max (out d).teacherMass
        show ∃ r, computeForwardKlTopk d (out d) = .ok r
        unfold computeForwardKlTopk
        rw [ha, hb, hu, hv]
        exact ⟨_, rfl⟩
      | estimator e => exact ⟨_, rfl⟩
    obtain ⟨⟨losses, metrics⟩, hlosses⟩ := hlosses
    obtain ⟨x, xs, hxs⟩ := exists_cons_of_ne_nil (responseEntries_ne_nil hd losses)
    unfold distillationLosses computeDistillationLossRange
    rw [hlosses, ok_bind]
    dsimp only
    rw [hxs]
    exact ⟨_, rfl⟩

/-- **Masked rows.** -/
theorem ignoresMasked_iff (calls : List (LossCall K)) (d : MicroBatch K)
    (hmode : LossAggMode.ofString config.lossAggMode = .ok mode)
    (hcounts : Counted (after (registered fns out lossMode) config lossConfig calls).globalBatchInfo)
    (hppo : ∃ r, (ppoLoss (registered fns out lossMode) config ⟨none, none⟩ d).1 = .ok r) :
    IgnoresMasked (registered fns out lossMode) config lossConfig
        (after (registered fns out lossMode) config lossConfig calls) d ↔
      ∃ i t, d.responseMask i t ≠ 0 := by
  constructor
  · rintro ⟨loss, metrics, distillLoss, rows, -, -, hrows, -⟩
    obtain ⟨r, hr, -⟩ := bind_eq_ok.mp hrows
    exact (exists_distillationLosses_iff fns out lossMode lossConfig).mp ⟨r, hr⟩
  · intro hd
    obtain ⟨⟨losses, metrics⟩, hlosses⟩ :=
      (exists_distillationLosses_iff fns out lossMode lossConfig).mpr hd
    obtain ⟨rows, hrows⟩ :
        ∃ rows, distillationRows (registered fns out lossMode) lossConfig d = .ok rows :=
      ⟨_, by rw [distillationRows, hlosses]; rfl⟩
    obtain ⟨distillLoss, hagg⟩ := exists_aggLossWith hcounts hmode rows
    obtain ⟨metrics', hdistill⟩ :=
      distillationLoss_eq (registered fns out lossMode) config lossConfig d
    obtain ⟨policy, hpolicy⟩ := hppo
    have hresult := distillationPpoLoss_fst (registered fns out lossMode) config lossConfig
      (after (registered fns out lossMode) config lossConfig calls) d
    rw [hdistill _ (consistent_after _ config lossConfig calls), distillationTerm, hrows, ok_bind,
      hagg, (ppoLoss_eq _ config _ ⟨none, none⟩ d).1, hpolicy] at hresult
    refine ⟨_, _, distillLoss, rows, hresult, ?_, hrows, ?_⟩
    · rw [Dict.get?_insert, if_pos rfl]
    · rw [aggLossWith_filter, hagg]

/-- The outputs of a model on one token. -/
def zeroOutputs (d : MicroBatch ℚ) : Outputs ℚ d :=
  ⟨fun _ _ => 0, fun _ _ => 0, fun _ _ => 0, fun _ _ => 0⟩

theorem ignoresMasked_oneToken :
    IgnoresMasked (registered supervised.1 zeroOutputs .forwardKlTopk) supervised.2.1 supervised.2.2
      (after (registered supervised.1 zeroOutputs .forwardKlTopk) supervised.2.1 supervised.2.2 [])
      (oneToken 2) :=
  (ignoresMasked_iff supervised.1 zeroOutputs .forwardKlTopk supervised.2.1 supervised.2.2 []
    (oneToken 2) rfl (fun i hi => by cases hi) ⟨_, rfl⟩).mpr
    ⟨(0 : Fin 1), (0 : Fin 1), one_ne_zero⟩

/-- A micro-batch of one row of padding. -/
def paddingRow : MicroBatch ℚ := { oneToken 2 with responseMask := fun _ _ => 0 }

theorem not_ignoresMasked_paddingRow :
    ¬IgnoresMasked (registered supervised.1 zeroOutputs .forwardKlTopk) supervised.2.1
      supervised.2.2 ⟨none, none⟩ paddingRow := by
  rintro ⟨loss, metrics, distillLoss, rows, -, -, hrows, -⟩
  cases hrows

end Verl.Distillation
