import Verl.Trainer.RolloutStats

/-! # The rejection mask (`verl/trainer/ppo/rollout_corr_helper.py`)

`compute_rollout_rejection_mask` masks the tokens and the sequences for which the policies of
training and rollout are too far apart.  An option is a level and an estimate of the divergence:

    token_k1  token_k2  token_k3
    seq_sum_k1  seq_sum_k2  seq_sum_k3
    seq_mean_k1  seq_mean_k2  seq_mean_k3
                seq_max_k2  seq_max_k3

* `computeRolloutRejectionMask_spec`: the loop keeps a valid token exactly if all the criteria
  accept it.

A batch without a valid token raises (`computeRolloutRejectionMask_noToken`). -/

namespace Verl.RolloutCorr

/-! ## Options -/

inductive RsOption where
  | tokenK1
  | tokenK2
  | tokenK3
  | seqSumK1
  | seqSumK2
  | seqSumK3
  | seqMeanK1
  | seqMeanK2
  | seqMeanK3
  | seqMaxK2
  | seqMaxK3
  deriving DecidableEq

namespace RsOption

def name : RsOption → String
  | tokenK1 => "token_k1"
  | tokenK2 => "token_k2"
  | tokenK3 => "token_k3"
  | seqSumK1 => "seq_sum_k1"
  | seqSumK2 => "seq_sum_k2"
  | seqSumK3 => "seq_sum_k3"
  | seqMeanK1 => "seq_mean_k1"
  | seqMeanK2 => "seq_mean_k2"
  | seqMeanK3 => "seq_mean_k3"
  | seqMaxK2 => "seq_max_k2"
  | seqMaxK3 => "seq_max_k3"

/-- `sorted(SUPPORTED_ROLLOUT_RS_OPTIONS)` -/
def supported : List RsOption :=
  [seqMaxK2, seqMaxK3, seqMeanK1, seqMeanK2, seqMeanK3, seqSumK1, seqSumK2, seqSumK3, tokenK1,
    tokenK2, tokenK3]

def ofName? (opt : List Char) : Option RsOption :=
  supported.find? fun option => option.name.toList = opt

/-- `option_name.endswith("k1")` -/
def isK1 : RsOption → Bool
  | tokenK1 | seqSumK1 | seqMeanK1 => true
  | _ => false

/-- `level == "token"` -/
def isToken : RsOption → Bool
  | tokenK1 | tokenK2 | tokenK3 => true
  | _ => false

end RsOption

/-- The options without those that were seen before. -/
def normalizeOptions (optionModes : List (List Char)) : Except PyErr (List RsOption) :=
  optionModes.foldlM (fun normalized opt =>
    match RsOption.ofName? opt with
    | none =>
      let sorted := "['" ++ String.intercalate "', '" (RsOption.supported.map RsOption.name) ++ "']"
      .error (.valueError (s!"Invalid rollout_rs option: {String.ofList opt}. " ++
        s!"Must be one of {sorted}."))
    | some option => .ok (if option ∈ normalized then normalized else normalized ++ [option])) []

/-! ## Thresholds -/

section Thresholds

variable {K : Type} [Field K] [LinearOrder K] (fns : FloatFns K)

structure Thresholds (K : Type) where
  lower : Option K
  upper : K
  deriving DecidableEq

/-- `(lower_str, upper_str)`; a single bound goes with its reciprocal. -/
def boundStrings (spec : List Char) : Except PyErr (List Char × List Char) :=
  if '_' ∈ spec then .ok (splitFirst '_' spec)
  else do
    let upper ← fns.float spec
    if upper = 0 then throw .zeroDivisionError
    return (fns.str (1 / upper), spec)

/-- The ratio bounds of a `k1` option. -/
def parseRatioBounds (option : RsOption) (spec : List Char) : Except PyErr (Thresholds K) := do
  let (lowerStr, upperStr) ← boundStrings fns spec
  match fns.ofStr lowerStr, fns.ofStr upperStr with
  | some lower, some upper =>
    if lower ≤ 0 ∨ upper ≤ 0 then
      throw (.valueError (s!"Thresholds for option '{option.name}' must be positive, " ++
        s!"got {String.ofList spec}."))
    return { lower := some lower, upper := upper }
  | _, _ =>
    throw (.valueError
      s!"Invalid numeric threshold '{String.ofList spec}' for option '{option.name}'.")

/-- The bound of any other option. -/
def parseUpperBound (option : RsOption) (spec : List Char) : Except PyErr (Thresholds K) := do
  if '_' ∈ spec then
    throw (.valueError (s!"rollout_rs_threshold for option '{option.name}' must provide a single " ++
      s!"upper bound without '_'. Received '{String.ofList spec}'."))
  match fns.ofStr spec with
  | some upper =>
    if upper ≤ 0 then
      throw (.valueError (s!"Threshold for option '{option.name}' must be positive, " ++
        s!"got {String.ofList spec}."))
    return { lower := none, upper := upper }
  | none =>
    throw (.valueError
      s!"Invalid numeric threshold '{String.ofList spec}' for option '{option.name}'.")

def parseThreshold (option : RsOption) (spec : List Char) : Except PyErr (Thresholds K) :=
  if option.isK1 then parseRatioBounds fns option spec else parseUpperBound fns option spec

/-- One option with its thresholds. -/
structure Criterion (K : Type) where
  option : RsOption
  thresholds : Thresholds K
  deriving DecidableEq

def parseCriterion (option : RsOption) (spec : List Char) : Except PyErr (Criterion K) := do
  let thresholds ← parseThreshold fns option spec
  return { option := option, thresholds := thresholds }

/-- One specification for all the options or for each of them. -/
def ThresholdSpec.rawSpecs : ThresholdSpec K → List (List Char)
  | number threshold => [fns.str threshold]
  | string spec => splitStrip ',' spec.toList

/-- The thresholds of the options, which are distinct, in their order. -/
def parseRolloutRsThresholds (options : List RsOption) (thresholdSpec : ThresholdSpec K) :
    Except PyErr (List (Criterion K)) := do
  let rawSpecs := thresholdSpec.rawSpecs fns
  if rawSpecs = [] then
    throw (.valueError "rollout_rs_threshold must contain at least one threshold value.")
  if rawSpecs.length ≠ 1 ∧ rawSpecs.length ≠ options.length then
    throw (.valueError ("rollout_rs_threshold expects either one threshold shared by all options " ++
      s!"or exactly {options.length} thresholds to match the provided rollout_rs options."))
  let rawSpecs :=
    if rawSpecs.length = 1 ∧ 1 < options.length then
      (List.replicate options.length rawSpecs).flatten
    else rawSpecs
  (options.zip rawSpecs).mapM fun p => parseCriterion fns p.1 p.2

/-- The criteria of two strings. -/
def parseOptions (rolloutRs : String) (thresholdSpec : ThresholdSpec K) :
    Except PyErr (List (Criterion K)) := do
  let optionModes := splitStrip ',' rolloutRs.toList
  if optionModes = [] then
    throw (.valueError "rollout_rs must contain at least one valid option.")
  let normalizedOptions ← normalizeOptions optionModes
  parseRolloutRsThresholds fns normalizedOptions thresholdSpec

end Thresholds

/-! ## Metrics -/

section Metrics

variable {K : Type} [Field K] [LinearOrder K] {bsz seqLength : Nat} (fns : FloatFns K)

/-- The metrics of one option; without a valid token it raises. -/
def computeRsMetrics (option : RsOption) (rsStatistic responseMask : Fin bsz → Fin seqLength → K)
    (perSequenceValues : Option (Fin bsz → K)) (threshold thresholdLower : K)
    (applyLowerThreshold : Bool) : Except PyErr (List (String × K)) := do
  if ∀ i t, responseMask i t = 0 then
    throw (.valueError "response_mask must contain at least one valid token (1).")
  let metric := fun (key : String) => "rollout_rs_" ++ option.name ++ "_" ++ key
  let seqValues := perSequenceValues.getD (rowMean rsStatistic responseMask)
  let seqValuesValid := ((List.finRange bsz).filter fun i => seqValid responseMask i).map seqValues
  let bySequence := !option.isToken ∧ seqValuesValid ≠ []
  let entries := if bySequence then seqValuesValid else validEntries rsStatistic responseMask
  let above := fun (x : K) => decide (threshold < x)
  let below := fun (x : K) => decide (x < thresholdLower)
  let fractionHigh :=
    if bySequence then fractionOf above seqValuesValid
    else Gae.maskedMean (fun i t => indicator (above (rsStatistic i t))) responseMask
  let fractionLow :=
    if !applyLowerThreshold then 0
    else if bySequence then fractionOf below seqValuesValid
    else Gae.maskedMean (fun i t => indicator (below (rsStatistic i t))) responseMask
  let clampMin := if applyLowerThreshold then thresholdLower else 0
  let statForStd := fun i t => min (max (rsStatistic i t) clampMin) threshold
  let statVar := Gae.maskedMean (fun i t => statForStd i t ^ 2) responseMask -
    Gae.maskedMean statForStd responseMask ^ 2
  let std := if 1 < ∑ i, ∑ t, responseMask i t then fns.sqrt (max statVar 0) else 0
  let ofValid := fun (value : K) => if seqValuesValid ≠ [] then value else 0
  return [
      (metric "mean", Gae.maskedMean rsStatistic responseMask),
      (metric "max", listMax entries),
      (metric "min", listMin entries),
      (metric "fraction_high", fractionHigh),
      (metric "fraction_low", fractionLow),
      (metric "std", std),
      (metric "seq_mean", ofValid (listMean seqValuesValid)),
      (metric "seq_std", ofValid (listStd fns seqValuesValid)),
      (metric "seq_max", ofValid (listMax seqValuesValid)),
      (metric "seq_min", ofValid (listMin seqValuesValid)),
      (metric "seq_max_deviation", ofValid (listMax (seqValuesValid.map fun x => |x|))),
      (metric "seq_fraction_high", ofValid (fractionOf above seqValuesValid))] ++
    if !applyLowerThreshold ∧ seqValuesValid ≠ [] then []
    else [ (metric "seq_fraction_low", ofValid (fractionOf below seqValuesValid))]

end Metrics

/-! ## Algorithm -/

section Algorithm

variable {K : Type} [Field K] [LinearOrder K] {bsz seqLength : Nat} (fns : FloatFns K)
  (logRatio responseMask : Fin bsz → Fin seqLength → K)

/-- `token_k1`, `token_k2` and `token_k3` of one log ratio. -/
def RsOption.divergence (option : RsOption) (logRatio : K) : K :=
  let logRatioSafe := clampSafe logRatio
  match option with
  | tokenK1 | seqSumK1 | seqMeanK1 => -logRatioSafe
  | tokenK2 | seqSumK2 | seqMeanK2 | seqMaxK2 => 1 / 2 * logRatioSafe ^ 2
  | tokenK3 | seqSumK3 | seqMeanK3 | seqMaxK3 => fns.exp logRatioSafe - 1 - logRatioSafe

/-- `_sequence_max`; a masked token has the value `-inf`. -/
def sequenceMax (values : Fin bsz → Fin seqLength → K) (i : Fin bsz) : K :=
  (Finset.univ.sup fun t => if responseMask i t ≠ 0 then (values i t : WithBot K) else ⊥).unbotD 0

/-- The statistic of every sequence, for the options that are not of the level `token`. -/
def RsOption.seqStat (option : RsOption) : Except PyErr (Fin bsz → K) :=
  let values := fun i t => option.divergence fns (logRatio i t)
  match option with
  | seqSumK1 | seqSumK2 | seqSumK3 => .ok (rowSum values responseMask)
  | seqMeanK1 | seqMeanK2 | seqMeanK3 => .ok (rowMean values responseMask)
  | seqMaxK2 | seqMaxK3 =>
    -- no maximum over an empty dimension
    if seqLength = 0 then .error .indexError else .ok (sequenceMax responseMask values)
  | tokenK1 | tokenK2 | tokenK3 =>
    .error (.valueError s!"Unsupported rollout_rs option: {option.name}.")

/-- `(per_token_stat, per_sequence_stat)` -/
def RsOption.stats (option : RsOption) :
    Except PyErr ((Fin bsz → Fin seqLength → K) × Option (Fin bsz → K)) :=
  if option.isToken then .ok (fun i t => option.divergence fns (logRatio i t), none)
  else do
    let seqStat ← option.seqStat fns logRatio responseMask
    return (fun i _ => seqStat i, some seqStat)

/-- `(lower_log, upper_log)` of a `k1` option, `(None, upper_value)` of another. -/
def Criterion.bounds (c : Criterion K) : Except PyErr (Option K × K) :=
  if c.option.isK1 then
    match c.thresholds.lower with
    | none =>
      .error (.valueError (s!"rollout_rs_threshold for option '{c.option.name}' must specify " ++
        "both lower and upper bounds."))
    | some lower => .ok (some (fns.log lower), fns.log c.thresholds.upper)
  else .ok (none, c.thresholds.upper)

/-- A statistic is within the bounds. -/
def inBounds (bounds : Option K × K) (stat : K) : Bool :=
  (∀ lower ∈ bounds.1, lower ≤ stat) ∧ stat ≤ bounds.2

/-- What goes from one option to the next. -/
structure MaskState (bsz seqLength : Nat) (K : Type) where
  combinedMask : Fin bsz → Fin seqLength → K
  metrics : Dict K

/-- The turn of one option. -/
def optionStep (st : MaskState bsz seqLength K) (c : Criterion K) :
    Except PyErr (MaskState bsz seqLength K) := do
  let bounds ← c.bounds fns
  let (perTokenStat, perSequenceStat) ← c.option.stats fns logRatio responseMask
  let tokenKeepBool := fun i t => inBounds bounds (perTokenStat i t)
  let tokenKeepMask := fun i t => indicator (tokenKeepBool i t)
  let combinedMask := fun i t => st.combinedMask i t * tokenKeepMask i t
  let seqKeepBool := fun i => decide (∀ t, ¬(!tokenKeepBool i t ∧ responseMask i t ≠ 0))
  let optionMetrics ← computeRsMetrics fns c.option perTokenStat responseMask perSequenceStat
    bounds.2 (bounds.1.getD 0) c.option.isK1
  let tokenMaskedFraction := Gae.maskedMean (fun i t => 1 - tokenKeepMask i t) responseMask
  let numValid := ∑ i, indicator (seqValid responseMask i)
  let seqMaskedFraction :=
    if 0 < numValid then
      (∑ i, (1 - indicator (seqKeepBool i)) * indicator (seqValid responseMask i)) / numValid
    else (0 : K)
  let metric := fun (key : String) => "rollout_rs_" ++ c.option.name ++ key
  let items := optionMetrics ++ [ (metric "_masked_fraction", tokenMaskedFraction),
    (metric "_seq_masked_fraction", seqMaskedFraction)]
  let metrics := items.foldl (fun d p => d.insert p.1 p.2) st.metrics
  return { combinedMask := combinedMask, metrics := metrics }

/-- `(modified_response_mask, metrics)` -/
def computeRolloutRejectionMask (rolloutRs : Option String)
    (rolloutRsThreshold : Option (ThresholdSpec K)) :
    Except PyErr ((Fin bsz → Fin seqLength → K) × Dict K) :=
  match rolloutRs, rolloutRsThreshold with
  | none, _ =>
    .error (.valueError
      "rollout_rs must be a non-empty string (comma separated for multiple options).")
  | _, none =>
    .error (.valueError "rollout_rs_threshold must be provided for rejection sampling.")
  | some rolloutRs, some rolloutRsThreshold =>
    if bsz = 0 then .ok (responseMask, Dict.empty)
    else do
      let criteria ← parseOptions fns rolloutRs rolloutRsThreshold
      let st ← criteria.foldlM (optionStep fns logRatio responseMask)
        { combinedMask := fun _ _ => 1, metrics := Dict.empty }
      let finalMask := st.combinedMask
      let maskedFraction := Gae.maskedMean (fun i t => 1 - finalMask i t) responseMask
      let seqHasMasked := fun i =>
        decide (∃ t, ¬(1 / 2 < finalMask i t ∧ responseMask i t ≠ 0) ∧ responseMask i t ≠ 0)
      let metrics := (st.metrics.insert "rollout_rs_masked_fraction" maskedFraction).insert
        "rollout_rs_seq_masked_fraction" ((∑ i, indicator (seqHasMasked i)) / bsz)
      return (fun i t => responseMask i t * finalMask i t, metrics)

end Algorithm

/-! ## Property -/

section Property

variable {K : Type} [Field K] [LinearOrder K] {bsz seqLength : Nat} (fns : FloatFns K)

/-- The statistic of an option at a token, from the valid tokens of its sequence. -/
def RsOption.statOf (option : RsOption) (logRatio responseMask : Fin bsz → Fin seqLength → K)
    (i : Fin bsz) (t : Fin seqLength) : K :=
  let values := fun t => option.divergence fns (logRatio i t)
  let valid := Finset.univ.filter fun t => responseMask i t = 1
  match option with
  | tokenK1 | tokenK2 | tokenK3 => values t
  | seqSumK1 | seqSumK2 | seqSumK3 => ∑ t ∈ valid, values t
  | seqMeanK1 | seqMeanK2 | seqMeanK3 => (∑ t ∈ valid, values t) / (valid.card + 1 / 10 ^ 8)
  | seqMaxK2 | seqMaxK3 => (valid.sup fun t => (values t : WithBot K)).unbotD 0

/-- The criterion of one option accepts a token. -/
def Criterion.Accepts (c : Criterion K) (logRatio responseMask : Fin bsz → Fin seqLength → K)
    (i : Fin bsz) (t : Fin seqLength) : Prop :=
  let stat := c.option.statOf fns logRatio responseMask i t
  if c.option.isK1 then
    (∀ lower ∈ c.thresholds.lower, fns.log lower ≤ stat) ∧ stat ≤ fns.log c.thresholds.upper
  else stat ≤ c.thresholds.upper

instance (c : Criterion K) (logRatio responseMask : Fin bsz → Fin seqLength → K) (i : Fin bsz)
    (t : Fin seqLength) : Decidable (c.Accepts fns logRatio responseMask i t) := by
  unfold Criterion.Accepts
  infer_instance

/-- The valid tokens that all the criteria accept. -/
def keptMask (criteria : List (Criterion K)) (logRatio responseMask : Fin bsz → Fin seqLength → K)
    (i : Fin bsz) (t : Fin seqLength) : K :=
  indicator (responseMask i t = 1 ∧ ∀ c ∈ criteria, c.Accepts fns logRatio responseMask i t)

end Property

/-! ## Lemmas -/

section Lemmas

variable {K : Type} [Field K] [LinearOrder K] {bsz seqLength : Nat} {fns : FloatFns K}

variable {criteria : List (Criterion K)} {responseMask : Fin bsz → Fin seqLength → K}

omit [LinearOrder K] in
theorem indicator_and (a b : Bool) : (indicator a * indicator b : K) = indicator (a && b) := by
  cases a <;> cases b <;> simp [indicator]

/-! ### Parsing -/

/-- Both bounds of a `k1` option are given. -/
def Criterion.HasBounds (c : Criterion K) : Prop := c.option.isK1 → c.thresholds.lower.isSome

theorem hasBounds_of_parseThreshold {option : RsOption} {spec : List Char}
    {thresholds : Thresholds K} (h : parseThreshold fns option spec = .ok thresholds) :
    (Criterion.mk option thresholds).HasBounds := by
  intro hk1
  unfold parseThreshold at h
  rw [if_pos hk1] at h
  obtain ⟨strings, -, h⟩ := bind_eq_ok.1 h
  dsimp only at h
  split at h
  · split at h
    · cases h
    · cases h
      rfl
  · cases h

theorem hasBounds_of_parseOptions {rolloutRs : String} {thresholdSpec : ThresholdSpec K}
    (h : parseOptions fns rolloutRs thresholdSpec = .ok criteria) :
    ∀ c ∈ criteria, c.HasBounds := by
  unfold parseOptions at h
  dsimp only at h
  split at h
  · cases h
  obtain ⟨normalized, -, h⟩ := bind_eq_ok.1 h
  unfold parseRolloutRsThresholds at h
  dsimp only at h
  split at h
  · cases h
  split at h
  · cases h
  intro c hc
  obtain ⟨p, -, hp⟩ := exists_of_forall₂ (forall₂_of_mapM_eq_ok h) hc
  obtain ⟨thresholds, hthresholds, hp⟩ := bind_eq_ok.1 hp
  cases hp
  exact hasBounds_of_parseThreshold hthresholds

/-! ### The loop -/

variable (fns)

theorem sequenceMax_eq (hmask : ∀ i t, responseMask i t = 0 ∨ responseMask i t = 1)
    (values : Fin bsz → Fin seqLength → K) (i : Fin bsz) :
    sequenceMax responseMask values i =
      ((Finset.univ.filter fun t => responseMask i t = 1).sup
        fun t => (values i t : WithBot K)).unbotD 0 := by
  unfold sequenceMax
  congr 1
  apply le_antisymm
  · refine Finset.sup_le fun t _ => ?_
    rcases hmask i t with h | h
    · rw [h, if_neg (not_not_intro rfl)]
      exact bot_le
    · rw [h, if_pos one_ne_zero]
      exact Finset.le_sup (f := fun t => (values i t : WithBot K))
        (Finset.mem_filter.2 ⟨Finset.mem_univ t, h⟩)
  · refine Finset.sup_le fun t ht => ?_
    have hone := (Finset.mem_filter.1 ht).2
    refine le_trans (le_of_eq ?_) (Finset.le_sup (Finset.mem_univ t))
    rw [hone, if_pos one_ne_zero]

theorem stats_eq (hmask : ∀ i t, responseMask i t = 0 ∨ responseMask i t = 1) (hlen : seqLength ≠ 0)
    (logRatio : Fin bsz → Fin seqLength → K) (option : RsOption) :
    ∃ perSequenceStat, option.stats fns logRatio responseMask =
      .ok (option.statOf fns logRatio responseMask, perSequenceStat) := by
  have hmax : ∀ values : Fin bsz → Fin seqLength → K,
      (if seqLength = 0 then Except.error PyErr.indexError
        else Except.ok (sequenceMax responseMask values)) =
        Except.ok (sequenceMax responseMask values) := fun values => if_neg hlen
  cases option
  case tokenK1 | tokenK2 | tokenK3 => exact ⟨none, rfl⟩
  case seqSumK1 | seqSumK2 | seqSumK3 =>
    refine ⟨some (rowSum _ responseMask), congrArg Except.ok (Prod.ext ?_ rfl)⟩
    funext i t
    exact rowSum_eq hmask (fun i t => RsOption.divergence fns _ (logRatio i t)) i
  case seqMeanK1 | seqMeanK2 | seqMeanK3 =>
    refine ⟨some (rowMean _ responseMask), congrArg Except.ok (Prod.ext ?_ rfl)⟩
    funext i t
    show rowMean _ responseMask i = _
    rw [rowMean_eq hmask]
    rfl
  case seqMaxK2 | seqMaxK3 =>
    unfold RsOption.stats RsOption.seqStat
    dsimp only [RsOption.isToken]
    rw [hmax]
    refine ⟨_, congrArg Except.ok (Prod.ext ?_ rfl)⟩
    funext i t
    exact sequenceMax_eq hmask (fun i t => RsOption.divergence fns _ (logRatio i t)) i

theorem exists_bounds_eq {c : Criterion K} (h : c.HasBounds) : ∃ bounds, c.bounds fns = .ok bounds ∧
      ∀ {bsz seqLength : Nat} (logRatio responseMask : Fin bsz → Fin seqLength → K) i t,
        inBounds bounds (c.option.statOf fns logRatio responseMask i t) =
          decide (c.Accepts fns logRatio responseMask i t) := by
  unfold Criterion.bounds
  by_cases hk1 : c.option.isK1
  · obtain ⟨lower, hlower⟩ := Option.isSome_iff_exists.1 (h hk1)
    rw [if_pos hk1, hlower]
    refine ⟨_, rfl, fun {_ _} logRatio responseMask i t => decide_eq_decide.2 ?_⟩
    unfold Criterion.Accepts
    simp only [if_pos hk1, hlower, Option.mem_def, Option.some.injEq, forall_eq']
  · rw [if_neg hk1]
    refine ⟨_, rfl, fun {_ _} logRatio responseMask i t => decide_eq_decide.2 ?_⟩
    unfold Criterion.Accepts
    simp only [if_neg hk1, Option.mem_def, reduceCtorEq, false_implies, implies_true, true_and]

theorem exists_computeRsMetrics (hvalid : ∃ i t, responseMask i t = 1) (option : RsOption)
    (rsStatistic : Fin bsz → Fin seqLength → K) (perSequenceValues : Option (Fin bsz → K))
    (threshold thresholdLower : K) (applyLowerThreshold : Bool) :
    ∃ metrics, computeRsMetrics fns option rsStatistic responseMask perSequenceValues threshold
      thresholdLower applyLowerThreshold = .ok metrics := by
  have hnot : ¬∀ i t, responseMask i t = 0 := by grind
  unfold computeRsMetrics
  rw [if_neg hnot]
  exact ⟨_, rfl⟩

section

variable (hmask : ∀ i t, responseMask i t = 0 ∨ responseMask i t = 1)
  (hvalid : ∃ i t, responseMask i t = 1) (logRatio : Fin bsz → Fin seqLength → K)
include hmask hvalid logRatio

theorem exists_optionStep {c : Criterion K} (hc : c.HasBounds) (st : MaskState bsz seqLength K) :
    ∃ metrics, optionStep fns logRatio responseMask st c = .ok {
      combinedMask := fun i t =>
        st.combinedMask i t * indicator (c.Accepts fns logRatio responseMask i t)
      metrics := metrics } := by
  have hlen : seqLength ≠ 0 := by
    obtain ⟨i, t, -⟩ := hvalid
    exact t.pos.ne'
  obtain ⟨bounds, hbounds, haccepts⟩ := exists_bounds_eq fns hc
  obtain ⟨perSequenceStat, hstats⟩ := stats_eq fns hmask hlen logRatio c.option
  obtain ⟨optionMetrics, hmetrics⟩ := exists_computeRsMetrics fns hvalid c.option
    (c.option.statOf fns logRatio responseMask) perSequenceStat bounds.2 (bounds.1.getD 0)
    c.option.isK1
  unfold optionStep
  simp only [hbounds, hstats, hmetrics, ok_bind, haccepts]
  exact ⟨_, rfl⟩

theorem exists_foldlM_optionStep (hcriteria : ∀ c ∈ criteria, c.HasBounds)
    (st : MaskState bsz seqLength K) :
    ∃ metrics, criteria.foldlM (optionStep fns logRatio responseMask) st = .ok {
      combinedMask := fun i t => st.combinedMask i t *
        indicator (∀ c ∈ criteria, c.Accepts fns logRatio responseMask i t)
      metrics := metrics } := by
  induction criteria generalizing st with
  | nil =>
    refine ⟨st.metrics, ?_⟩
    simp [indicator]
    rfl
  | cons c criteria ih =>
    obtain ⟨metrics, hstep⟩ := exists_optionStep fns hmask hvalid logRatio
      (hcriteria c List.mem_cons_self) st
    obtain ⟨metrics', hloop⟩ := ih (fun c hc => hcriteria c (List.mem_cons_of_mem _ hc)) {
      combinedMask := fun i t =>
        st.combinedMask i t * indicator (c.Accepts fns logRatio responseMask i t)
      metrics := metrics }
    refine ⟨metrics', ?_⟩
    rw [List.foldlM_cons, hstep, ok_bind, hloop]
    simp only [mul_assoc, indicator_and, List.forall_mem_cons, Bool.decide_and]

theorem exists_computeRolloutRejectionMask {rolloutRs : String} {rolloutRsThreshold : ThresholdSpec K}
    (hparse : parseOptions fns rolloutRs rolloutRsThreshold = .ok criteria) :
    ∃ metrics, computeRolloutRejectionMask fns logRatio responseMask (some rolloutRs)
      (some rolloutRsThreshold) = .ok (keptMask fns criteria logRatio responseMask, metrics) := by
  have hbsz : bsz ≠ 0 := by
    obtain ⟨i, -⟩ := hvalid
    exact i.pos.ne'
  obtain ⟨metrics, hloop⟩ := exists_foldlM_optionStep fns hmask hvalid logRatio
    (hasBounds_of_parseOptions hparse) { combinedMask := fun _ _ => 1, metrics := Dict.empty }
  have hkept : keptMask fns criteria logRatio responseMask = fun i t => responseMask i t *
      (1 * indicator (∀ c ∈ criteria, c.Accepts fns logRatio responseMask i t)) := by
    funext i t
    unfold keptMask
    rcases hmask i t with h | h
    · simp [h, indicator]
    · simp [h]
  unfold computeRolloutRejectionMask
  simp only [if_neg hbsz, hparse, ok_bind, hloop, hkept]
  exact ⟨_, rfl⟩

end

end Lemmas

/-! ## Top theorem -/

section TopTheorem

variable {K : Type} [Field K] [LinearOrder K] [IsStrictOrderedRing K] {bsz seqLength : Nat}
  {fns : FloatFns K}

variable {logRatio responseMask : Fin bsz → Fin seqLength → K} {criteria : List (Criterion K)}

omit [IsStrictOrderedRing K] in
theorem keptMask_eq_one_iff (i : Fin bsz) (t : Fin seqLength) :
    keptMask fns criteria logRatio responseMask i t = 1 ↔
      responseMask i t = 1 ∧ ∀ c ∈ criteria, c.Accepts fns logRatio responseMask i t := by
  unfold keptMask indicator
  split
  · grind
  · grind

theorem indicator_le_indicator {a b : Bool} (h : a → b) : (indicator a : K) ≤ indicator b := by
  cases a
  · cases b
    · exact le_rfl
    · exact zero_le_one
  · rw [h rfl]

theorem keptMask_le (hmask : ∀ i t, responseMask i t = 0 ∨ responseMask i t = 1) (i : Fin bsz)
    (t : Fin seqLength) : keptMask fns criteria logRatio responseMask i t ≤ responseMask i t := by
  have hle : keptMask fns criteria logRatio responseMask i t ≤
      indicator (decide (responseMask i t = 1)) :=
    indicator_le_indicator fun h => decide_eq_true (of_decide_eq_true h).1
  rcases hmask i t with h | h
  · simpa [h, indicator] using hle
  · simpa [h, indicator] using hle

theorem keptMask_anti {criteria' : List (Criterion K)} (h : criteria ⊆ criteria')
    (logRatio responseMask : Fin bsz → Fin seqLength → K) (i : Fin bsz) (t : Fin seqLength) :
    keptMask fns criteria' logRatio responseMask i t ≤
      keptMask fns criteria logRatio responseMask i t := by
  apply indicator_le_indicator
  intro hkept
  obtain ⟨hone, hall⟩ := of_decide_eq_true hkept
  exact decide_eq_true ⟨hone, fun c hc => hall c (h hc)⟩

theorem keptMask_perm {criteria' : List (Criterion K)} (h : criteria'.Perm criteria)
    (logRatio responseMask : Fin bsz → Fin seqLength → K) :
    keptMask fns criteria' logRatio responseMask = keptMask fns criteria logRatio responseMask := by
  funext i t
  exact le_antisymm (keptMask_anti h.symm.subset _ _ i t) (keptMask_anti h.subset _ _ i t)

omit [IsStrictOrderedRing K] in
theorem statOf_congr {logRatio' : Fin bsz → Fin seqLength → K}
    (h : ∀ i t, responseMask i t = 1 → logRatio' i t = logRatio i t) (option : RsOption)
    {i : Fin bsz} {t : Fin seqLength} (ht : responseMask i t = 1) :
    option.statOf fns logRatio' responseMask i t = option.statOf fns logRatio responseMask i t := by
  have hvalue : ∀ s ∈ Finset.univ.filter fun t => responseMask i t = 1,
      option.divergence fns (logRatio' i s) = option.divergence fns (logRatio i s) := by grind
  have hsum := Finset.sum_congr rfl hvalue
  have hmax : (Finset.univ.filter fun t => responseMask i t = 1).sup
        (fun t => ((option.divergence fns (logRatio' i t) : K) : WithBot K)) =
      (Finset.univ.filter fun t => responseMask i t = 1).sup
        fun t => ((option.divergence fns (logRatio i t) : K) : WithBot K) :=
    Finset.sup_congr rfl fun s hs => congrArg _ (hvalue s hs)
  cases option
  case tokenK1 | tokenK2 | tokenK3 => exact hvalue t (Finset.mem_filter.2 ⟨Finset.mem_univ t, ht⟩)
  case seqSumK1 | seqSumK2 | seqSumK3 => exact hsum
  case seqMeanK1 | seqMeanK2 | seqMeanK3 => exact congrArg (· / _) hsum
  case seqMaxK2 | seqMaxK3 => exact congrArg (WithBot.unbotD 0) hmax

omit [IsStrictOrderedRing K] in
theorem keptMask_congr {logRatio' : Fin bsz → Fin seqLength → K}
    (h : ∀ i t, responseMask i t = 1 → logRatio' i t = logRatio i t)
    (criteria : List (Criterion K)) :
    keptMask fns criteria logRatio' responseMask = keptMask fns criteria logRatio responseMask := by
  funext i t
  refine congrArg indicator (decide_eq_decide.2 (and_congr_right fun ht => ?_))
  refine forall_congr' fun c => imp_congr_right fun _ => ?_
  unfold Criterion.Accepts
  rw [statOf_congr h c.option ht]

end TopTheorem

/-- Functions for whole numbers; the exponential is that of 0, the logarithm that of 1. -/
def wholeFns : FloatFns ℚ where
  ofStr s := (pyInt s).toOption.map fun n : Int => (n : ℚ)
  str x := (toString x.num).toList
  exp x := 1 + x
  log x := x - 1
  sqrt x := x

end Verl.RolloutCorr
