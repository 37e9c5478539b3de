import Verl.Lib.PyStr
import Verl.RouterReplay.Layers

/-! # Layer numbers of the pipeline stages (`utils/megatron_utils.py`, `utils/model.py`)

`get_transformer_layer_offset` is the number of layers before a pipeline stage, in a formula of its
own beside `get_num_layers_to_build`.  `normalize_model_name` adds it to the number that a layer has
on its stage.

    ranks 2, chunks 2, 8 layers      chunk 0        chunk 1
    rank 0                           offset 0, 2    offset 4, 2
    rank 1                           offset 2, 2    offset 6, 2

* `Tiles`: the stages hold consecutive layers, chunk by chunk, and the offsets say so.
* `Offsets`: the configurations whose offsets do, on any process.
* `numbersLayers_iff`: these are all. -/

namespace Verl.LayerOffset

open RouterReplay List Option

/-! ## Algorithm -/

/-- What the code reads of the calling process. -/
structure ParallelState where
  /-- `is_pipeline_first_stage` with `ignore_virtual=False`, for a `vp_stage`. -/
  isPipelineFirstStage : Option Nat → Bool
  /-- `get_layer_offset` of the layout, for decoder layers and a `vp_stage`. -/
  layoutLayerOffset : Option Nat → Nat

/-- `a // b`. -/
def floorDiv (a b : Int) : Except PyErr Int :=
  if b = 0 then .error .zeroDivisionError else .ok (a.fdiv b)

/-- `assert vp_stage is not None`. -/
def requireStage : Option Nat → Except PyErr Int
  | some stage => .ok stage
  | none => .error (.assertionError
      "vp_stage must be provided if virtual pipeline model parallel size is set")

variable (parallelState : ParallelState) (cfg : TransformerConfig)

/-- The stages without a number of layers of their own. -/
def middlePipelineStages : Int :=
  cfg.pipelineModelParallelSize - (if cfg.numLayersInFirstPipelineStage.isSome then 1 else 0) -
    (if cfg.numLayersInLastPipelineStage.isSome then 1 else 0)

def middleNumLayers : Int :=
  cfg.numLayers - cfg.numLayersInFirstPipelineStage.getD 0 -
    cfg.numLayersInLastPipelineStage.getD 0

/-- `0 if num_layers is None else num_layers // vp_size`. -/
def layersPerChunk (numLayers : Option Nat) (vpSize : Nat) : Except PyErr Int :=
  match numLayers with
  | none => .ok 0
  | some n => floorDiv n vpSize

def unevenVirtualOffset (vpSize pipelineRank : Nat) (vpStage : Option Nat) :
    Except PyErr Int := do
  let stage ← requireStage vpStage
  let first ← layersPerChunk cfg.numLayersInFirstPipelineStage vpSize
  let last ← layersPerChunk cfg.numLayersInLastPipelineStage vpSize
  let middle ← floorDiv (middleNumLayers cfg) vpSize
  let totalVirtualChunks := first + middle + last
  if pipelineRank = 0 then return stage * totalVirtualChunks
  else do
    let perStage ← floorDiv middle (middlePipelineStages cfg)
    return stage * totalVirtualChunks + first + (pipelineRank - 1) * perStage

/-- `num_layers_per_pipeline_rank` of the middle stages. -/
def middleLayersPerRank : Except PyErr Int :=
  if 0 < middlePipelineStages cfg then
    floorDiv (middleNumLayers cfg) (middlePipelineStages cfg)
  else .ok 0

def unevenPlainOffset (pipelineRank : Nat) : Except PyErr Int := do
  let perRank ← middleLayersPerRank cfg
  let middlePipelineRank : Int :=
    if cfg.numLayersInFirstPipelineStage.isNone then pipelineRank else pipelineRank - 1
  return if pipelineRank = 0 then 0
    else middlePipelineRank * perRank + cfg.numLayersInFirstPipelineStage.getD 0

/-- `num_layers`, with the embedding and the loss as layers where they count. -/
def accountedLayers : Nat :=
  cfg.numLayers + (if cfg.accountForEmbeddingInPipelineSplit then 1 else 0) +
    (if cfg.accountForLossInPipelineSplit then 1 else 0)

def evenStageOffset (pipelineRank : Nat) (vpStage : Option Nat) : Except PyErr Int := do
  let perRank ← floorDiv (accountedLayers cfg) cfg.pipelineModelParallelSize
  match cfg.virtualPipelineModelParallelSize with
  | some vpSize => do
    let stage ← requireStage vpStage
    let perVirtualRank ← floorDiv perRank vpSize
    let totalVirtualChunks ← floorDiv (accountedLayers cfg) vpSize
    return stage * totalVirtualChunks + pipelineRank * perVirtualRank
  | none => return pipelineRank * perRank

/-- The embedding is no layer before the stages behind it. -/
def evenOffset (pipelineRank : Nat) (vpStage : Option Nat) : Except PyErr Int :=
  (evenStageOffset cfg pipelineRank vpStage).map fun offset =>
    if cfg.accountForEmbeddingInPipelineSplit && !parallelState.isPipelineFirstStage vpStage then
      offset - 1
    else offset

def getTransformerLayerOffset (pipelineRank : Nat) (vpStage : Option Nat) : Except PyErr Int :=
  if 1 < cfg.pipelineModelParallelSize then
    if cfg.pipelineModelParallelLayout.isSome then .ok (parallelState.layoutLayerOffset vpStage)
    else if cfg.numLayersInFirstPipelineStage.isSome || cfg.numLayersInLastPipelineStage.isSome then
      match cfg.virtualPipelineModelParallelSize with
      | some vpSize => unevenVirtualOffset cfg vpSize pipelineRank vpStage
      | none => unevenPlainOffset cfg pipelineRank
    else evenOffset parallelState cfg pipelineRank vpStage
  else .ok 0

/-- `str(n)`. -/
def pyStr : Int → List Char
  | .ofNat n => Nat.toDigits 10 n
  | .negSucc n => '-' :: Nat.toDigits 10 (n + 1)

/-- `s.isdigit()`, for ASCII. -/
def isDigits (s : List Char) : Bool := !s.isEmpty && s.all Char.isDigit

/-- `normalize_model_name`; the loop leaves `i` at the last part when no part is the layer name. -/
def normalizeModelName (name : List Char) (ppRank : Nat) (vppRank : Option Nat)
    (layerName : List Char) : Except PyErr (List Char) := do
  let layerOffset ← getTransformerLayerOffset parallelState cfg ppRank vppRank
  if layerName <:+: name then
    let splitName := name.splitOn '.'
    let layerNumIdx := min (splitName.idxOf layerName) (splitName.length - 1) + 1
    match splitName[layerNumIdx]? with
    | none => throw (.assertionError "split_name")
    | some layerNum => do
      pyAssert (isDigits layerNum) "split_name"
      let number ← pyInt layerNum
      return ['.'].intercalate (splitName.set layerNumIdx (pyStr (number + layerOffset)))
  else return name

/-! ## Stages -/

/-- The layers before a stage. -/
def stageStart (layers : Nat → Nat) (stage : Nat) : Nat := ∑ j ∈ Finset.range stage, layers j

/-- The stages hold `layers` many layers each, one stage behind the other. -/
structure Tiles (mg : Megatron) (current : Nat) (layers : Nat → Nat) : Prop where
  num : ∀ chunk < numChunks cfg, ∀ ppRank < cfg.pipelineModelParallelSize,
    getNumLayersToBuild mg cfg current (vpStage cfg chunk) (some ppRank) =
      .ok (layers (stageIdx cfg chunk ppRank) : Nat)
  offset : ∀ chunk < numChunks cfg, ∀ ppRank < cfg.pipelineModelParallelSize,
    getTransformerLayerOffset parallelState cfg ppRank (vpStage cfg chunk) =
      .ok (stageStart layers (stageIdx cfg chunk ppRank) : Nat)
  total : stageStart layers (numChunks cfg * cfg.pipelineModelParallelSize) = cfg.numLayers

/-- The name of a parameter of layer `number`. -/
def layerParam (before : List (List Char)) (layerName : List Char) (number : Nat)
    (after : List (List Char)) : List Char :=
  ['.'].intercalate (before ++ layerName :: Nat.toDigits 10 number :: after)

/-- The offsets tile the layers in the order of the stages, and every parameter of layer `i` of a
stage is renamed to the number that the layer has in the model. -/
def NumbersLayers (mg : Megatron) (current : Nat) : Prop :=
  ∃ layers, Tiles parallelState cfg mg current layers ∧
    ((List.range (numChunks cfg * cfg.pipelineModelParallelSize)).flatMap fun stage =>
      List.range' (stageStart layers stage) (layers stage)) = List.range cfg.numLayers ∧
    ∀ chunk < numChunks cfg, ∀ ppRank < cfg.pipelineModelParallelSize,
    ∀ i < layers (stageIdx cfg chunk ppRank), ∀ before layerName after,
      layerName ∉ before → (∀ part ∈ before ++ layerName :: after, '.' ∉ part) →
      normalizeModelName parallelState cfg (layerParam before layerName i after) ppRank
          (vpStage cfg chunk) layerName =
        .ok (layerParam before layerName (stageStart layers (stageIdx cfg chunk ppRank) + i) after)

/-! ## The number of layers of a stage -/

/-- Megatron's functions tell the first and the last chunk. -/
structure VpStages (mg : Megatron) : Prop where
  first : ∀ chunk < numChunks cfg,
    mg.isVpFirstStage (vpStage cfg chunk) cfg.virtualPipelineModelParallelSize = decide (chunk = 0)
  last : ∀ chunk < numChunks cfg,
    mg.isVpLastStage (vpStage cfg chunk) cfg.virtualPipelineModelParallelSize =
      decide (chunk + 1 = numChunks cfg)

/-- The sizes are positive, there is no layout, and the assertions of `get_num_layers_to_build` hold
for every stage. -/
structure Counted (mg : Megatron) (current : Nat) : Prop where
  ppSize : 1 ≤ cfg.pipelineModelParallelSize
  chunks : 1 ≤ numChunks cfg
  layout : cfg.pipelineModelParallelLayout = none
  vpStages : VpStages cfg mg
  num : ∀ chunk < numChunks cfg, ∀ ppRank < cfg.pipelineModelParallelSize,
    ∃ n, getNumLayersToBuild mg cfg current (vpStage cfg chunk) (some ppRank) = .ok n

/-- The first or the last stage has a number of layers of its own. -/
def Uneven : Prop :=
  (cfg.numLayersInFirstPipelineStage.isSome || cfg.numLayersInLastPipelineStage.isSome) = true

instance : Decidable (Uneven cfg) := by
  unfold Uneven
  infer_instance

def middleLayers : Int :=
  if 0 < middlePipelineStages cfg then middleNumLayers cfg / middlePipelineStages cfg else 0

/-- The layers of a rank of an uneven pipeline. -/
def unevenNum (ppRank : Nat) : Int :=
  let num := if ppRank = 0 then
      (cfg.numLayersInFirstPipelineStage.map Int.ofNat).getD (middleLayers cfg)
    else middleLayers cfg
  if ppRank + 1 = cfg.pipelineModelParallelSize then
    (cfg.numLayersInLastPipelineStage.map Int.ofNat).getD num
  else num

section Count

variable {cfg}

theorem layersPerRank_uneven (h : Uneven cfg) {ppRank : Nat} {num : Int} :
    layersPerRank cfg ppRank = .ok num ↔
      (cfg.accountForEmbeddingInPipelineSplit = false ∧
        cfg.accountForLossInPipelineSplit = false) ∧
      (0 < middlePipelineStages cfg → middleNumLayers cfg % middlePipelineStages cfg = 0) ∧
      num = unevenNum cfg ppRank := by
  have hstages : ((decide (middlePipelineStages cfg ≤ 0) ||
      middleNumLayers cfg % middlePipelineStages cfg == 0) = true) ↔
      (0 < middlePipelineStages cfg → middleNumLayers cfg % middlePipelineStages cfg = 0) := by
    grind
  unfold Uneven at h
  unfold layersPerRank
  rw [if_pos h]
  unfold unevenLayersPerRank
  simp only [bind_eq_ok, pyAssert_eq_ok]
  constructor
  · rintro ⟨-, hflags, -, hmod, hnum⟩
    rw [Bool.not_eq_true', Bool.or_eq_false_iff] at hflags
    exact ⟨hflags, hstages.1 hmod, (Except.ok.inj hnum).symm⟩
  · rintro ⟨hflags, hmod, rfl⟩
    refine ⟨(), ?_, (), hstages.2 hmod, rfl⟩
    rw [Bool.not_eq_true', Bool.or_eq_false_iff]
    exact hflags

theorem layersPerRank_even (h : ¬Uneven cfg) {ppRank : Nat} {num : Int} :
    layersPerRank cfg ppRank = .ok num ↔
      accountedLayers cfg % cfg.pipelineModelParallelSize = 0 ∧
      num = (accountedLayers cfg / cfg.pipelineModelParallelSize : Nat) := by
  unfold Uneven at h
  unfold layersPerRank
  rw [if_neg h]
  show (pyAssert (accountedLayers cfg % cfg.pipelineModelParallelSize == 0) _ >>= fun _ =>
    Except.ok ((accountedLayers cfg / cfg.pipelineModelParallelSize : Nat) : Int)) = _ ↔ _
  simp only [bind_eq_ok, pyAssert_eq_ok, beq_iff_eq]
  constructor
  · grind
  · rintro ⟨hmod, rfl⟩
    exact ⟨(), hmod, rfl⟩

theorem withoutStandalone_eq_ok {counted : Bool} {num n : Int} {msg : String} :
    withoutStandalone counted num msg = .ok n ↔
      (counted = true → 1 ≤ num) ∧ n = num - if counted then 1 else 0 := by
  unfold withoutStandalone
  cases counted with
  | false => simp [eq_comm]
  | true =>
    rw [if_pos rfl, bind_eq_ok]
    simp only [pyAssert_eq_ok, decide_eq_true_iff, forall_const]
    constructor
    · rintro ⟨-, hle, hn⟩
      exact ⟨by omega, (Except.ok.inj hn).symm⟩
    · rintro ⟨hle, rfl⟩
      exact ⟨(), by omega, rfl⟩

/-- The number of chunks that the layers of a rank are divided by. -/
def split (cfg : TransformerConfig) : Nat :=
  if 1 < cfg.pipelineModelParallelSize then numChunks cfg else 1

/-- The embedding is on the stage. -/
def hasEmbedding (cfg : TransformerConfig) (chunk ppRank : Nat) : Bool :=
  cfg.accountForEmbeddingInPipelineSplit && decide (chunk = 0) && ppRank == 0

/-- The loss is on the stage. -/
def hasLoss (cfg : TransformerConfig) (chunk ppRank : Nat) : Bool :=
  cfg.accountForLossInPipelineSplit && decide (chunk + 1 = numChunks cfg) &&
    ppRank + 1 == cfg.pipelineModelParallelSize

theorem getNumLayersToBuild_eq_ok {mg : Megatron} (hlayout : cfg.pipelineModelParallelLayout = none)
    (hvp : VpStages cfg mg) {current chunk : Nat} (hchunk : chunk < numChunks cfg) {ppRank : Nat}
    {n : Int} :
    getNumLayersToBuild mg cfg current (vpStage cfg chunk) (some ppRank) = .ok n ↔
      ∃ num, layersPerRank cfg ppRank = .ok num ∧ num % split cfg = 0 ∧
        (hasEmbedding cfg chunk ppRank = true → 1 ≤ num / split cfg) ∧
        (hasLoss cfg chunk ppRank = true → 1 ≤ num / split cfg -
          if hasEmbedding cfg chunk ppRank then 1 else 0) ∧
        n = num / split cfg - (if hasEmbedding cfg chunk ppRank then 1 else 0) -
          if hasLoss cfg chunk ppRank then 1 else 0 := by
  have hsplit : (if 1 < cfg.pipelineModelParallelSize then
      ((cfg.virtualPipelineModelParallelSize.getD 1 : Nat) : Int) else 1) = split cfg := by
    unfold split
    split <;> rfl
  unfold getNumLayersToBuild
  rw [hlayout]
  dsimp only
  rw [hvp.first chunk hchunk, hvp.last chunk hchunk, hsplit]
  simp only [bind_eq_ok, pyAssert_eq_ok, beq_iff_eq, withoutStandalone_eq_ok]
  constructor
  · rintro ⟨num, hnum, -, hmod, num', ⟨hemb, rfl⟩, hloss, rfl⟩
    exact ⟨num, hnum, hmod, hemb, hloss, rfl⟩
  · rintro ⟨num, hnum, hmod, hemb, hloss, rfl⟩
    exact ⟨num, hnum, (), hmod, _, ⟨hemb, rfl⟩, hloss, rfl⟩

end Count

/-! ## Running sums -/

variable (layers : Nat → Nat) {g : Nat → Nat} {n b : Nat}

theorem stageStart_succ (stage : Nat) :
    stageStart layers (stage + 1) = stageStart layers stage + layers stage :=
  Finset.sum_range_succ layers stage

theorem flatMap_stages (n : Nat) :
    ((range n).flatMap fun stage => range' (stageStart layers stage) (layers stage)) =
      range (stageStart layers n) := by
  induction n with
  | zero => rfl
  | succ n ih =>
    rw [range_succ, flatMap_append, ih, flatMap_singleton, stageStart_succ,
      range_eq_range', range_eq_range', ← range'_append_range', Nat.zero_add]

/-- The chunks are alike. -/
theorem stageStart_mod (g : Nat → Nat) {n r : Nat} (hr : r ≤ n) (chunk : Nat) :
    stageStart (fun stage => g (stage % n)) (chunk * n + r) =
      chunk * stageStart g n + stageStart g r := by
  have hlow : ∀ r ≤ n, stageStart (fun stage => g (stage % n)) r = stageStart g r := by
    intro r hr
    apply Finset.sum_congr rfl
    intro j hj
    have hj := Finset.mem_range.1 hj
    show g (j % n) = g j
    rw [Nat.mod_eq_of_lt (by omega)]
  induction chunk with
  | zero => rw [Nat.zero_mul, Nat.zero_add, Nat.zero_mul, Nat.zero_add, hlow r hr]
  | succ chunk ih =>
    have hstart : (chunk + 1) * n + r = n + (chunk * n + r) := by
      rw [Nat.succ_mul]
      omega
    have hsplit : stageStart (fun stage => g (stage % n)) (n + (chunk * n + r)) =
        stageStart (fun stage => g (stage % n)) n +
          stageStart (fun stage => g (stage % n)) (chunk * n + r) := by
      simp [stageStart, Finset.sum_range_add]
    rw [hstart, hsplit, hlow n le_rfl, Nat.succ_mul]
    omega

/-- A first stage, equal ones, and a last stage. -/
theorem stageStart_uneven (hmid : ∀ r, 1 ≤ r → r + 1 < n → g r = b) :
    ∀ r, r + 1 < n → stageStart g (r + 1) = g 0 + r * b := by
  intro r
  induction r with
  | zero =>
    intro _
    rw [stageStart_succ, Nat.zero_mul]
    exact Nat.zero_add (g 0)
  | succ r ih =>
    intro hr
    rw [stageStart_succ, hmid (r + 1) (by omega) hr, Nat.succ_mul]
    omega

theorem stageStart_uneven_total (hn : 2 ≤ n) (hmid : ∀ r, 1 ≤ r → r + 1 < n → g r = b) :
    stageStart g n = g 0 + (n - 2) * b + g (n - 1) := by
  obtain ⟨k, rfl⟩ : ∃ k, n = k + 2 := ⟨n - 2, by omega⟩
  rw [stageStart_succ, stageStart_uneven hmid k (by omega)]
  rfl

/-! ## Uneven pipelines -/

section UnevenPipeline

variable {cfg}

variable {V ppRank c a current b : Nat} {mg : Megatron}

theorem floorDiv_mul {a b : Int} (hb : 0 < b) : floorDiv (b * a) b = .ok a := by
  unfold floorDiv
  rw [if_neg (by omega), Int.fdiv_eq_ediv_of_nonneg _ (by omega),
    Int.mul_ediv_cancel_left _ (by omega)]

theorem unevenNum_first (hpp : 1 < cfg.pipelineModelParallelSize) : unevenNum cfg 0 =
      (cfg.numLayersInFirstPipelineStage.map Int.ofNat).getD (middleLayers cfg) := by
  unfold unevenNum
  rw [if_neg (by omega), if_pos rfl]

theorem unevenNum_middle (hpos : 1 ≤ ppRank) (hlt : ppRank + 1 < cfg.pipelineModelParallelSize) :
    unevenNum cfg ppRank = middleLayers cfg := by
  unfold unevenNum
  rw [if_neg (by omega), if_neg (by omega)]

theorem unevenNum_last (hpp : 1 < cfg.pipelineModelParallelSize) :
    unevenNum cfg (cfg.pipelineModelParallelSize - 1) =
      (cfg.numLayersInLastPipelineStage.map Int.ofNat).getD (middleLayers cfg) := by
  unfold unevenNum
  rw [if_pos (by omega), if_neg (by omega)]

/-- Some stage is a middle one. -/
theorem exists_middleStage (hpp : 1 < cfg.pipelineModelParallelSize)
    (hmiddle : 0 < middlePipelineStages cfg) :
    ∃ ppRank < cfg.pipelineModelParallelSize, unevenNum cfg ppRank = middleLayers cfg := by
  unfold middlePipelineStages at hmiddle
  cases hfirst : cfg.numLayersInFirstPipelineStage with
  | none =>
    refine ⟨0, by omega, ?_⟩
    rw [unevenNum_first hpp, hfirst]
    rfl
  | some f =>
    cases hlast : cfg.numLayersInLastPipelineStage with
    | none =>
      refine ⟨cfg.pipelineModelParallelSize - 1, by omega, ?_⟩
      rw [unevenNum_last hpp, hlast]
      rfl
    | some l =>
      rw [hfirst, hlast] at hmiddle
      simp only [isSome_some, if_true] at hmiddle
      exact ⟨1, by omega, unevenNum_middle le_rfl (by omega)⟩

/-- The offset of a stage of an interleaved pipeline, as the code has it. -/
theorem unevenVirtualOffset_eq (hV : 1 ≤ V) {a b c : Int}
    (hfirst : ∀ f, cfg.numLayersInFirstPipelineStage = some f → (f : Int) = V * a)
    (hlast : ∀ l, cfg.numLayersInLastPipelineStage = some l → (l : Int) = V * c)
    (hmiddle : middleNumLayers cfg = V * (middlePipelineStages cfg * b))
    (hstages : 0 < middlePipelineStages cfg) (chunk ppRank : Nat) :
    unevenVirtualOffset cfg V ppRank (some chunk) = .ok
      (chunk * ((if cfg.numLayersInFirstPipelineStage.isSome then a else 0) +
          middlePipelineStages cfg * b +
          (if cfg.numLayersInLastPipelineStage.isSome then c else 0)) +
        if ppRank = 0 then 0
        else (if cfg.numLayersInFirstPipelineStage.isSome then a else 0) + (ppRank - 1) * b) := by
  have hVpos : (0 : Int) < V := by omega
  have hchunk : ∀ (numLayers : Option Nat) (x : Int),
      (∀ n, numLayers = some n → (n : Int) = V * x) →
      layersPerChunk numLayers V = .ok (if numLayers.isSome then x else 0) := by
    intro numLayers x hx
    cases numLayers with
    | none => rfl
    | some n =>
      show floorDiv n V = _
      rw [hx n rfl, floorDiv_mul hVpos]
      rfl
  unfold unevenVirtualOffset
  rw [hchunk _ a hfirst, hchunk _ c hlast, hmiddle, floorDiv_mul hVpos]
  show (if ppRank = 0 then _ else _) = _
  by_cases hrank : ppRank = 0
  · rw [if_pos hrank, if_pos hrank, add_zero]
    rfl
  · rw [if_neg hrank, if_neg hrank, floorDiv_mul hstages]
    show Except.ok _ = _
    rw [add_assoc]

theorem unevenPlainOffset_eq {m : Int} (hmiddle : middleNumLayers cfg = middlePipelineStages cfg * m)
    (hzero : ¬0 < middlePipelineStages cfg → m = 0) (ppRank : Nat) :
    unevenPlainOffset cfg ppRank = .ok (if ppRank = 0 then 0 else
      (if cfg.numLayersInFirstPipelineStage.isNone then (ppRank : Int) else ppRank - 1) * m +
        cfg.numLayersInFirstPipelineStage.getD 0) := by
  have hper : middleLayersPerRank cfg = .ok m := by
    unfold middleLayersPerRank
    by_cases hpos : 0 < middlePipelineStages cfg
    · rw [if_pos hpos, hmiddle, floorDiv_mul hpos]
    · rw [if_neg hpos, hzero hpos]
  unfold unevenPlainOffset
  rw [hper]
  rfl

/-- The layers of the first, of a middle and of the last stage of an uneven pipeline, in one
chunk. -/
structure Parts (cfg : TransformerConfig) (a b c : Nat) : Prop where
  first : (cfg.numLayersInFirstPipelineStage.map Int.ofNat).getD (middleLayers cfg) =
    numChunks cfg * a
  middle : middleLayers cfg = numChunks cfg * b
  last : (cfg.numLayersInLastPipelineStage.map Int.ofNat).getD (middleLayers cfg) =
    numChunks cfg * c

/-- The layers of a stage of one chunk. -/
def partOf (cfg : TransformerConfig) (a b c ppRank : Nat) : Nat :=
  if ppRank = 0 then a else if ppRank + 1 = cfg.pipelineModelParallelSize then c else b

theorem unevenNum_eq (h : Parts cfg a b c) (hpp : 1 < cfg.pipelineModelParallelSize)
    (hrank : ppRank < cfg.pipelineModelParallelSize) :
    unevenNum cfg ppRank = numChunks cfg * partOf cfg a b c ppRank := by
  unfold partOf
  by_cases hzero : ppRank = 0
  · rw [if_pos hzero, hzero, unevenNum_first hpp, h.first]
  · rw [if_neg hzero]
    by_cases hend : ppRank + 1 = cfg.pipelineModelParallelSize
    · rw [if_pos hend, ← h.last, ← unevenNum_last hpp, ← hend]
      rfl
    · rw [if_neg hend, unevenNum_middle (by omega) (by omega), h.middle]

theorem stageStart_parts (cfg : TransformerConfig) (a b c : Nat)
    (hpp : 1 < cfg.pipelineModelParallelSize)
    (hrank : ppRank < cfg.pipelineModelParallelSize) (chunk : Nat) :
    stageStart (fun stage => partOf cfg a b c (stage % cfg.pipelineModelParallelSize))
        (stageIdx cfg chunk ppRank) =
      chunk * (a + (cfg.pipelineModelParallelSize - 2) * b + c) +
        if ppRank = 0 then 0 else a + (ppRank - 1) * b := by
  have hmid : ∀ r, 1 ≤ r → r + 1 < cfg.pipelineModelParallelSize → partOf cfg a b c r = b := by
    intro r hpos hlt
    unfold partOf
    rw [if_neg (by omega), if_neg (by omega)]
  have hlast : partOf cfg a b c (cfg.pipelineModelParallelSize - 1) = c := by
    unfold partOf
    rw [if_neg (by omega), if_pos (by omega)]
  have htotal := stageStart_uneven_total hpp hmid
  rw [hlast] at htotal
  unfold stageIdx
  rw [stageStart_mod _ hrank.le, htotal]
  congr 1
  by_cases hzero : ppRank = 0
  · rw [hzero]
    rfl
  · obtain ⟨r, rfl⟩ := Nat.exists_eq_succ_of_ne_zero hzero
    rw [stageStart_uneven hmid r hrank]
    rfl

theorem stageStart_parts_total (cfg : TransformerConfig) (a b c : Nat)
    (hpp : 1 < cfg.pipelineModelParallelSize) (n : Nat) :
    stageStart (fun stage => partOf cfg a b c (stage % cfg.pipelineModelParallelSize))
        (n * cfg.pipelineModelParallelSize) =
      n * (a + (cfg.pipelineModelParallelSize - 2) * b + c) := by
  have h := stageStart_parts cfg a b c hpp (by omega : 0 < cfg.pipelineModelParallelSize) n
  rwa [if_pos rfl] at h

theorem middlePipelineStages_nonneg (hpp : 1 < cfg.pipelineModelParallelSize) :
    0 ≤ middlePipelineStages cfg := by
  unfold middlePipelineStages
  split <;> split <;> omega

/-- What the assertions say about an uneven pipeline. -/
theorem Counted.uneven (h : Counted cfg mg current) (huneven : Uneven cfg) :
    (cfg.accountForEmbeddingInPipelineSplit = false ∧ cfg.accountForLossInPipelineSplit = false) ∧
    (0 < middlePipelineStages cfg → middleNumLayers cfg % middlePipelineStages cfg = 0) ∧
    ∀ chunk < numChunks cfg, ∀ ppRank < cfg.pipelineModelParallelSize,
      unevenNum cfg ppRank % split cfg = 0 ∧
      getNumLayersToBuild mg cfg current (vpStage cfg chunk) (some ppRank) =
        .ok (unevenNum cfg ppRank / split cfg) := by
  have hstage : ∀ chunk < numChunks cfg, ∀ ppRank < cfg.pipelineModelParallelSize,
      ((cfg.accountForEmbeddingInPipelineSplit = false ∧
        cfg.accountForLossInPipelineSplit = false) ∧
      (0 < middlePipelineStages cfg → middleNumLayers cfg % middlePipelineStages cfg = 0)) ∧
      unevenNum cfg ppRank % split cfg = 0 ∧
      getNumLayersToBuild mg cfg current (vpStage cfg chunk) (some ppRank) =
        .ok (unevenNum cfg ppRank / split cfg) := by
    intro chunk hchunk ppRank hrank
    obtain ⟨n, hn⟩ := h.num chunk hchunk ppRank hrank
    obtain ⟨num, hnum, hmod, -, -, hval⟩ :=
      (getNumLayersToBuild_eq_ok h.layout h.vpStages hchunk).1 hn
    obtain ⟨hflags, hmiddle, rfl⟩ := (layersPerRank_uneven huneven).1 hnum
    refine ⟨⟨hflags, hmiddle⟩, hmod, ?_⟩
    rw [hn, hval]
    simp [hasEmbedding, hasLoss, hflags.1, hflags.2]
  have hzero := hstage 0 h.chunks 0 h.ppSize
  exact ⟨hzero.1.1, hzero.1.2, fun chunk hchunk ppRank hrank => (hstage chunk hchunk ppRank hrank).2⟩

theorem numChunks_of_some (hvp : cfg.virtualPipelineModelParallelSize = some V) :
    numChunks cfg = V := by
  unfold numChunks
  rw [hvp]
  rfl

theorem numChunks_of_none (hvp : cfg.virtualPipelineModelParallelSize = none) :
    numChunks cfg = 1 := by
  unfold numChunks
  rw [hvp]
  rfl

theorem vpStage_of_some (hvp : cfg.virtualPipelineModelParallelSize = some V)
    (chunk : Nat) : vpStage cfg chunk = some chunk := by
  unfold vpStage
  rw [hvp]
  rfl

theorem split_eq (hpp : 1 < cfg.pipelineModelParallelSize) : split cfg = numChunks cfg :=
  if_pos hpp

theorem exists_mul_of_mod {x : Int} {n : Nat} (hx : 0 ≤ x) (hmod : x % n = 0) :
    ∃ k : Nat, x = n * k := by
  obtain ⟨k, rfl⟩ := Int.eq_ofNat_of_zero_le hx
  obtain ⟨q, hq⟩ := Nat.dvd_of_mod_eq_zero (by exact_mod_cast hmod : k % n = 0)
  exact ⟨q, by exact_mod_cast hq⟩

/-- An uneven pipeline with enough layers is cut into parts. -/
theorem Counted.exists_parts (h : Counted cfg mg current)
    (huneven : Uneven cfg) (hpp : 1 < cfg.pipelineModelParallelSize)
    (henough : 0 ≤ middleNumLayers cfg) : ∃ a b c, Parts cfg a b c := by
  obtain ⟨-, -, hstages⟩ := h.uneven huneven
  rw [split_eq hpp] at hstages
  have hmiddle : 0 ≤ middleLayers cfg := by
    unfold middleLayers
    split
    · exact Int.ediv_nonneg henough (by omega)
    · exact le_rfl
  have hnonneg : ∀ n : Option Nat, 0 ≤ (n.map Int.ofNat).getD (middleLayers cfg) := by
    intro n
    cases n with
    | none => exact hmiddle
    | some n => exact Int.natCast_nonneg n
  have hfirst := (hstages 0 h.chunks 0 h.ppSize).1
  have hlast := (hstages 0 h.chunks (cfg.pipelineModelParallelSize - 1) (by omega)).1
  rw [unevenNum_first hpp] at hfirst
  rw [unevenNum_last hpp] at hlast
  have hmod : middleLayers cfg % numChunks cfg = 0 := by
    by_cases hpos : 0 < middlePipelineStages cfg
    · obtain ⟨ppRank, hrank, hnum⟩ := exists_middleStage hpp hpos
      rw [← hnum]
      exact (hstages 0 h.chunks ppRank hrank).1
    · unfold middleLayers
      rw [if_neg hpos, Int.zero_emod]
  obtain ⟨a, ha⟩ := exists_mul_of_mod (hnonneg _) hfirst
  obtain ⟨b, hb⟩ := exists_mul_of_mod hmiddle hmod
  obtain ⟨c, hc⟩ := exists_mul_of_mod (hnonneg _) hlast
  exact ⟨a, b, c, ha, hb, hc⟩

theorem middleNumLayers_eq (hparts : Parts cfg a b c)
    (hmod : 0 < middlePipelineStages cfg → middleNumLayers cfg % middlePipelineStages cfg = 0)
    (hnone : ¬0 < middlePipelineStages cfg → middleNumLayers cfg = 0) :
    middleNumLayers cfg = numChunks cfg * (middlePipelineStages cfg * b) := by
  have hmiddle := hparts.middle
  unfold middleLayers at hmiddle
  by_cases hpos : 0 < middlePipelineStages cfg
  · rw [if_pos hpos] at hmiddle
    calc middleNumLayers cfg
        = middlePipelineStages cfg * (middleNumLayers cfg / middlePipelineStages cfg) :=
          (Int.mul_ediv_cancel' (Int.dvd_of_emod_eq_zero (hmod hpos))).symm
      _ = numChunks cfg * (middlePipelineStages cfg * b) := by rw [hmiddle]; ring
  · grind

/-- The part of the first or the last stage, for a stage that has its own number of layers, and for
one that is a middle stage. -/
theorem Parts.cases (h : Parts cfg a b c) (hchunks : 1 ≤ numChunks cfg) {own : Option Nat} {x : Nat}
    (hx : (own.map Int.ofNat).getD (middleLayers cfg) = numChunks cfg * x) :
    (∀ n, own = some n → (n : Int) = numChunks cfg * x) ∧ (own = none → x = b) := by
  constructor
  · grind
  · rintro rfl
    have heq : (numChunks cfg : Int) * x = numChunks cfg * b := hx.symm.trans h.middle
    have := mul_left_cancel₀ (by omega : (numChunks cfg : Int) ≠ 0) heq
    omega

section

variable (hparts : Parts cfg a b c) (hchunks : 1 ≤ numChunks cfg) (huneven : Uneven cfg)
  (hpp : 1 < cfg.pipelineModelParallelSize)
include hparts hchunks huneven hpp

theorem chunkTotal_eq : (if cfg.numLayersInFirstPipelineStage.isSome then (a : Int) else 0) +
        middlePipelineStages cfg * b +
        (if cfg.numLayersInLastPipelineStage.isSome then (c : Int) else 0) =
      (a + (cfg.pipelineModelParallelSize - 2) * b + c : Nat) := by
  obtain ⟨k, hk⟩ : ∃ k, cfg.pipelineModelParallelSize = k + 2 :=
    ⟨cfg.pipelineModelParallelSize - 2, by omega⟩
  obtain ⟨-, ha⟩ := hparts.cases hchunks hparts.first
  obtain ⟨-, hc⟩ := hparts.cases hchunks hparts.last
  unfold Uneven at huneven
  unfold middlePipelineStages
  rw [hk]
  cases hfirst : cfg.numLayersInFirstPipelineStage with
  | none =>
    cases hlast : cfg.numLayersInLastPipelineStage with
    | none =>
      rw [hfirst, hlast] at huneven
      cases huneven
    | some l =>
      rw [ha hfirst]
      simp
      ring
  | some f =>
    cases hlast : cfg.numLayersInLastPipelineStage with
    | none =>
      rw [hc hlast]
      simp
      ring
    | some l =>
      simp
      omega

theorem numLayers_eq (hmiddle : middleNumLayers cfg = numChunks cfg * (middlePipelineStages cfg * b)) :
    cfg.numLayers =
      numChunks cfg * (a + (cfg.pipelineModelParallelSize - 2) * b + c) := by
  have hown : ∀ (n : Option Nat) (x : Nat), (∀ f, n = some f → (f : Int) = numChunks cfg * x) →
      ((n.getD 0 : Nat) : Int) = numChunks cfg * if n.isSome then (x : Int) else 0 := by
    intro n x hx
    cases n with
    | none => simp
    | some f => exact hx f rfl
  have hfirst := hown _ a (hparts.cases hchunks hparts.first).1
  have hlast := hown _ c (hparts.cases hchunks hparts.last).1
  have htotal := chunkTotal_eq hparts hchunks huneven hpp
  have hsum : (cfg.numLayers : Int) = middleNumLayers cfg +
      (cfg.numLayersInFirstPipelineStage.getD 0 : Nat) +
      (cfg.numLayersInLastPipelineStage.getD 0 : Nat) := by
    unfold middleNumLayers
    ring
  have : (cfg.numLayers : Int) =
      (numChunks cfg * (a + (cfg.pipelineModelParallelSize - 2) * b + c) : Nat) := by grind
  exact_mod_cast this

end

variable {parallelState : ParallelState}

theorem getTransformerLayerOffset_uneven (hpp : 1 < cfg.pipelineModelParallelSize)
    (hlayout : cfg.pipelineModelParallelLayout = none) (huneven : Uneven cfg) (ppRank : Nat)
    (vpStage : Option Nat) :
    getTransformerLayerOffset parallelState cfg ppRank vpStage =
      match cfg.virtualPipelineModelParallelSize with
      | some vpSize => unevenVirtualOffset cfg vpSize ppRank vpStage
      | none => unevenPlainOffset cfg ppRank := by
  unfold Uneven at huneven
  unfold getTransformerLayerOffset
  rw [if_pos hpp, hlayout, if_neg (by simp), if_pos huneven]

/-- The conditions of an uneven pipeline: enough layers, all of them on the stages, and no virtual
stages where the formula takes the first stage for one with its own number. -/
def UnevenOffsets (cfg : TransformerConfig) : Prop :=
  0 ≤ middleNumLayers cfg ∧
  (middlePipelineStages cfg = 0 →
    middleNumLayers cfg = 0 ∧ cfg.virtualPipelineModelParallelSize = none) ∧
  (cfg.virtualPipelineModelParallelSize.isSome = true →
    cfg.numLayersInFirstPipelineStage = none → middleNumLayers cfg = 0)

theorem tiles_uneven (h : Counted cfg mg current)
    (huneven : Uneven cfg) (hpp : 1 < cfg.pipelineModelParallelSize) (hcond : UnevenOffsets cfg) :
    ∃ layers, Tiles parallelState cfg mg current layers := by
  obtain ⟨henough, hnone, hvirtual⟩ := hcond
  obtain ⟨-, hmod, hstages⟩ := h.uneven huneven
  obtain ⟨a, b, c, hparts⟩ := h.exists_parts huneven hpp henough
  have hchunkPos : (0 : Int) < numChunks cfg := by have := h.chunks; omega
  have hmiddle := middleNumLayers_eq hparts hmod fun hpos =>
    (hnone (by have := middlePipelineStages_nonneg hpp; omega)).1
  have htotal := chunkTotal_eq hparts h.chunks huneven hpp
  refine ⟨fun stage => partOf cfg a b c (stage % cfg.pipelineModelParallelSize), ?_, ?_, ?_⟩
  · intro chunk hchunk ppRank hrank
    have hmodRank : stageIdx cfg chunk ppRank % cfg.pipelineModelParallelSize = ppRank := by
      unfold stageIdx
      rw [Nat.mul_add_mod_self_right, Nat.mod_eq_of_lt hrank]
    rw [(hstages chunk hchunk ppRank hrank).2, split_eq hpp, hmodRank,
      unevenNum_eq hparts hpp hrank, Int.mul_ediv_cancel_left _ (by omega)]
  · intro chunk hchunk ppRank hrank
    rw [stageStart_parts cfg a b c hpp hrank, getTransformerLayerOffset_uneven hpp h.layout huneven]
    obtain ⟨hfirst, ha⟩ := hparts.cases h.chunks hparts.first
    obtain ⟨hlast, -⟩ := hparts.cases h.chunks hparts.last
    cases hvp : cfg.virtualPipelineModelParallelSize with
    | some V =>
      have hV := numChunks_of_some hvp
      have hpos : 0 < middlePipelineStages cfg := by
        have := middlePipelineStages_nonneg hpp
        by_contra hzero
        have hnovp := (hnone (by omega)).2
        rw [hvp] at hnovp
        cases hnovp
      rw [hV] at hfirst hlast hmiddle
      have hstage := vpStage_of_some hvp chunk
      dsimp only
      rw [hstage, unevenVirtualOffset_eq (by omega) hfirst hlast hmiddle hpos, htotal]
      congr 1
      by_cases hzero : ppRank = 0
      · grind
      · obtain ⟨r, rfl⟩ := Nat.exists_eq_succ_of_ne_zero hzero
        cases hf : cfg.numLayersInFirstPipelineStage with
        | some f =>
          push_cast
          simp
        | none =>
          -- no layers are left for the middle stages
          have hb : b = 0 := by
            have hzeroMiddle := hmiddle.symm.trans (hvirtual (by rw [hvp]; rfl) hf)
            rcases mul_eq_zero.1 hzeroMiddle with hV0 | hprod
            · omega
            · grind
          rw [ha hf, hb]
          push_cast
          simp
    | none =>
      have hone := numChunks_of_none hvp
      have hzeroChunk : chunk = 0 := by omega
      have hzeroB : ¬0 < middlePipelineStages cfg → (b : Int) = 0 := by
        intro hneg
        have hb := hparts.middle
        unfold middleLayers at hb
        rw [hone] at hb
        omega
      rw [hone, Nat.cast_one, one_mul] at hmiddle
      dsimp only
      rw [unevenPlainOffset_eq hmiddle hzeroB, hzeroChunk]
      congr 1
      by_cases hzero : ppRank = 0
      · grind
      · obtain ⟨r, rfl⟩ := Nat.exists_eq_succ_of_ne_zero hzero
        cases hf : cfg.numLayersInFirstPipelineStage with
        | some f =>
          have hfa := hfirst f hf
          rw [hone] at hfa
          simp [hfa]
          ring
        | none =>
          rw [ha hf]
          simp
          ring
  · rw [stageStart_parts_total cfg a b c hpp]
    exact (numLayers_eq hparts h.chunks huneven hpp hmiddle).symm

/-- Without middle stages, the first and the last stage are the only ones. -/
theorem two_of_middlePipelineStages_eq_zero (hpp : 1 < cfg.pipelineModelParallelSize)
    (hzero : middlePipelineStages cfg = 0) :
    ∃ f l, cfg.numLayersInFirstPipelineStage = some f ∧
      cfg.numLayersInLastPipelineStage = some l ∧ cfg.pipelineModelParallelSize = 2 := by
  unfold middlePipelineStages at hzero
  cases hf : cfg.numLayersInFirstPipelineStage with
  | none =>
    rw [hf] at hzero
    simp at hzero
    split at hzero <;> omega
  | some f =>
    cases hl : cfg.numLayersInLastPipelineStage with
    | none =>
      rw [hl] at hzero
      simp at hzero
      omega
    | some l =>
      rw [hf] at hzero
      simp at hzero
      exact ⟨f, l, rfl, rfl, by omega⟩

section OfTiles

variable {mg : Megatron} {current : Nat} {layers : Nat → Nat} (h : Counted cfg mg current)
  (huneven : Uneven cfg) (hpp : 1 < cfg.pipelineModelParallelSize)
  (htiles : Tiles parallelState cfg mg current layers)

include h huneven hpp htiles

theorem unevenNum_of_tiles {ppRank : Nat} (hrank : ppRank < cfg.pipelineModelParallelSize) :
    unevenNum cfg ppRank = numChunks cfg * layers (stageIdx cfg 0 ppRank) := by
  obtain ⟨-, -, hstages⟩ := h.uneven huneven
  rw [split_eq hpp] at hstages
  obtain ⟨hdvd, hok⟩ := hstages 0 h.chunks ppRank hrank
  rw [htiles.num 0 h.chunks ppRank hrank] at hok
  rw [Except.ok.inj hok, Int.mul_ediv_cancel' (Int.dvd_of_emod_eq_zero hdvd)]

/-- The formula of virtual stages divides by the number of middle stages. -/
theorem virtual_eq_none_of_tiles (hzero : middlePipelineStages cfg = 0) :
    cfg.virtualPipelineModelParallelSize = none := by
  cases hvp : cfg.virtualPipelineModelParallelSize with
  | none => rfl
  | some V =>
    have hoffset := htiles.offset 0 h.chunks 1 (by omega)
    rw [getTransformerLayerOffset_uneven hpp h.layout huneven, hvp] at hoffset
    obtain ⟨stage, -, hoffset⟩ := bind_eq_ok.1 hoffset
    obtain ⟨first, -, hoffset⟩ := bind_eq_ok.1 hoffset
    obtain ⟨last, -, hoffset⟩ := bind_eq_ok.1 hoffset
    obtain ⟨middle, -, hoffset⟩ := bind_eq_ok.1 hoffset
    rw [hzero] at hoffset
    cases hoffset

theorem middleNumLayers_of_two (hzero : middlePipelineStages cfg = 0) :
    middleNumLayers cfg = 0 := by
  obtain ⟨f, l, hf, hl, htwo⟩ := two_of_middlePipelineStages_eq_zero hpp hzero
  have hone := numChunks_of_none (virtual_eq_none_of_tiles h huneven hpp htiles hzero)
  have hfirst := unevenNum_of_tiles h huneven hpp htiles (show 0 < _ from by omega)
  have hlast := unevenNum_of_tiles h huneven hpp htiles
    (show cfg.pipelineModelParallelSize - 1 < _ from by omega)
  have htotal := htiles.total
  rw [unevenNum_first hpp, hf, hone] at hfirst
  rw [unevenNum_last hpp, hl, hone, htwo] at hlast
  rw [hone, htwo] at htotal
  simp only [map_some, getD_some, stageIdx, Nat.zero_mul,
    Nat.zero_add, Nat.reduceSub, Int.ofNat_eq_natCast] at hfirst hlast
  have hsum : stageStart layers (1 * 2) = layers 0 + layers 1 := by
    simp [stageStart, Finset.sum_range_succ]
  unfold middleNumLayers
  rw [hf, hl]
  simp only [getD_some]
  omega

theorem middleNumLayers_of_tiles (hpos : 0 < middlePipelineStages cfg) :
    middleNumLayers cfg = middlePipelineStages cfg * middleLayers cfg ∧ 0 ≤ middleLayers cfg := by
  obtain ⟨-, hmod, -⟩ := h.uneven huneven
  constructor
  · unfold middleLayers
    rw [if_pos hpos, Int.mul_ediv_cancel' (Int.dvd_of_emod_eq_zero (hmod hpos))]
  · obtain ⟨ppRank, hrank, hmid⟩ := exists_middleStage hpp hpos
    rw [← hmid, unevenNum_of_tiles h huneven hpp htiles hrank]
    exact Int.mul_nonneg (Int.natCast_nonneg _) (Int.natCast_nonneg _)

/-- With virtual stages the second stage has the offset of the first one, if that has no number of
its own. -/
theorem middleNumLayers_of_first_none {V : Nat}
    (hvp : cfg.virtualPipelineModelParallelSize = some V)
    (hfirst : cfg.numLayersInFirstPipelineStage = none) (hpos : 0 < middlePipelineStages cfg) :
    middleNumLayers cfg = 0 := by
  have hV := h.chunks
  have hVeq := numChunks_of_some hvp
  have hstage := vpStage_of_some hvp 0
  have hoffset := htiles.offset 0 h.chunks 1 hpp
  have hzero := unevenNum_of_tiles h huneven hpp htiles (show 0 < _ from by omega)
  rw [unevenNum_first hpp, hfirst, map_none, getD_none, hVeq] at hzero
  have hlastV : ∀ l, cfg.numLayersInLastPipelineStage = some l →
      (l : Int) = V * layers (stageIdx cfg 0 (cfg.pipelineModelParallelSize - 1)) := by
    intro l hl
    have hlast := unevenNum_of_tiles h huneven hpp htiles
      (show cfg.pipelineModelParallelSize - 1 < _ from by omega)
    rwa [unevenNum_last hpp, hl, hVeq] at hlast
  have hfirstV : ∀ f, cfg.numLayersInFirstPipelineStage = some f → (f : Int) = V * 0 := by grind
  have hmiddle : middleNumLayers cfg =
      V * (middlePipelineStages cfg * layers (stageIdx cfg 0 0)) := by
    rw [(middleNumLayers_of_tiles h huneven hpp htiles hpos).1, hzero]
    ring
  rw [getTransformerLayerOffset_uneven hpp h.layout huneven, hvp] at hoffset
  dsimp only at hoffset
  rw [hstage, unevenVirtualOffset_eq (by omega) hfirstV hlastV hmiddle hpos] at hoffset
  have heq := Except.ok.inj hoffset
  have hstart : stageStart layers (stageIdx cfg 0 1) = layers (stageIdx cfg 0 0) := by
    simp [stageStart, stageIdx]
  rw [hstart] at heq
  simp at heq
  rw [hmiddle, ← heq]
  simp

theorem unevenOffsets_of_tiles : UnevenOffsets cfg := by
  have hnone : ¬0 < middlePipelineStages cfg → middlePipelineStages cfg = 0 := by
    have := middlePipelineStages_nonneg hpp
    omega
  refine ⟨?_, fun hzero => ⟨middleNumLayers_of_two h huneven hpp htiles hzero,
    virtual_eq_none_of_tiles h huneven hpp htiles hzero⟩, fun hvirtual hfirst => ?_⟩
  · by_cases hpos : 0 < middlePipelineStages cfg
    · obtain ⟨hmul, hnonneg⟩ := middleNumLayers_of_tiles h huneven hpp htiles hpos
      rw [hmul]
      exact Int.mul_nonneg hpos.le hnonneg
    · rw [middleNumLayers_of_two h huneven hpp htiles (hnone hpos)]
  · obtain ⟨V, hvp⟩ := isSome_iff_exists.1 hvirtual
    by_cases hpos : 0 < middlePipelineStages cfg
    · exact middleNumLayers_of_first_none h huneven hpp htiles hvp hfirst hpos
    · exact middleNumLayers_of_two h huneven hpp htiles (hnone hpos)

end OfTiles

end UnevenPipeline

/-! ## Even pipelines -/

section EvenPipeline

variable {cfg} {parallelState : ParallelState} {mg : Megatron} {current : Nat}

theorem getTransformerLayerOffset_even (hpp : 1 < cfg.pipelineModelParallelSize)
    (hlayout : cfg.pipelineModelParallelLayout = none) (heven : ¬Uneven cfg) (ppRank : Nat)
    (vpStage : Option Nat) :
    getTransformerLayerOffset parallelState cfg ppRank vpStage =
      evenOffset parallelState cfg ppRank vpStage := by
  unfold Uneven at heven
  unfold getTransformerLayerOffset
  rw [if_pos hpp, hlayout, if_neg (by simp), if_neg heven]

/-- The stages of an even pipeline have `k` layers each, with the embedding and the loss. -/
theorem Counted.even (h : Counted cfg mg current) (heven : ¬Uneven cfg)
    (hpp : 1 < cfg.pipelineModelParallelSize) :
    ∃ k, accountedLayers cfg = cfg.pipelineModelParallelSize * (numChunks cfg * k) ∧
      ∀ chunk < numChunks cfg, ∀ ppRank < cfg.pipelineModelParallelSize,
        (hasLoss cfg chunk ppRank = true →
          (1 : Int) ≤ k - if hasEmbedding cfg chunk ppRank then 1 else 0) ∧
        getNumLayersToBuild mg cfg current (vpStage cfg chunk) (some ppRank) =
          .ok (k - (if hasEmbedding cfg chunk ppRank then 1 else 0) -
            if hasLoss cfg chunk ppRank then 1 else 0) := by
  have hstage : ∀ chunk < numChunks cfg, ∀ ppRank < cfg.pipelineModelParallelSize,
      (accountedLayers cfg % cfg.pipelineModelParallelSize = 0 ∧
        accountedLayers cfg / cfg.pipelineModelParallelSize % numChunks cfg = 0) ∧
      (hasLoss cfg chunk ppRank = true → (1 : Int) ≤
        (accountedLayers cfg / cfg.pipelineModelParallelSize / numChunks cfg : Nat) -
          if hasEmbedding cfg chunk ppRank then 1 else 0) ∧
      getNumLayersToBuild mg cfg current (vpStage cfg chunk) (some ppRank) =
        .ok ((accountedLayers cfg / cfg.pipelineModelParallelSize / numChunks cfg : Nat) -
          (if hasEmbedding cfg chunk ppRank then 1 else 0) -
          if hasLoss cfg chunk ppRank then 1 else 0) := by
    intro chunk hchunk ppRank hrank
    obtain ⟨n, hn⟩ := h.num chunk hchunk ppRank hrank
    obtain ⟨num, hnum, hmod, -, hloss, hval⟩ :=
      (getNumLayersToBuild_eq_ok h.layout h.vpStages hchunk).1 hn
    obtain ⟨hdvd, rfl⟩ := (layersPerRank_even heven).1 hnum
    rw [split_eq hpp] at hmod hloss hval
    refine ⟨⟨hdvd, by exact_mod_cast hmod⟩, hloss, ?_⟩
    rw [hn, hval]
    rfl
  obtain ⟨⟨hdvd, hchunks⟩, -⟩ := hstage 0 h.chunks 0 h.ppSize
  refine ⟨accountedLayers cfg / cfg.pipelineModelParallelSize / numChunks cfg, ?_,
    fun chunk hchunk ppRank hrank => (hstage chunk hchunk ppRank hrank).2⟩
  rw [Nat.mul_div_cancel' (Nat.dvd_of_mod_eq_zero hchunks),
    Nat.mul_div_cancel' (Nat.dvd_of_mod_eq_zero hdvd)]

theorem evenStageOffset_eq {k : Nat} (h : Counted cfg mg current)
    (hk : accountedLayers cfg = cfg.pipelineModelParallelSize * (numChunks cfg * k)) {chunk : Nat}
    (hchunk : chunk < numChunks cfg) (ppRank : Nat) :
    evenStageOffset cfg ppRank (vpStage cfg chunk) = .ok (stageIdx cfg chunk ppRank * k : Nat) := by
  have hpp : (0 : Int) < cfg.pipelineModelParallelSize := by have := h.ppSize; omega
  have hV : (0 : Int) < numChunks cfg := by have := h.chunks; omega
  have hrank : floorDiv (accountedLayers cfg) cfg.pipelineModelParallelSize =
      .ok (numChunks cfg * k : Nat) := by
    rw [hk, Nat.cast_mul, floorDiv_mul hpp]
  have hchunks : floorDiv (accountedLayers cfg) (numChunks cfg) =
      .ok (cfg.pipelineModelParallelSize * k : Nat) := by
    rw [hk, Nat.mul_left_comm, Nat.cast_mul, floorDiv_mul hV]
  have hpart : floorDiv (numChunks cfg * k : Nat) (numChunks cfg) = .ok (k : Int) := by
    rw [Nat.cast_mul, floorDiv_mul hV]
  unfold evenStageOffset stageIdx
  rw [hrank, ok_bind]
  cases hvp : cfg.virtualPipelineModelParallelSize with
  | some V =>
    have hVeq := numChunks_of_some hvp
    have hstage := vpStage_of_some hvp chunk
    rw [hVeq] at hpart hchunks
    dsimp only
    rw [hstage, hVeq, hpart, hchunks]
    show Except.ok _ = Except.ok _
    congr 1
    push_cast
    ring
  | none =>
    have hone := numChunks_of_none hvp
    have hzero : chunk = 0 := by omega
    rw [hone, hzero]
    show Except.ok _ = Except.ok _
    congr 1
    push_cast
    ring

section

variable {chunk ppRank : Nat} (hchunk : chunk < numChunks cfg)
  (hrank : ppRank < cfg.pipelineModelParallelSize)
include hchunk hrank

/-- The last stage is the last rank of the last chunk. -/
theorem stageIdx_last_iff :
    stageIdx cfg chunk ppRank + 1 = numChunks cfg * cfg.pipelineModelParallelSize ↔
      chunk + 1 = numChunks cfg ∧ ppRank + 1 = cfg.pipelineModelParallelSize := by
  unfold stageIdx
  have hle := mul_add_le hchunk cfg.pipelineModelParallelSize
  constructor
  · intro heq
    have hlast : ppRank + 1 = cfg.pipelineModelParallelSize := by omega
    refine ⟨?_, hlast⟩
    by_contra hne
    have hlt : chunk + 2 ≤ numChunks cfg := by omega
    have hle2 := Nat.mul_le_mul_right cfg.pipelineModelParallelSize hlt
    rw [Nat.add_mul] at hle2
    omega
  · grind

theorem stageIdx_lt :
    stageIdx cfg chunk ppRank < numChunks cfg * cfg.pipelineModelParallelSize := by
  have hle := mul_add_le hchunk cfg.pipelineModelParallelSize
  unfold stageIdx
  omega

end

section

variable (h : Counted cfg mg current) (heven : ¬Uneven cfg)
  (hpp : 1 < cfg.pipelineModelParallelSize)
include h heven hpp

theorem tiles_even (hembedding : cfg.accountForEmbeddingInPipelineSplit = false) :
    ∃ layers, Tiles parallelState cfg mg current layers := by
  obtain ⟨k, hk, hstages⟩ := h.even heven hpp
  have hnoEmbedding : ∀ chunk ppRank, hasEmbedding cfg chunk ppRank = false := by
    simp [hasEmbedding, hembedding]
  set layers : Nat → Nat := fun stage =>
    if cfg.accountForLossInPipelineSplit = true ∧
      stage + 1 = numChunks cfg * cfg.pipelineModelParallelSize then k - 1 else k with hlayers
  have hstart : ∀ stage, stage + 1 ≤ numChunks cfg * cfg.pipelineModelParallelSize →
      stageStart layers stage = stage * k := by
    intro stage
    induction stage with
    | zero =>
      intro _
      rw [Nat.zero_mul]
      rfl
    | succ stage ih =>
      intro hle
      have hlayer : layers stage = k := if_neg fun hlast => by omega
      rw [stageStart_succ, ih (by omega), hlayer, Nat.succ_mul]
  refine ⟨layers, ?_, ?_, ?_⟩
  · intro chunk hchunk ppRank hrank
    obtain ⟨hpos, hnum⟩ := hstages chunk hchunk ppRank hrank
    have hlast := stageIdx_last_iff hchunk hrank
    have hloss : hasLoss cfg chunk ppRank = true ↔ cfg.accountForLossInPipelineSplit = true ∧
        stageIdx cfg chunk ppRank + 1 = numChunks cfg * cfg.pipelineModelParallelSize := by
      unfold hasLoss
      rw [hlast, Bool.and_eq_true, Bool.and_eq_true, decide_eq_true_iff, beq_iff_eq, and_assoc]
    rw [hnum]
    congr 1
    by_cases hcase : hasLoss cfg chunk ppRank = true
    · grind
    · grind
  · intro chunk hchunk ppRank hrank
    have hlt := stageIdx_lt hchunk hrank
    rw [getTransformerLayerOffset_even hpp h.layout heven, hstart _ hlt]
    unfold evenOffset
    rw [evenStageOffset_eq h hk hchunk, hembedding]
    rfl
  · obtain ⟨t, ht⟩ : ∃ t, numChunks cfg * cfg.pipelineModelParallelSize = t + 1 := by
      have := stageIdx_lt h.chunks h.ppSize
      exact ⟨numChunks cfg * cfg.pipelineModelParallelSize - 1, by omega⟩
    have hN : accountedLayers cfg = t * k + k := by grind
    unfold accountedLayers at hN
    rw [hembedding] at hN
    rw [ht, stageStart_succ, hstart t (by omega)]
    show t * k + (if cfg.accountForLossInPipelineSplit = true ∧
      t + 1 = numChunks cfg * cfg.pipelineModelParallelSize then k - 1 else k) = _
    cases hloss : cfg.accountForLossInPipelineSplit with
    | false =>
      rw [hloss] at hN
      simp at hN ⊢
      omega
    | true =>
      have hpos := (hstages (numChunks cfg - 1) (by have := h.chunks; omega)
        (cfg.pipelineModelParallelSize - 1) (by omega)).1 (by
          have := h.chunks
          unfold hasLoss
          rw [hloss, Bool.true_and, Bool.and_eq_true, decide_eq_true_iff, beq_iff_eq]
          omega)
      rw [hloss] at hN
      rw [if_pos ⟨rfl, ht.symm⟩]
      simp at hN
      omega

/-- With the embedding as a layer, the offsets of the first two ranks cannot both be right on one
process. -/
theorem embedding_eq_false_of_tiles {layers : Nat → Nat}
    (htiles : Tiles parallelState cfg mg current layers) :
    cfg.accountForEmbeddingInPipelineSplit = false := by
  by_contra hembedding
  rw [Bool.not_eq_false] at hembedding
  obtain ⟨k, hk, hstages⟩ := h.even heven hpp
  have hfirst := htiles.offset 0 h.chunks 0 h.ppSize
  have hsecond := htiles.offset 0 h.chunks 1 hpp
  have hnum := (hstages 0 h.chunks 0 h.ppSize).2
  rw [htiles.num 0 h.chunks 0 h.ppSize] at hnum
  have hemb : hasEmbedding cfg 0 0 = true := by
    unfold hasEmbedding
    rw [hembedding]
    rfl
  have hloss : hasLoss cfg 0 0 = false := by
    have hne : (0 + 1 == cfg.pipelineModelParallelSize) = false := by grind
    unfold hasLoss
    rw [hne, Bool.and_false]
  rw [hemb, hloss] at hnum
  have hcount := Except.ok.inj hnum
  rw [getTransformerLayerOffset_even hpp h.layout heven] at hfirst hsecond
  unfold evenOffset at hfirst hsecond
  rw [evenStageOffset_eq h hk h.chunks, hembedding] at hfirst hsecond
  have h0 := Except.ok.inj hfirst
  have h1 := Except.ok.inj hsecond
  have hidx0 : stageIdx cfg 0 0 = 0 := by simp [stageIdx]
  have hidx1 : stageIdx cfg 0 1 = 1 := by simp [stageIdx]
  have hstart : stageStart layers 1 = layers 0 := by simp [stageStart]
  have hzero : stageStart layers 0 = 0 := rfl
  rw [hidx0] at hcount
  rw [hidx0] at h0
  rw [hidx1] at h1
  have hcount : ((layers 0 : Nat) : Int) = k - 1 - 0 := hcount
  cases hprocess : parallelState.isPipelineFirstStage (vpStage cfg 0) with
  | false =>
    rw [hprocess] at h0
    have h0 : ((0 * k : Nat) : Int) - 1 = (0 : Nat) := h0
    omega
  | true =>
    rw [hprocess] at h1
    have h1 : ((1 * k : Nat) : Int) = (layers 0 : Nat) := h1
    omega

end

end EvenPipeline

/-! ## A single stage -/

section SingleStage

variable {cfg} {parallelState : ParallelState} {mg : Megatron} {current : Nat}

/-- A pipeline of one stage has offset 0 for every chunk, so the first one must have all layers. -/
def SingleOffsets (cfg : TransformerConfig) : Prop :=
  (Uneven cfg → cfg.numLayersInLastPipelineStage.getD (cfg.numLayersInFirstPipelineStage.getD 0) =
    cfg.numLayers) ∧
  (1 < numChunks cfg → cfg.numLayers = 0 ∧ cfg.accountForEmbeddingInPipelineSplit = false ∧
    cfg.accountForLossInPipelineSplit = false)

theorem unevenNum_single (huneven : Uneven cfg) (hpp : cfg.pipelineModelParallelSize = 1) :
    unevenNum cfg 0 =
      (cfg.numLayersInLastPipelineStage.getD (cfg.numLayersInFirstPipelineStage.getD 0) : Nat) := by
  have hmiddle : middleLayers cfg = 0 := by
    unfold middleLayers middlePipelineStages
    unfold Uneven at huneven
    rw [if_neg]
    cases hf : cfg.numLayersInFirstPipelineStage with
    | some f => simp; split <;> omega
    | none =>
      rw [hf, isSome_none, Bool.false_or] at huneven
      rw [if_pos huneven]
      omega
  unfold unevenNum
  rw [if_pos (by omega), hmiddle]
  cases cfg.numLayersInLastPipelineStage with
  | some l => rfl
  | none =>
    cases cfg.numLayersInFirstPipelineStage with
    | some f => rfl
    | none => rfl

/-- The layers of the stage, with the embedding and the loss. -/
theorem Counted.single (h : Counted cfg mg current) (hpp : cfg.pipelineModelParallelSize = 1) :
    ∃ num : Nat,
      (Uneven cfg →
        num = cfg.numLayersInLastPipelineStage.getD (cfg.numLayersInFirstPipelineStage.getD 0) ∧
        cfg.accountForEmbeddingInPipelineSplit = false ∧
        cfg.accountForLossInPipelineSplit = false) ∧
      (¬Uneven cfg → num = accountedLayers cfg) ∧
      ∀ chunk < numChunks cfg, getNumLayersToBuild mg cfg current (vpStage cfg chunk) (some 0) =
        .ok (num - (if hasEmbedding cfg chunk 0 then 1 else 0) -
          if hasLoss cfg chunk 0 then 1 else 0) := by
  have hsplit : split cfg = 1 := if_neg (by omega)
  have hchunk : ∀ chunk < numChunks cfg, ∃ num, layersPerRank cfg 0 = .ok num ∧
      getNumLayersToBuild mg cfg current (vpStage cfg chunk) (some 0) =
        .ok (num - (if hasEmbedding cfg chunk 0 then 1 else 0) -
          if hasLoss cfg chunk 0 then 1 else 0) := by
    intro chunk hchunk
    obtain ⟨n, hn⟩ := h.num chunk hchunk 0 h.ppSize
    obtain ⟨num, hnum, -, -, -, hval⟩ :=
      (getNumLayersToBuild_eq_ok h.layout h.vpStages hchunk).1 hn
    rw [hsplit, Nat.cast_one, Int.ediv_one] at hval
    exact ⟨num, hnum, by rw [hn, hval]⟩
  obtain ⟨num, hnum, -⟩ := hchunk 0 h.chunks
  have hall : ∀ chunk < numChunks cfg,
      getNumLayersToBuild mg cfg current (vpStage cfg chunk) (some 0) =
        .ok (num - (if hasEmbedding cfg chunk 0 then 1 else 0) -
          if hasLoss cfg chunk 0 then 1 else 0) := by grind
  by_cases huneven : Uneven cfg
  · obtain ⟨hflags, -, rfl⟩ := (layersPerRank_uneven huneven).1 hnum
    rw [unevenNum_single huneven hpp] at hall
    exact ⟨_, fun _ => ⟨rfl, hflags⟩, fun hneg => absurd huneven hneg, hall⟩
  · obtain ⟨-, rfl⟩ := (layersPerRank_even huneven).1 hnum
    rw [hpp, Nat.div_one] at hall
    exact ⟨_, fun hpos => absurd hpos huneven, fun _ => rfl, hall⟩

theorem getTransformerLayerOffset_single (hpp : cfg.pipelineModelParallelSize = 1) (ppRank : Nat)
    (vpStage : Option Nat) :
    getTransformerLayerOffset parallelState cfg ppRank vpStage = .ok 0 :=
  if_neg (by omega)

theorem stageStart_const (n stage : Nat) : stageStart (fun _ => n) stage = stage * n := by
  unfold stageStart
  rw [Finset.sum_const, Finset.card_range, smul_eq_mul]

theorem tiles_single (h : Counted cfg mg current) (hpp : cfg.pipelineModelParallelSize = 1)
    (hcond : SingleOffsets cfg) : ∃ layers, Tiles parallelState cfg mg current layers := by
  obtain ⟨huneven, hchunks⟩ := hcond
  obtain ⟨num, hnumUneven, hnumEven, hstages⟩ := h.single hpp
  have hzero : ∀ chunk < numChunks cfg, chunk * cfg.numLayers = 0 := by grind
  refine ⟨fun _ => cfg.numLayers, ?_, ?_, ?_⟩
  · intro chunk hchunk ppRank hrank
    obtain rfl : ppRank = 0 := by omega
    rw [hstages chunk hchunk]
    congr 1
    by_cases hu : Uneven cfg
    · obtain ⟨hnum, hemb, hloss⟩ := hnumUneven hu
      rw [huneven hu] at hnum
      simp [hasEmbedding, hasLoss, hemb, hloss, hnum]
    · have hnum := hnumEven hu
      unfold accountedLayers at hnum
      by_cases hone : 1 < numChunks cfg
      · obtain ⟨hL, hemb, hloss⟩ := hchunks hone
        simp [hemb] at hnum
        simp [hasEmbedding, hasLoss, hemb, hloss, hL, hnum]
      · obtain rfl : chunk = 0 := by omega
        have hlast : numChunks cfg = 1 := by omega
        simp only [hasEmbedding, hasLoss, hlast, hpp, hnum]
        cases cfg.accountForEmbeddingInPipelineSplit <;>
          cases cfg.accountForLossInPipelineSplit <;> simp
  · intro chunk hchunk ppRank hrank
    obtain rfl : ppRank = 0 := by omega
    rw [getTransformerLayerOffset_single hpp, stageStart_const, stageIdx, hpp, Nat.mul_one,
      Nat.add_zero, hzero chunk hchunk]
    rfl
  · rw [stageStart_const, hpp, Nat.mul_one]
    obtain ⟨n, hn⟩ : ∃ n, numChunks cfg = n + 1 := ⟨numChunks cfg - 1, by have := h.chunks; omega⟩
    rw [hn, Nat.succ_mul, hzero n (by omega), Nat.zero_add]

theorem singleOffsets_of_tiles (h : Counted cfg mg current)
    (hpp : cfg.pipelineModelParallelSize = 1) {layers : Nat → Nat}
    (htiles : Tiles parallelState cfg mg current layers) : SingleOffsets cfg := by
  obtain ⟨num, hnumUneven, hnumEven, hstages⟩ := h.single hpp
  have hidx : ∀ chunk, stageIdx cfg chunk 0 = chunk := by
    simp [stageIdx, hpp]
  have hstart : ∀ chunk < numChunks cfg, stageStart layers chunk = 0 := by
    intro chunk hchunk
    have hoffset := htiles.offset chunk hchunk 0 h.ppSize
    rw [getTransformerLayerOffset_single hpp, hidx] at hoffset
    have := Except.ok.inj hoffset
    omega
  have hcount : ∀ chunk < numChunks cfg, (layers chunk : Int) =
      num - (if hasEmbedding cfg chunk 0 then 1 else 0) - if hasLoss cfg chunk 0 then 1 else 0 := by
    intro chunk hchunk
    have hnum := htiles.num chunk hchunk 0 h.ppSize
    rw [hstages chunk hchunk, hidx] at hnum
    exact (Except.ok.inj hnum).symm
  obtain ⟨n, hn⟩ : ∃ n, numChunks cfg = n + 1 := ⟨numChunks cfg - 1, by have := h.chunks; omega⟩
  have hlast : layers n = cfg.numLayers := by
    have htotal := htiles.total
    rw [hpp, Nat.mul_one, hn, stageStart_succ, hstart n (by omega), Nat.zero_add] at htotal
    exact htotal
  have hend := hcount n (by omega)
  constructor
  · intro hu
    obtain ⟨hnum, hemb, hloss⟩ := hnumUneven hu
    simp [hasEmbedding, hasLoss, hemb, hloss] at hend
    omega
  · intro hone
    have hfirst := hcount 0 (by omega)
    have hzero : layers 0 = 0 := by
      have h1 := hstart 1 hone
      rw [stageStart_succ] at h1
      omega
    have hlossFirst : hasLoss cfg 0 0 = false := by
      unfold hasLoss
      rw [decide_eq_false (by omega), Bool.and_false, Bool.false_and]
    have hembEnd : hasEmbedding cfg n 0 = false := by
      unfold hasEmbedding
      rw [decide_eq_false (by omega), Bool.and_false, Bool.false_and]
    rw [hlossFirst] at hfirst
    rw [hembEnd] at hend
    by_cases hu : Uneven cfg
    · obtain ⟨-, hemb, hloss⟩ := hnumUneven hu
      simp [hasEmbedding, hemb] at hend hfirst
      exact ⟨by omega, hemb, hloss⟩
    · have hnum := hnumEven hu
      unfold accountedLayers at hnum
      have hembFirst : hasEmbedding cfg 0 0 = cfg.accountForEmbeddingInPipelineSplit := by
        simp [hasEmbedding]
      have hlossEnd : hasLoss cfg n 0 = cfg.accountForLossInPipelineSplit := by
        simp [hasLoss, hn, hpp]
      rw [hembFirst] at hfirst
      rw [hlossEnd] at hend
      cases hemb : cfg.accountForEmbeddingInPipelineSplit <;>
        cases hloss : cfg.accountForLossInPipelineSplit <;>
        simp [hemb, hloss] at hnum hfirst hend ⊢ <;> omega

end SingleStage

/-! ## Names -/

section Names

variable {cfg} {parallelState : ParallelState}

theorem infix_intercalate {sep : Char} {part : List Char} {parts : List (List Char)}
    (h : part ∈ parts) : part <:+: [sep].intercalate parts := by
  induction parts with
  | nil => cases h
  | cons first rest ih =>
    cases rest with
    | nil =>
      rw [mem_singleton.1 h]
      simp
    | cons second rest =>
      have hcons : [sep].intercalate (first :: second :: rest) =
          first ++ [sep] ++ [sep].intercalate (second :: rest) := by
        simp [List.intercalate]
      rw [hcons]
      rcases mem_cons.1 h with rfl | h
      · exact (prefix_append part [sep]).isInfix.trans
          (prefix_append _ _).isInfix
      · exact (ih h).trans (suffix_append _ _).isInfix

theorem isDigits_toDigits (n : Nat) : isDigits (Nat.toDigits 10 n) = true := by
  have hdigit : ∀ c ∈ Nat.toDigits 10 n, c.isDigit = true := fun c hc =>
    Nat.isDigit_of_mem_toDigits (by omega) (by omega) hc
  unfold isDigits
  rw [Bool.and_eq_true, Bool.not_eq_true', isEmpty_eq_false_iff]
  exact ⟨Nat.toDigits_ne_nil, all_eq_true.mpr hdigit⟩

/-- The offset is added to the number behind the layer name. -/
theorem normalizeModelName_layerParam {ppRank : Nat} {vppRank : Option Nat} {start : Nat}
    (hoffset : getTransformerLayerOffset parallelState cfg ppRank vppRank = .ok (start : Nat))
    {before after : List (List Char)} {layerName : List Char} (hbefore : layerName ∉ before)
    (hparts : ∀ part ∈ before ++ layerName :: after, '.' ∉ part) (i : Nat) :
    normalizeModelName parallelState cfg (layerParam before layerName i after) ppRank vppRank
      layerName = .ok (layerParam before layerName (start + i) after) := by
  have hdots : ∀ part ∈ before ++ layerName :: Nat.toDigits 10 i :: after, '.' ∉ part := by
    intro part hpart
    rw [mem_append, mem_cons, mem_cons] at hpart
    rcases hpart with hpart | rfl | rfl | hpart
    · exact hparts part (mem_append_left _ hpart)
    · exact hparts part (by simp)
    · exact not_mem_toDigits rfl i
    · exact hparts part (by simp [hpart])
  have hsplit : (layerParam before layerName i after).splitOn '.' =
      before ++ layerName :: Nat.toDigits 10 i :: after :=
    splitOn_intercalate '.' hdots (by simp)
  have hinfix : layerName <:+: layerParam before layerName i after :=
    infix_intercalate (by simp)
  have hidx : (before ++ layerName :: Nat.toDigits 10 i :: after).idxOf layerName =
      before.length := by grind
  have hmin : min before.length
      ((before ++ layerName :: Nat.toDigits 10 i :: after).length - 1) = before.length := by
    simp
  have hget : (before ++ layerName :: Nat.toDigits 10 i :: after)[before.length + 1]? =
      some (Nat.toDigits 10 i) := by simp
  have hset : (before ++ layerName :: Nat.toDigits 10 i :: after).set (before.length + 1)
      (pyStr ((i : Int) + (start : Nat))) =
      before ++ layerName :: Nat.toDigits 10 (start + i) :: after := by
    have hstr : pyStr ((i : Int) + (start : Nat)) = Nat.toDigits 10 (start + i) := by
      rw [Int.add_comm]
      rfl
    rw [hstr]
    simp
  unfold normalizeModelName
  rw [hoffset, ok_bind, if_pos hinfix, hsplit]
  dsimp only
  rw [hidx, hmin, hget]
  dsimp only
  rw [isDigits_toDigits, pyAssert_true, ok_bind, pyInt_toDigits, ok_bind, hset]
  rfl

end Names

/-! ## All configurations -/

section All

variable {cfg} {parallelState : ParallelState} {mg : Megatron} {current : Nat}

/-- The configurations whose offsets number the layers, on any process. -/
def Offsets (cfg : TransformerConfig) : Prop :=
  if 1 < cfg.pipelineModelParallelSize then
    if Uneven cfg then UnevenOffsets cfg else cfg.accountForEmbeddingInPipelineSplit = false
  else SingleOffsets cfg

theorem exists_tiles_iff (parallelState : ParallelState) (h : Counted cfg mg current) :
    (∃ layers, Tiles parallelState cfg mg current layers) ↔ Offsets cfg := by
  unfold Offsets
  by_cases hpp : 1 < cfg.pipelineModelParallelSize
  · rw [if_pos hpp]
    by_cases huneven : Uneven cfg
    · rw [if_pos huneven]
      constructor
      · rintro ⟨layers, htiles⟩
        exact unevenOffsets_of_tiles h huneven hpp htiles
      · exact tiles_uneven h huneven hpp
    · rw [if_neg huneven]
      constructor
      · rintro ⟨layers, htiles⟩
        exact embedding_eq_false_of_tiles h huneven hpp htiles
      · exact tiles_even h huneven hpp
  · have hone : cfg.pipelineModelParallelSize = 1 := by
      have := h.ppSize
      omega
    rw [if_neg hpp]
    constructor
    · rintro ⟨layers, htiles⟩
      exact singleOffsets_of_tiles h hone htiles
    · exact tiles_single h hone

theorem numbersLayers_iff (h : Counted cfg mg current) :
    NumbersLayers parallelState cfg mg current ↔ Offsets cfg := by
  rw [← exists_tiles_iff parallelState h]
  constructor
  · rintro ⟨layers, htiles, -⟩
    exact ⟨layers, htiles⟩
  · rintro ⟨layers, htiles⟩
    refine ⟨layers, htiles, ?_, ?_⟩
    · rw [flatMap_stages, htiles.total]
    · intro chunk hchunk ppRank hrank i _ before layerName after hbefore hparts
      exact normalizeModelName_layerParam (htiles.offset chunk hchunk ppRank hrank) hbefore hparts i

end All

/-! ## Two ranks with two chunks -/

section TwoRanks

/-- Megatron, as far as the number of layers needs it. -/
def twoRanks : Megatron where
  isVpFirstStage vpStage _ := vpStage.getD 0 == 0
  isVpLastStage vpStage vpSize := vpStage.getD 0 + 1 == vpSize.getD 1
  getTransformerLayerOffset _ _ _ := 0
  getScheduleTable _ _ _ := []
  scatterToSequenceParallelRegion _ _ xs := xs
  gatherFromSequenceParallelRegion shards := shards.flatten

/-- The process of the first rank. -/
def firstRank : ParallelState where
  isPipelineFirstStage vpStage := vpStage.getD 0 == 0
  layoutLayerOffset _ := 0

def twoByTwo (numLayers : Nat) (numLayersInLastPipelineStage : Option Nat) : TransformerConfig where
  numLayers := numLayers
  pipelineModelParallelSize := 2
  virtualPipelineModelParallelSize := some 2
  numLayersInFirstPipelineStage := none
  numLayersInLastPipelineStage := numLayersInLastPipelineStage
  accountForEmbeddingInPipelineSplit := false
  accountForLossInPipelineSplit := false
  pipelineModelParallelLayout := none
  moeLayerFreq := .int 1
  moeRouterTopk := 1
  fp8 := none
  microbatchGroupSizePerVpStage := 2

theorem counted_twoByTwo {numLayers : Nat} {last : Option Nat}
    (h : ∀ ppRank < 2, ∃ num, layersPerRank (twoByTwo numLayers last) ppRank = .ok num ∧
      num % 2 = 0) : Counted (twoByTwo numLayers last) twoRanks 0 := by
  have hvp : VpStages (twoByTwo numLayers last) twoRanks := by
    constructor <;> intro chunk _ <;> rfl
  have hpp : 1 ≤ (twoByTwo numLayers last).pipelineModelParallelSize := by
    show 1 ≤ 2
    omega
  have hchunks : 1 ≤ numChunks (twoByTwo numLayers last) := by
    show 1 ≤ 2
    omega
  refine ⟨hpp, hchunks, rfl, hvp, fun chunk hchunk ppRank hrank => ?_⟩
  obtain ⟨num, hnum, hmod⟩ := h ppRank hrank
  refine ⟨num / 2, (getNumLayersToBuild_eq_ok rfl hvp hchunk).2 ⟨num, hnum, hmod, ?_, ?_, ?_⟩⟩
  · intro hemb
    cases hemb
  · intro hloss
    cases hloss
  · simp [hasEmbedding, hasLoss, twoByTwo, split, numChunks]

/-- Six layers, two of them on the last rank: that rank and the first one both begin with layer 0. -/
theorem not_numbersLayers_lastStage : Counted (twoByTwo 6 (some 2)) twoRanks 0 ∧
      ¬NumbersLayers firstRank (twoByTwo 6 (some 2)) twoRanks 0 := by
  constructor
  · refine counted_twoByTwo fun ppRank hrank => ?_
    obtain rfl | rfl : ppRank = 0 ∨ ppRank = 1 := by omega
    · exact ⟨4, rfl, rfl⟩
    · exact ⟨2, rfl, rfl⟩
  · rintro ⟨layers, htiles, -⟩
    have hnum := Except.ok.inj (htiles.num 0 (by decide) 0 (by decide))
    have hoffset := Except.ok.inj (htiles.offset 0 (by decide) 1 (by decide))
    have hfirst : (2 : Int) = (layers 0 : Nat) := hnum
    have hsecond : (0 : Int) = (stageStart layers 1 : Nat) := hoffset
    rw [stageStart_succ] at hsecond
    omega

theorem numbersLayers_eight : NumbersLayers firstRank (twoByTwo 8 none) twoRanks 0 :=
  (numbersLayers_iff (counted_twoByTwo fun ppRank hrank => by
    obtain rfl | rfl : ppRank = 0 ∨ ppRank = 1 := by omega
    · exact ⟨4, rfl, rfl⟩
    · exact ⟨4, rfl, rfl⟩)).2 (by
    rfl)

end TwoRanks

end Verl.LayerOffset
