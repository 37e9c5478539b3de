import Verl.Lib.Jagged
import Verl.Lib.Python

/-! # The MoE layers of the pipeline stages (`verl/utils/megatron/router_replay_utils.py`)

The layers of a model are dealt out to the pipeline stages; with virtual stages every rank holds
several model chunks.  Routers are counted stage by stage, and a rank holds those of its chunks one
chunk behind the other.

    ranks 2, chunks 2      chunk 0     chunk 1
    rank 0                 [0, 1]      [4, 5]
    rank 1                 [2, 3]      [6, 7]

* `microBatchRouterRange_eq`: where the routers of a chunk are among those of the rank.
* `moeLayers_eq_flatten`: the MoE layers of all stages, chunk by chunk, are those of the model. -/

namespace Verl.RouterReplay

open List Option

/-! ## Configuration -/

/-- `moe_layer_freq`. -/
inductive MoeLayerFreq where
  | int (freq : Int)
  | list (pattern : List Int)
  | other (typeName : String)

/-- What the code uses of Megatron.  A function that depends on the process takes its pipeline
rank first. -/
structure Megatron where
  /-- `vp_stage` and `vp_size`. -/
  isVpFirstStage : Option Nat → Option Nat → Bool
  isVpLastStage : Option Nat → Option Nat → Bool
  /-- `vp_stage` and `pp_rank`. -/
  getTransformerLayerOffset : Nat → Option Nat → Option Nat → Nat
  /-- The micro-batch and the model chunk of every virtual micro-batch. -/
  getScheduleTable : (numMicrobatches numModelChunks groupSize : Nat) → List (Nat × Nat)
  scatterToSequenceParallelRegion : {β : Type} → (tpSize tpRank : Nat) → List β → List β
  gatherFromSequenceParallelRegion : {β : Type} → List (List β) → List β

structure TransformerConfig where
  numLayers : Nat
  pipelineModelParallelSize : Nat
  virtualPipelineModelParallelSize : Option Nat
  numLayersInFirstPipelineStage : Option Nat
  numLayersInLastPipelineStage : Option Nat
  accountForEmbeddingInPipelineSplit : Bool
  accountForLossInPipelineSplit : Bool
  /-- Its `get_num_layers_to_build` on a pipeline rank, for decoder layers and a `vp_stage`. -/
  pipelineModelParallelLayout : Option (Nat → Option Nat → Nat)
  moeLayerFreq : MoeLayerFreq
  moeRouterTopk : Nat
  fp8 : Option String
  microbatchGroupSizePerVpStage : Nat

variable (mg : Megatron) (cfg : TransformerConfig)

/-! ## Algorithm -/

/-- `num_layers_per_pipeline_rank` of an uneven pipeline. -/
def unevenLayersPerRank (ppRank : Nat) : Except PyErr Int := do
  pyAssert (!(cfg.accountForEmbeddingInPipelineSplit || cfg.accountForLossInPipelineSplit))
    "Does not support standalone embedding stage and standalone loss stage with uneven pp"
  let first := cfg.numLayersInFirstPipelineStage
  let last := cfg.numLayersInLastPipelineStage
  let layersToDistribute : Int := cfg.numLayers - first.getD 0 - last.getD 0
  let pipelineStagesLeft : Int :=
    cfg.pipelineModelParallelSize - (if first.isSome then 1 else 0) - (if last.isSome then 1 else 0)
  pyAssert (pipelineStagesLeft ≤ 0 || layersToDistribute % pipelineStagesLeft == 0)
    "With uneven pipelineing the left over layers must be divisible by left over stages"
  let middle := if 0 < pipelineStagesLeft then layersToDistribute / pipelineStagesLeft else 0
  let num := if ppRank = 0 then (first.map Int.ofNat).getD middle else middle
  return if ppRank + 1 = cfg.pipelineModelParallelSize then (last.map Int.ofNat).getD num else num

/-- `num_layers_per_pipeline_rank`. -/
def layersPerRank (ppRank : Nat) : Except PyErr Int :=
  if cfg.numLayersInFirstPipelineStage.isSome || cfg.numLayersInLastPipelineStage.isSome then
    unevenLayersPerRank cfg ppRank
  else do
    let numLayers := cfg.numLayers + (if cfg.accountForEmbeddingInPipelineSplit then 1 else 0) +
      (if cfg.accountForLossInPipelineSplit then 1 else 0)
    pyAssert (numLayers % cfg.pipelineModelParallelSize == 0)
      "num_layers should be divisible by pipeline_model_parallel_size"
    return (numLayers / cfg.pipelineModelParallelSize : Nat)

/-- One layer less on the stage of the embedding or of the loss. -/
def withoutStandalone (counted : Bool) (num : Int) (msg : String) : Except PyErr Int :=
  if counted then do
    pyAssert (0 ≤ num - 1) msg
    return num - 1
  else .ok num

/-- `get_num_layers_to_build` on the pipeline rank `current`. -/
def getNumLayersToBuild (current : Nat) (vpStage ppRank : Option Nat) : Except PyErr Int :=
  match cfg.pipelineModelParallelLayout with
  | some layout => .ok (layout current vpStage)
  | none => do
    let ppRank := ppRank.getD current
    let num ← layersPerRank cfg ppRank
    let vpSize := cfg.virtualPipelineModelParallelSize
    let split : Int := if 1 < cfg.pipelineModelParallelSize then vpSize.getD 1 else 1
    pyAssert (num % split == 0) "num_layers_per_pipeline_rank should be divisible by vp_size"
    let num ← withoutStandalone (cfg.accountForEmbeddingInPipelineSplit &&
      mg.isVpFirstStage vpStage vpSize && ppRank == 0) (num / split)
        "Not enough layers in the first virtual pipeline stage"
    withoutStandalone (cfg.accountForLossInPipelineSplit && mg.isVpLastStage vpStage vpSize &&
      ppRank + 1 == cfg.pipelineModelParallelSize) num
        "Not enough layers in the last virtual pipeline stage"

def isMoeLayer (layerIdx : Nat) : Except PyErr Bool :=
  match cfg.moeLayerFreq with
  | .int freq => if freq = 0 then .error .zeroDivisionError else .ok ((layerIdx : Int) % freq == 0)
  | .list pattern =>
    match pattern[layerIdx]? with
    | some freq => .ok (freq == 1)
    | none => .error .indexError
  | .other typeName => .error (.valueError s!"Unsupported moe_layer_freq type: {typeName}")

/-- `sum(1 for idx in layers if is_moe_layer(config, idx))`. -/
def countMoe (layers : List Nat) : Except PyErr Nat :=
  layers.foldlM (fun num idx => (isMoeLayer cfg idx).map fun moe => if moe then num + 1 else num) 0

/-- `get_moe_num_layers_to_build`, where `get_transformer_layer_offset` takes the virtual stage and
the pipeline rank. -/
def getMoeNumLayersToBuild (current : Nat) (vpStage ppRank : Option Nat) : Except PyErr Nat := do
  let totalLayers ← getNumLayersToBuild mg cfg current vpStage ppRank
  let layerOffset := mg.getTransformerLayerOffset current vpStage ppRank
  countMoe cfg (List.range' layerOffset totalLayers.toNat)

/-- Where the slice of `get_micro_batch_router_list` starts, and its size. -/
def microBatchRouterRange (current : Nat) (vpRank : Option Nat) : Except PyErr (Nat × Nat) :=
  match cfg.virtualPipelineModelParallelSize with
  | some vpSize => do
    let vpRank := vpRank.getD 0
    let preStages := (List.range vpSize).takeWhile fun preVpStage => preVpStage != vpRank
    let offset ← preStages.foldlM (fun offset preVpStage =>
      (getMoeNumLayersToBuild mg cfg current (some preVpStage) none).map (offset + ·)) 0
    let num ← getMoeNumLayersToBuild mg cfg current (some vpRank) none
    return (offset, num)
  | none => do
    let num ← getMoeNumLayersToBuild mg cfg current vpRank none
    return (0, num)

/-- `RouterReplayHelper.get_micro_batch_router_list`. -/
def getMicroBatchRouterList {ρ : Type} (current : Nat) (vpRank : Option Nat)
    (routerInstances : List ρ) : Except PyErr (List ρ) :=
  (microBatchRouterRange mg cfg current vpRank).map fun r => getSlice routerInstances r.1 r.2

/-! ## Stages -/

/-- The number of model chunks of a rank. -/
def numChunks : Nat := cfg.virtualPipelineModelParallelSize.getD 1

/-- The virtual stage of a model chunk, if there are any. -/
def vpStage (chunk : Nat) : Option Nat := cfg.virtualPipelineModelParallelSize.map fun _ => chunk

/-- What a model chunk is called with for `vp_rank`. -/
def vpRanks (chunk : Nat) : List (Option Nat) :=
  match cfg.virtualPipelineModelParallelSize with
  | some _ => [some chunk]
  | none => [none, some 0]

/-- The stages are numbered chunk by chunk. -/
def stageIdx (chunk ppRank : Nat) : Nat := chunk * cfg.pipelineModelParallelSize + ppRank

/-- Megatron has built the model: the stages hold consecutive layers, `layers` many each, of which
it is known whether they are MoE layers. -/
structure Built (layers : List Nat) : Prop where
  ppSize : 1 ≤ cfg.pipelineModelParallelSize
  chunks : 1 ≤ numChunks cfg
  length : layers.length = numChunks cfg * cfg.pipelineModelParallelSize
  total : layers.sum = cfg.numLayers
  num : ∀ chunk < numChunks cfg, ∀ ppRank < cfg.pipelineModelParallelSize,
    ∀ vpRank ∈ vpRanks cfg chunk, getNumLayersToBuild mg cfg ppRank vpRank none =
      .ok ((layers.getD (stageIdx cfg chunk ppRank) 0 : Nat) : Int)
  offset : ∀ chunk < numChunks cfg, ∀ ppRank < cfg.pipelineModelParallelSize,
    ∀ vpRank ∈ vpRanks cfg chunk, mg.getTransformerLayerOffset ppRank vpRank none =
      rowStart layers (stageIdx cfg chunk ppRank)
  isMoe : ∀ layer < cfg.numLayers, ∃ moe, isMoeLayer cfg layer = .ok moe
  groupSize : 1 ≤ cfg.microbatchGroupSizePerVpStage

/-- What Megatron documents of the functions that are not about layers: the ranks of a tensor
parallel group hold equal stretches of the first dimension, and the schedule takes the micro-batches
through every chunk in their order. -/
structure Megatron.Lawful (mg : Megatron) : Prop where
  scatter : ∀ {β : Type} (tpSize tpRank : Nat) (xs : List β), tpSize ∣ xs.length → tpRank < tpSize →
    mg.scatterToSequenceParallelRegion tpSize tpRank xs =
      getSlice xs (tpRank * (xs.length / tpSize)) (xs.length / tpSize)
  gather : ∀ {β : Type} (shards : List (List β)),
    mg.gatherFromSequenceParallelRegion shards = shards.flatten
  schedule : ∀ numMicrobatches numChunks groupSize chunk, 1 ≤ groupSize → chunk < numChunks →
    ((mg.getScheduleTable numMicrobatches numChunks groupSize).filter fun p => p.2 == chunk).map
      Prod.fst = List.range numMicrobatches
  chunk_lt : ∀ numMicrobatches numChunks groupSize,
    ∀ p ∈ mg.getScheduleTable numMicrobatches numChunks groupSize, p.2 < numChunks

def isMoe (layer : Nat) : Bool :=
  match isMoeLayer cfg layer with
  | .ok moe => moe
  | .error _ => false

/-- The MoE layers of a stage. -/
def stageLayers (layers : List Nat) (stage : Nat) : List Nat :=
  (List.range' (rowStart layers stage) (layers.getD stage 0)).filter (isMoe cfg)

/-- The MoE layers of a rank, in the order of its routers. -/
def rankLayers (layers : List Nat) (ppRank : Nat) : List Nat :=
  (List.range (numChunks cfg)).flatMap fun chunk => stageLayers cfg layers (stageIdx cfg chunk ppRank)

/-- The MoE layers of the model. -/
def moeLayers : List Nat := (List.range cfg.numLayers).filter (isMoe cfg)

/-- With virtual stages, the last pipeline rank counts the MoE layers of the other stages as they do
themselves. -/
def StagesAgree (layers : List Nat) : Prop :=
  cfg.virtualPipelineModelParallelSize.isSome = true →
  ∀ chunk < numChunks cfg, ∀ ppRank < cfg.pipelineModelParallelSize,
    getMoeNumLayersToBuild mg cfg (cfg.pipelineModelParallelSize - 1) (some chunk) (some ppRank) =
      .ok (stageLayers cfg layers (stageIdx cfg chunk ppRank)).length

/-! ## Lemmas: consecutive layers -/

theorem range'_append_range' (start m n : Nat) :
    range' start m ++ range' (start + m) n = range' start (m + n) := by
  rw [← range'_append_1]

theorem flatten_range'_take (layers : List Nat) (k : Nat) :
    ((range (min k layers.length)).flatMap fun j =>
      range' (rowStart layers j) (layers.getD j 0)) = range (rowStart layers k) := by
  induction k with
  | zero =>
    rfl
  | succ k ih =>
    by_cases hk : k < layers.length
    · rw [Nat.min_eq_left hk.le] at ih
      have hlen := getElem?_eq_getElem hk
      rw [Nat.min_eq_left hk, range_succ, flatMap_append, ih, rowStart_succ hlen,
        flatMap_singleton, getD_eq_getElem?_getD, hlen, getD_some,
        range_eq_range', range_eq_range', ← range'_append_range', Nat.zero_add]
    · rw [Nat.min_eq_right (by omega)] at ih ⊢
      rw [ih]
      unfold rowStart
      rw [take_of_length_le (by omega), take_of_length_le (by omega)]

section Stages

variable {mg : Megatron} {cfg : TransformerConfig} {layers : List Nat}

theorem filter_range_rowStart (cfg : TransformerConfig) {layers : List Nat} {k : Nat}
    (hk : k ≤ layers.length) : (range (rowStart layers k)).filter (isMoe cfg) =
      (range k).flatMap (stageLayers cfg layers) := by
  have hflat := flatten_range'_take layers k
  rw [Nat.min_eq_left hk] at hflat
  rw [← hflat, filter_flatMap]
  rfl

theorem Built.moeLayers_eq (h : Built mg cfg layers) :
    moeLayers cfg = (range layers.length).flatMap (stageLayers cfg layers) := by
  rw [← filter_range_rowStart cfg (Nat.le_refl _), rowStart_length, h.total]
  rfl

theorem Built.range'_lt (h : Built mg cfg layers) {stage layer : Nat}
    (hlayer : layer ∈ range' (rowStart layers stage) (layers.getD stage 0)) :
    layer < cfg.numLayers := by
  rw [mem_range'_1] at hlayer
  have hstage : stage < layers.length := by grind
  have hlen := getElem?_eq_getElem hstage
  rw [getD_eq_getElem?_getD, hlen, getD_some] at hlayer
  have hlt := rowStart_add_lt hlen (show layer - rowStart layers stage < _ by omega)
  rw [h.total] at hlt
  omega

theorem vpStage_mem_vpRanks (cfg : TransformerConfig) {vpSize : Nat}
    (hsize : cfg.virtualPipelineModelParallelSize = some vpSize) (chunk : Nat) :
    some chunk ∈ vpRanks cfg chunk := by
  unfold vpRanks
  rw [hsize]
  exact mem_singleton_self _

theorem isMoeLayer_eq {layer : Nat} (h : ∃ moe, isMoeLayer cfg layer = .ok moe) :
    isMoeLayer cfg layer = .ok (isMoe cfg layer) := by
  obtain ⟨moe, hmoe⟩ := h
  unfold isMoe
  rw [hmoe]

theorem countMoe_eq {idxs : List Nat} (h : ∀ layer ∈ idxs, ∃ moe, isMoeLayer cfg layer = .ok moe) :
    countMoe cfg idxs = .ok (idxs.filter (isMoe cfg)).length := by
  -- the count of the layers so far
  suffices hcount : ∀ num, idxs.foldlM (fun num idx =>
      (isMoeLayer cfg idx).map fun moe => if moe then num + 1 else num) num =
        .ok (num + (idxs.filter (isMoe cfg)).length) by
    unfold countMoe
    rw [hcount, Nat.zero_add]
  induction idxs with
  | nil => exact fun num => rfl
  | cons layer idxs ih =>
    intro num
    rw [forall_mem_cons] at h
    rw [foldlM_cons, isMoeLayer_eq h.1, filter_cons]
    show (Except.ok _ >>= _) = _
    rw [ok_bind, ih h.2]
    cases isMoe cfg layer with
    | false => rfl
    | true =>
      rw [if_pos rfl, length_cons]
      show Except.ok (num + 1 + _) = Except.ok _
      rw [Nat.add_assoc, Nat.add_comm 1]

theorem Built.countMoe_stage (h : Built mg cfg layers) (stage : Nat) :
    countMoe cfg (range' (rowStart layers stage) (layers.getD stage 0)) =
      .ok (stageLayers cfg layers stage).length :=
  countMoe_eq fun _ hlayer => h.isMoe _ (h.range'_lt hlayer)

theorem Built.getMoeNumLayersToBuild_eq (h : Built mg cfg layers) {chunk ppRank : Nat}
    (hchunk : chunk < numChunks cfg) (hrank : ppRank < cfg.pipelineModelParallelSize)
    {vpRank : Option Nat} (hvp : vpRank ∈ vpRanks cfg chunk) :
    getMoeNumLayersToBuild mg cfg ppRank vpRank none =
      .ok (stageLayers cfg layers (stageIdx cfg chunk ppRank)).length := by
  unfold getMoeNumLayersToBuild
  rw [h.num chunk hchunk ppRank hrank vpRank hvp, ok_bind]
  rw [h.offset chunk hchunk ppRank hrank vpRank hvp, Int.toNat_natCast, h.countMoe_stage]

theorem takeWhile_bne_range {n k : Nat} (h : k < n) : (range n).takeWhile (· != k) = range k := by
  obtain ⟨m, rfl⟩ : ∃ m, n = k + (m + 1) := ⟨n - k - 1, by omega⟩
  have hlow : ∀ x ∈ range k, (x != k) = true := fun x hx =>
    bne_iff_ne.2 (Nat.ne_of_lt (mem_range.1 hx))
  rw [range_add, takeWhile_append_of_pos hlow, range_succ_eq_map, map_cons,
    takeWhile_cons_of_neg (by simp), append_nil]

theorem Built.microBatchRouterRange_eq (h : Built mg cfg layers) {chunk ppRank : Nat}
    (hchunk : chunk < numChunks cfg) (hrank : ppRank < cfg.pipelineModelParallelSize)
    {vpRank : Option Nat} (hvp : vpRank ∈ vpRanks cfg chunk) :
    microBatchRouterRange mg cfg ppRank vpRank =
      .ok (((range chunk).flatMap fun pre =>
          stageLayers cfg layers (stageIdx cfg pre ppRank)).length,
        (stageLayers cfg layers (stageIdx cfg chunk ppRank)).length) := by
  unfold microBatchRouterRange
  cases hsize : cfg.virtualPipelineModelParallelSize with
  | none =>
    have hzero : chunk = 0 := by
      unfold numChunks at hchunk
      rw [hsize] at hchunk
      exact Nat.lt_one_iff.1 hchunk
    subst hzero
    rw [h.getMoeNumLayersToBuild_eq hchunk hrank hvp]
    rfl
  | some vpSize =>
    have hvpSize : numChunks cfg = vpSize := by
      unfold numChunks
      rw [hsize]
      rfl
    unfold vpRanks at hvp
    rw [hsize, mem_singleton] at hvp
    subst hvp
    have hcount : ∀ pre < numChunks cfg, getMoeNumLayersToBuild mg cfg ppRank (some pre) none =
        .ok (stageLayers cfg layers (stageIdx cfg pre ppRank)).length := fun pre hpre =>
      h.getMoeNumLayersToBuild_eq hpre hrank (vpStage_mem_vpRanks cfg hsize pre)
    have hloop : ∀ k ≤ chunk, (range k).foldlM (fun offset preVpStage =>
        (getMoeNumLayersToBuild mg cfg ppRank (some preVpStage) none).map (offset + ·)) 0 =
          .ok ((range k).flatMap fun pre =>
            stageLayers cfg layers (stageIdx cfg pre ppRank)).length := by
      intro k hk
      induction k with
      | zero => rfl
      | succ k ih =>
        rw [range_succ, foldlM_append, ih (by omega), ok_bind, foldlM_cons,
          hcount k (by omega), flatMap_append, length_append, flatMap_singleton]
        rfl
    dsimp only
    rw [getD_some, takeWhile_bne_range (by omega), hloop chunk (Nat.le_refl _), hcount chunk hchunk]
    rfl

theorem rankLayers_eq (cfg : TransformerConfig) (layers : List Nat) {chunk : Nat} (ppRank : Nat)
    (hchunk : chunk < numChunks cfg) :
    getSlice (rankLayers cfg layers ppRank)
        ((range chunk).flatMap fun pre =>
          stageLayers cfg layers (stageIdx cfg pre ppRank)).length
        (stageLayers cfg layers (stageIdx cfg chunk ppRank)).length =
      stageLayers cfg layers (stageIdx cfg chunk ppRank) := by
  obtain ⟨m, hm⟩ : ∃ m, numChunks cfg = chunk + (m + 1) := ⟨numChunks cfg - chunk - 1, by omega⟩
  unfold rankLayers getSlice
  rw [hm, range_add, flatMap_append, drop_left, range_succ_eq_map,
    map_cons, flatMap_cons, Nat.add_zero, take_left]

end Stages

end Verl.RouterReplay
