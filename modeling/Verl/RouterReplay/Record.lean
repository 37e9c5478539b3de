import Verl.Models.ThdItems
import Verl.RouterReplay.Layers
import Verl.Utils.MicroBatches

/-! # Recording the expert ids (`verl/utils/megatron/router_replay_utils.py`)

Every MoE layer has a router, which records the expert ids of the tokens its rank holds.  They are
narrowed to `uint8`, stacked layer by layer and put back into the rows of the micro-batch; then the
micro-batches, the model chunks of a rank and the pipeline ranks are put together.

    merge_router_topk_indices      one micro-batch on one model chunk
    reorder_and_merge_vpp_layers   all micro-batches and chunks of a rank
    pp_gather                      all pipeline ranks
    restore_dynamic_batch          the rows in their order

* `merge_eq`, `recordRank_eq`, `recordOn_eq`: each stage keeps the form `topkOf`. -/

namespace Verl.RouterReplay

open MCore List Function

/-! ## Data -/

/-- The state of a router that recording and replaying use. -/
structure RouterReplay where
  targetTopkIdx : Option (List (List Nat))
  recordedTopkIdx : Option (List (List Nat))
  replayBackwardList : List (List (List Nat))

def RouterReplay.setTargetIndices (router : RouterReplay) (topkIndices : List (List Nat)) :
    RouterReplay :=
  { router with
    targetTopkIdx := some topkIndices
    replayBackwardList := router.replayBackwardList ++ [topkIndices] }

/-- A tensor of `layer_num` times `topk` expert ids for every position of every row. -/
structure LayersTopkIdx where
  isNested : Bool
  layerNum : Nat
  topk : Nat
  rows : List (List (List (List UInt8)))

structure Sample where
  inputIds : List Nat
  attentionMask : List Bool

/-- A batch of nested sequences, or of rows padded to `seqLen` with their masks. -/
structure Batch where
  isNested : Bool
  seqLen : Nat
  size : Nat
  sample : Nat → Sample
  wf : isNested = false → ∀ i, (sample i).inputIds.length = seqLen ∧
    (sample i).attentionMask.length = seqLen

namespace Batch

variable (b : Batch)

/-- The number of tokens of a sample. -/
def len (i : Nat) : Nat :=
  if b.isNested then (b.sample i).inputIds.length else (b.sample i).attentionMask.count true

def inputIds (idxs : List Nat) : List (List Nat) := idxs.map fun i => (b.sample i).inputIds

def attentionMask (idxs : List Nat) : List (List Bool) :=
  idxs.map fun i => (b.sample i).attentionMask

/-- The token at each position of a row. -/
def labels (i : Nat) : List (Option Nat) :=
  if b.isNested then (List.range (b.len i)).map some
  else maskAssign (b.sample i).attentionMask (List.replicate b.seqLen none)
    ((List.range (b.len i)).map some)

end Batch

section Algorithm

variable (mg : Megatron) (cfg : TransformerConfig)

def useFp8Padding : Bool := cfg.fp8 == some "e4m3" || cfg.fp8 == some "hybrid"

/-! ## `merge_router_topk_indices` -/

/-- `router.recorded_topk_idx.to(torch.uint8)`. -/
def recordedUint8 (router : RouterReplay) : Except PyErr (List (List UInt8)) :=
  match router.recordedTopkIdx with
  | some idx => .ok (idx.map (List.map UInt8.ofNat))
  | none => .error (.attributeError "'NoneType' object has no attribute 'to'")

/-- `torch.stack(layers_topk_idx).permute(1, 0, 2)`. -/
def stackLayers : List (List (List UInt8)) → Except PyErr (List (List (List UInt8)))
  | [] => .error (.runtimeError "stack expects a non-empty TensorList")
  | first :: rest =>
    if rest.all (·.length == first.length) then
      .ok ((List.range first.length).map fun s => (first :: rest).map (·.getD s []))
    else .error (.runtimeError "stack expects each tensor to be equal size")

/-- What a rank stacks of its own routers. -/
def localTopkIdx (ppRank : Nat) (vpRank : Option Nat) (routerInstances : List RouterReplay) :
    Except PyErr (List (List (List UInt8))) := do
  let routers ← getMicroBatchRouterList mg cfg ppRank vpRank routerInstances
  let layersTopkIdx ← routers.mapM recordedUint8
  stackLayers layersTopkIdx

/-- What the tensor-parallel ranks of a context-parallel rank gather. -/
def packedTopkIdx (tpSize ppRank : Nat) (vpRank : Option Nat)
    (routerInstances : Nat → List RouterReplay) : Except PyErr (List (List (List UInt8))) := do
  let shards ← (List.range tpSize).mapM fun tpRank =>
    localTopkIdx mg cfg ppRank vpRank (routerInstances tpRank)
  return mg.gatherFromSequenceParallelRegion shards

def zeroTopk (layerNum topk : Nat) : List (List UInt8) :=
  List.replicate layerNum (List.replicate topk 0)

/-- The packed ids back in the rows of the micro-batch. -/
def unpackTopkIdx (ps : ParallelState) (layerNum : Nat) (packed : List (List (List (List UInt8))))
    (b : Batch) (idxs : List Nat) : Except PyErr (List (List (List (List UInt8)))) :=
  if b.isNested then do
    let batch ← preprocessThdEngine 0 ps false (useFp8Padding cfg) (b.inputIds idxs)
    postprocessThdEngine [] ps packed (packed.getD ps.cpRank []) batch.params
      ((b.inputIds idxs).map List.length)
  else do
    let batch ← preprocessPackedSeqs 0 ps (useFp8Padding cfg) (b.inputIds idxs) (b.attentionMask idxs)
    postprocessPackedSeqs (zeroTopk layerNum cfg.moeRouterTopk) [] ps packed
      (packed.getD ps.cpRank []) batch.2 (b.attentionMask idxs) b.seqLen

/-- `merge_router_topk_indices` on the samples `idxs`, with the routers of every context-parallel
and tensor-parallel rank; the ranks call it together. -/
def mergeRouterTopkIndices (ps : ParallelState) (ppRank : Nat) (vpRank : Option Nat)
    (routerInstances : Nat → Nat → List RouterReplay) (b : Batch) (idxs : List Nat) :
    Except PyErr LayersTopkIdx := do
  let routers ← getMicroBatchRouterList mg cfg ppRank vpRank (routerInstances ps.cpRank 0)
  let packed ← (List.range ps.cpSize).mapM fun cpRank =>
    packedTopkIdx mg cfg ps.tpSize ppRank vpRank (routerInstances cpRank)
  let rows ← unpackTopkIdx cfg ps routers.length packed b idxs
  return { isNested := b.isNested, layerNum := routers.length, topk := cfg.moeRouterTopk, rows := rows }

/-! ## `reorder_and_merge_vpp_layers` -/

/-- The rows of tensors, one tensor behind the other. -/
def catRows : List LayersTopkIdx → Except PyErr LayersTopkIdx
  | [] => .error (.runtimeError "Cannot construct a nested tensor from an empty tensor list")
  | first :: rest => .ok { first with rows := (first :: rest).flatMap LayersTopkIdx.rows }

/-- The layers of two tensors at every position. -/
def catLayerPair (a c : LayersTopkIdx) : Except PyErr LayersTopkIdx :=
  if a.rows.map List.length = c.rows.map List.length then
    .ok { a with
      layerNum := a.layerNum + c.layerNum
      rows := List.zipWith (List.zipWith (· ++ ·)) a.rows c.rows }
  else .error (.runtimeError "Sizes of tensors must match except in dimension 2")

/-- `torch.cat(tensors, dim=2)`. -/
def catLayers : List LayersTopkIdx → Except PyErr LayersTopkIdx
  | [] => .error (.runtimeError "torch.cat(): expected a non-empty list of Tensors")
  | first :: rest => rest.foldlM catLayerPair first

/-- `tensor_by_chunk[chunk]`. -/
def tensorByChunk (scheduleTable : List (Nat × Nat)) (tensors : List LayersTopkIdx) (chunk : Nat) :
    List LayersTopkIdx :=
  (scheduleTable.zip tensors).filterMap fun p => if p.1.2 = chunk then some p.2 else none

def reorderAndMergeVppLayers (microBatchTensorList : List LayersTopkIdx)
    (numMicrobatches vppSize microbatchGroupSizePerVpStage : Nat) : Except PyErr LayersTopkIdx :=
  let scheduleTable := mg.getScheduleTable numMicrobatches vppSize microbatchGroupSizePerVpStage
  if microBatchTensorList.length < scheduleTable.length ∨ ∃ p ∈ scheduleTable, vppSize ≤ p.2 then
    .error .indexError
  else do
    let miniTensorList ← (List.range vppSize).mapM fun chunk =>
      catRows (tensorByChunk scheduleTable microBatchTensorList chunk)
    catLayers miniTensorList

/-- What `forward_backward_batch` makes of the micro-batches of a pipeline rank; with virtual stages
they are merged in the order of the schedule. -/
def recordRank (merge : Option Nat → List Nat → Except PyErr LayersTopkIdx)
    (microBatches : List (List Nat)) : Except PyErr LayersTopkIdx :=
  match cfg.virtualPipelineModelParallelSize with
  | some vpSize => do
    let table := mg.getScheduleTable microBatches.length vpSize cfg.microbatchGroupSizePerVpStage
    let tensors ← table.mapM fun p => merge (some p.2) (microBatches.getD p.1 [])
    reorderAndMergeVppLayers mg tensors microBatches.length vpSize cfg.microbatchGroupSizePerVpStage
  | none => do
    let tensors ← microBatches.mapM (merge none)
    catRows tensors

/-! ## `pp_gather` -/

/-- `t[:, start:stop, :]` of every row. -/
def sliceLayers (t : LayersTopkIdx) (start stop : Nat) : LayersTopkIdx :=
  { t with
    layerNum := min stop t.layerNum - start
    rows := t.rows.map (List.map fun layers => getSlice layers start (stop - start)) }

/-- `all_gather` takes tensors of one shape, `all_gather_object` any. -/
def gatherable (tensors : List LayersTopkIdx) : Bool :=
  tensors.all fun t => t.isNested || tensors.all fun t' => t'.layerNum == t.layerNum

/-- `vpp_router_map_offset`. -/
def vppRouterMapOffset (current vpSize : Nat) : Except PyErr (List (List Nat)) :=
  (List.range cfg.pipelineModelParallelSize).mapM fun ppStage => do
    let nums ← (List.range vpSize).mapM fun vpStage =>
      getMoeNumLayersToBuild mg cfg current (some vpStage) (some ppStage)
    return offsets nums

/-- `pp_gather` on the rank `current`, of the tensors of all pipeline ranks. -/
def ppGather (current : Nat) (tensors : List LayersTopkIdx) : Except PyErr LayersTopkIdx :=
  if cfg.pipelineModelParallelSize ≤ 1 then
    match tensors[current]? with
    | some t => .ok t
    | none => .error .indexError
  else if !gatherable tensors then
    .error (.runtimeError "all_gather expects tensors of one shape")
  else match cfg.virtualPipelineModelParallelSize with
    | some vpSize => do
      let offset ← vppRouterMapOffset mg cfg current vpSize
      catLayers ((List.range vpSize).flatMap fun vpStage =>
        (tensors.zip offset).map fun p =>
          sliceLayers p.1 (p.2.getD vpStage 0) (p.2.getD (vpStage + 1) 0))
    | none => catLayers tensors

/-- Recording a batch: the ids of all ranks, gathered on the last pipeline rank, in the order of the
batch. -/
def recordBatch (merge : Nat → Option Nat → List Nat → Except PyErr LayersTopkIdx)
    (microBatches : List (List Nat)) (useDynamicBsz : Bool) : Except PyErr LayersTopkIdx := do
  let tensors ← (List.range cfg.pipelineModelParallelSize).mapM fun ppRank =>
    recordRank mg cfg (merge ppRank) microBatches
  let layersTopkIdx ← ppGather mg cfg (cfg.pipelineModelParallelSize - 1) tensors
  if useDynamicBsz then do
    let rows ← restoreDynamicBatch layersTopkIdx.rows microBatches
    return { layersTopkIdx with rows := rows }
  else return layersTopkIdx

end Algorithm

/-! ## What is recorded -/

/-- The expert ids that the routers choose: for a sample, a layer and a position in the padded
sequence, of which those from its length on are padding. -/
structure Routing (topk : Nat) where
  ids : Nat → Nat → Nat → List Nat
  length_ids : ∀ i layer p, (ids i layer p).length = topk

section Rows

variable {topk : Nat} (routing : Routing topk)

/-- The ids of some layers at a position. -/
def blockOf (layers : List Nat) (i : Nat) : Option Nat → List (List UInt8)
  | some p => layers.map fun layer => (routing.ids i layer p).map UInt8.ofNat
  | none => zeroTopk layers.length topk

/-- The rows of some samples with the ids of some layers. -/
def topkOf (b : Batch) (idxs layers : List Nat) : LayersTopkIdx :=
  { isNested := b.isNested
    layerNum := layers.length
    topk := topk
    rows := idxs.map fun i => (b.labels i).map (blockOf routing layers i) }

/-- The padded lengths of a micro-batch. -/
def paddedLens (tpSize cpSize : Nat) (fp8 : Bool) (b : Batch) (idxs : List Nat) : List Nat :=
  paddedLengths tpSize cpSize fp8 (idxs.map b.len)

/-- What the positions of the padded sequences are mapped to, as the slots of a rank hold it. -/
def slotsOf {β : Type} (zero : β) (tpSize cpSize cpRank : Nat) (fp8 : Bool) (b : Batch)
    (idxs : List Nat) (f : Nat → Nat → β) : List β :=
  (localPieces zero cpSize cpRank
    (List.zipWith (fun i n => (List.range n).map (f i)) idxs (paddedLens tpSize cpSize fp8 b idxs))
    (paddedLens tpSize cpSize fp8 b idxs)).flatten

end Rows

/-- What the routers of a chunk have recorded when a micro-batch is merged: on every rank each
router has the ids of its layer for the slots of the rank. -/
def Records (mg : Megatron) (cfg : TransformerConfig) (layers : List Nat) (tpSize cpSize : Nat)
    (routing : Routing cfg.moeRouterTopk) (b : Batch)
    (routerInstances : Nat → Nat → List RouterReplay) (chunk ppRank : Nat) (idxs : List Nat) : Prop :=
  ∀ cpRank < cpSize, ∀ tpRank < tpSize,
    (routerInstances cpRank tpRank).length = (rankLayers cfg layers ppRank).length ∧
    ∀ vpRank ∈ vpRanks cfg chunk, ∀ routers,
      getMicroBatchRouterList mg cfg ppRank vpRank (routerInstances cpRank tpRank) = .ok routers →
      List.Forall₂ (fun router layer => router.recordedTopkIdx =
        some (mg.scatterToSequenceParallelRegion tpSize tpRank
          (slotsOf [] tpSize cpSize cpRank (useFp8Padding cfg) b idxs fun i p =>
            routing.ids i layer p)))
        routers (stageLayers cfg layers (stageIdx cfg chunk ppRank))

/-! ## Lemmas: the slots of a micro-batch -/

section Slots

variable {tpSize cpSize : Nat} {fp8 : Bool} {b : Batch} {idxs : List Nat}

/-- The padded lengths of a micro-batch, and what the sizes of the groups say of them. -/
structure PaddedLens (tpSize cpSize : Nat) (lens ns : List Nat) : Prop where
  le : List.Forall₂ (· ≤ ·) lens ns
  dvd : ∀ n ∈ ns, cpSize ∣ n
  twoDvd : 1 < cpSize → ∀ n ∈ ns, 2 * cpSize ∣ n
  tpDvd : tpSize ∣ (ns.map (· / cpSize)).sum

theorem tpSize_dvd_div {n : Nat} (hcp : 1 ≤ cpSize) (h : alignSize tpSize cpSize fp8 ∣ n) :
    tpSize ∣ n / cpSize := by
  have hbase : tpSize * cpSize ∣ baseAlignSize tpSize cpSize := by
    unfold baseAlignSize
    by_cases hone : 1 < cpSize
    · rw [if_pos hone]
      exact Nat.dvd_mul_right _ _
    · rw [if_neg hone, show cpSize = 1 by omega, Nat.mul_one]
  have halign : baseAlignSize tpSize cpSize ∣ alignSize tpSize cpSize fp8 := by
    cases fp8 with
    | false => exact Nat.dvd_refl _
    | true => exact Nat.dvd_lcm_right 16 _
  exact (Nat.dvd_div_iff_mul_dvd ((Nat.dvd_mul_left _ _).trans ((hbase.trans halign).trans h))).2
    (by rw [Nat.mul_comm]; exact (hbase.trans halign).trans h)

theorem paddedLens_spec (htp : 1 ≤ tpSize) (hcp : 1 ≤ cpSize) (fp8 : Bool) (b : Batch)
    (hne : idxs ≠ []) : PaddedLens tpSize cpSize (idxs.map b.len) (paddedLens tpSize cpSize fp8 b idxs) := by
  obtain ⟨layout, hlayout, hspec⟩ := thdLayout_eq_ok cpSize htp fp8
    (show idxs.map b.len ≠ [] by rwa [ne_eq, map_eq_nil_iff])
  have hns := seqlensPadded_of_thdLayout hlayout
  unfold paddedLens
  rw [← hns]
  have htwo : 1 < cpSize → ∀ n ∈ layout.seqlensPadded, 2 * cpSize ∣ n := fun hone n hn =>
    (two_mul_dvd_alignSize hone fp8).trans (hspec.dvd n hn)
  refine ⟨hspec.le, fun n hn => ?_, htwo, MCore.dvd_sum fun m hm => ?_⟩
  · by_cases hone : 1 < cpSize
    · exact (Nat.dvd_mul_left cpSize 2).trans (htwo hone n hn)
    · rw [show cpSize = 1 by omega]
      exact Nat.one_dvd n
  · obtain ⟨n, hn, rfl⟩ := mem_map.1 hm
    exact tpSize_dvd_div hcp (hspec.dvd n hn)

/-- The padded sequences of a micro-batch. -/
def fullSeqs {β : Type} (idxs ns : List Nat) (f : Nat → Nat → β) : List (List β) :=
  List.zipWith (fun i n => (List.range n).map (f i)) idxs ns

theorem PaddedLens.padded {β : Type} {ns : List Nat}
    (h : PaddedLens tpSize cpSize (idxs.map b.len) ns) (f : Nat → Nat → β) :
    Padded cpSize (fullSeqs idxs ns f) ns := by
  refine ⟨?_, h.dvd, h.twoDvd⟩
  have hle := h.le
  clear h
  unfold fullSeqs
  induction idxs generalizing ns with
  | nil =>
    cases hle
    exact .nil
  | cons i idxs ih =>
    cases hle with
    | cons hlen hrest =>
      refine .cons ?_ (ih hrest)
      rw [length_map, length_range]

/-- A slot holds one position of one sequence, whatever the positions are mapped to. -/
theorem PaddedLens.exists_slot {ns : List Nat} {cpRank : Nat} (hcp : 1 ≤ cpSize)
    (hrank : cpRank < cpSize) (h : PaddedLens tpSize cpSize (idxs.map b.len) ns) {s : Nat}
    (hs : s < (ns.map (· / cpSize)).sum) :
    ∃ i p : Nat, ∀ {β : Type} (zero : β) (f : Nat → Nat → β),
      (localPieces zero cpSize cpRank (fullSeqs idxs ns f) ns).flatten[s]? = some (f i p) := by
  obtain ⟨k, p, n, hn, hpos⟩ := exists_slotPosition hcp hrank h.dvd hs
  have hlen := (forall₂_iff_get.1 h.le).1
  rw [length_map] at hlen
  obtain ⟨hk, -⟩ := List.getElem?_eq_some_iff.1 hn
  obtain ⟨i, hi⟩ : ∃ i, idxs[k]? = some i := ⟨_, getElem?_eq_getElem (by omega)⟩
  have hget : ∀ {β : Type} (zero : β) (f : Nat → Nat → β),
      (localPieces zero cpSize cpRank (fullSeqs idxs ns f) ns).flatten[s]? =
        ((range n).map (f i))[p]? := by
    intro β zero f
    have hseq : (fullSeqs idxs ns f)[k]? = some ((range n).map (f i)) := by
      unfold fullSeqs
      rw [getElem?_zipWith, hi, hn]
    have hfull : ((range n).map (f i)).length = n := by
      rw [length_map, length_range]
    rw [hpos zero _ (h.padded f) _ hseq hfull.le]
    by_cases hp : p < n
    · rw [getElem?_padTo_of_lt (by rwa [hfull])]
    · rw [getElem?_eq_none (by rw [length_padTo _ hfull.le]; omega),
        getElem?_eq_none (by rw [hfull]; omega)]
  have hp : p < n := by
    have hlt : s < (localPieces 0 cpSize cpRank (fullSeqs idxs ns fun _ _ => 0) ns).flatten.length := by
      rw [length_flatten_localPieces hcp hrank (h.padded _)]
      exact hs
    have hsome := hget 0 fun _ _ => 0
    rw [getElem?_eq_getElem hlt] at hsome
    by_contra hge
    rw [getElem?_eq_none (by rw [length_map, length_range]; omega)] at hsome
    cases hsome
  refine ⟨i, p, fun zero f => ?_⟩
  rw [hget zero f, getElem?_map, getElem?_range hp]
  rfl

/-- The positions in the slots of a rank. -/
def slotPositions (tpSize cpSize cpRank : Nat) (fp8 : Bool) (b : Batch) (idxs : List Nat) :
    List (Nat × Nat) := slotsOf (0, 0) tpSize cpSize cpRank fp8 b idxs Prod.mk

theorem length_slotPositions (fp8 : Bool) (b : Batch) {cpRank : Nat} (htp : 1 ≤ tpSize)
    (hcp : 1 ≤ cpSize) (hrank : cpRank < cpSize) (hne : idxs ≠ []) :
    (slotPositions tpSize cpSize cpRank fp8 b idxs).length =
      ((paddedLens tpSize cpSize fp8 b idxs).map (· / cpSize)).sum :=
  length_flatten_localPieces hcp hrank ((paddedLens_spec htp hcp fp8 b hne).padded Prod.mk)

theorem slotsOf_eq_map {β : Type} {cpRank : Nat} (htp : 1 ≤ tpSize) (hcp : 1 ≤ cpSize)
    (hrank : cpRank < cpSize) (hne : idxs ≠ []) (zero : β) (f : Nat → Nat → β) :
    slotsOf zero tpSize cpSize cpRank fp8 b idxs f =
      (slotPositions tpSize cpSize cpRank fp8 b idxs).map fun q => f q.1 q.2 := by
  have hspec := paddedLens_spec htp hcp fp8 b hne
  have hlen : ∀ {γ : Type} (zero : γ) (f : Nat → Nat → γ),
      (slotsOf zero tpSize cpSize cpRank fp8 b idxs f).length =
        ((paddedLens tpSize cpSize fp8 b idxs).map (· / cpSize)).sum := fun zero f =>
    length_flatten_localPieces hcp hrank (hspec.padded f)
  apply ext_getElem?
  intro s
  by_cases hs : s < ((paddedLens tpSize cpSize fp8 b idxs).map (· / cpSize)).sum
  · obtain ⟨i, p, hget⟩ := hspec.exists_slot hcp hrank hs
    have hf : (slotsOf zero tpSize cpSize cpRank fp8 b idxs f)[s]? = some (f i p) := hget zero f
    have hpos : (slotPositions tpSize cpSize cpRank fp8 b idxs)[s]? = some (i, p) :=
      hget (0, 0) Prod.mk
    rw [hf, getElem?_map, hpos]
    rfl
  · have hge := Nat.not_lt.1 hs
    rw [getElem?_eq_none (by rw [hlen]; exact hge), getElem?_eq_none]
    rw [length_map]
    unfold slotPositions
    rw [hlen]
    exact hge

end Slots

/-! ## Lemmas: one micro-batch -/

section Merge

variable {mg : Megatron} {cfg : TransformerConfig} {layers : List Nat} {tpSize cpSize : Nat}
  {routing : Routing cfg.moeRouterTopk} {b : Batch} {chunk ppRank : Nat} {idxs : List Nat}

variable {β γ : Type} {xs : List β} {vpRank : Option Nat} {cpRank : Nat}
  {instances : Nat → Nat → List RouterReplay}

theorem stackLayers_map {layers : List Nat} (g : Nat → β → List UInt8) (hne : layers ≠ []) :
    stackLayers (layers.map fun layer => xs.map (g layer)) =
      .ok (xs.map fun x => layers.map fun layer => g layer x) := by
  cases layers with
  | nil => exact absurd rfl hne
  | cons layer layers =>
    have hall : ((layers.map fun layer => xs.map (g layer)).all
        (·.length == (xs.map (g layer)).length)) = true := by simp
    show (if _ = true then _ else _) = _
    rw [if_pos hall, length_map, ← map_cons (f := fun layer => xs.map (g layer))]
    congr 1
    apply ext_getElem
    · simp
    · intro s hs hs'
      rw [length_map] at hs'
      rw [getElem_map, getElem_map, getElem_range, map_map]
      apply map_congr_left
      intro layer' _
      rw [comp_apply, getD_eq_getElem?_getD, getElem?_map,
        getElem?_eq_getElem hs', Option.map_some, Option.getD_some]

theorem Megatron.Lawful.scatter_map (hmg : mg.Lawful) {tpRank : Nat}
    (f : β → γ) (hdvd : tpSize ∣ xs.length) (hrank : tpRank < tpSize) :
    mg.scatterToSequenceParallelRegion tpSize tpRank (xs.map f) =
      (mg.scatterToSequenceParallelRegion tpSize tpRank xs).map f := by
  rw [hmg.scatter tpSize tpRank (xs.map f) (by rwa [length_map]) hrank,
    hmg.scatter tpSize tpRank xs hdvd hrank, length_map, getSlice_map]

theorem Megatron.Lawful.gather_scatter (hmg : mg.Lawful)
    (htp : 1 ≤ tpSize) (hdvd : tpSize ∣ xs.length) :
    mg.gatherFromSequenceParallelRegion ((range tpSize).map fun tpRank =>
      mg.scatterToSequenceParallelRegion tpSize tpRank xs) = xs := by
  have hshards : ((range tpSize).map fun tpRank =>
      mg.scatterToSequenceParallelRegion tpSize tpRank xs) =
        (range tpSize).map fun tpRank =>
          getSlice xs (tpRank * (xs.length / tpSize)) (xs.length / tpSize) :=
    map_congr_left fun tpRank hrank =>
      hmg.scatter tpSize tpRank xs hdvd (mem_range.1 hrank)
  rw [hmg.gather, hshards, flatten_getSlice, Nat.mul_div_cancel' hdvd]
  exact getSlice_zero xs (Nat.le_refl _)

theorem Built.getMicroBatchRouterList_eq {ρ : Type} (h : Built mg cfg layers)
    (hchunk : chunk < numChunks cfg) (hrank : ppRank < cfg.pipelineModelParallelSize)
    (hvp : vpRank ∈ vpRanks cfg chunk) (instances : List ρ) :
    getMicroBatchRouterList mg cfg ppRank vpRank instances =
      .ok (getSlice instances ((range chunk).flatMap fun pre =>
          stageLayers cfg layers (stageIdx cfg pre ppRank)).length
        (stageLayers cfg layers (stageIdx cfg chunk ppRank)).length) := by
  unfold getMicroBatchRouterList
  rw [h.microBatchRouterRange_eq hchunk hrank hvp]
  rfl

section

variable (hbuilt : Built mg cfg layers) (hmg : mg.Lawful) (htp : 1 ≤ tpSize) (hcp : 1 ≤ cpSize)
  (hne : idxs ≠ []) (hchunk : chunk < numChunks cfg) (hpp : ppRank < cfg.pipelineModelParallelSize)
  (hlayers : stageLayers cfg layers (stageIdx cfg chunk ppRank) ≠ [])
  (hrec : Records mg cfg layers tpSize cpSize routing b instances chunk ppRank idxs)
  (hvp : vpRank ∈ vpRanks cfg chunk)
include hbuilt hmg htp hcp hne hchunk hpp hlayers hrec hvp

theorem localTopkIdx_eq {tpRank : Nat} (hcpRank : cpRank < cpSize) (htpRank : tpRank < tpSize) :
    localTopkIdx mg cfg ppRank vpRank (instances cpRank tpRank) =
      .ok ((mg.scatterToSequenceParallelRegion tpSize tpRank
        (slotPositions tpSize cpSize cpRank (useFp8Padding cfg) b idxs)).map fun q =>
          blockOf routing (stageLayers cfg layers (stageIdx cfg chunk ppRank)) q.1 (some q.2)) := by
  have hlen := length_slotPositions (useFp8Padding cfg) b htp hcp hcpRank hne
  have htpDvd := (paddedLens_spec htp hcp (useFp8Padding cfg) b hne).tpDvd
  have hrouters := hbuilt.getMicroBatchRouterList_eq hchunk hpp hvp (instances cpRank tpRank)
  have hforall := (hrec cpRank hcpRank tpRank htpRank).2 vpRank hvp _ hrouters
  generalize hlayersEq : stageLayers cfg layers (stageIdx cfg chunk ppRank) = ls at *
  have hrecorded : (getSlice (instances cpRank tpRank) ((range chunk).flatMap fun pre =>
      stageLayers cfg layers (stageIdx cfg pre ppRank)).length ls.length).mapM recordedUint8 =
        .ok (ls.map fun layer => (mg.scatterToSequenceParallelRegion tpSize tpRank
          (slotPositions tpSize cpSize cpRank (useFp8Padding cfg) b idxs)).map fun q =>
            (routing.ids q.1 layer q.2).map UInt8.ofNat) := by
    apply mapM_eq_ok_of_forall₂
    rw [forall₂_map_right_iff]
    refine hforall.imp fun router layer hrouter => ?_
    unfold recordedUint8
    rw [hrouter, slotsOf_eq_map htp hcp hcpRank hne,
      hmg.scatter_map _ (by rw [hlen]; exact htpDvd) htpRank]
    dsimp only
    rw [map_map]
    rfl
  unfold localTopkIdx
  rw [hrouters, ok_bind, hrecorded, ok_bind, stackLayers_map _ hlayers]
  rfl

/-- What the tensor-parallel ranks gather: the ids of all slots. -/
theorem packedTopkIdx_eq (hcpRank : cpRank < cpSize) :
    packedTopkIdx mg cfg tpSize ppRank vpRank (instances cpRank) =
      .ok (slotsOf [] tpSize cpSize cpRank (useFp8Padding cfg) b idxs fun i p =>
        blockOf routing (stageLayers cfg layers (stageIdx cfg chunk ppRank)) i (some p)) := by
  have hlen := length_slotPositions (useFp8Padding cfg) b htp hcp hcpRank hne
  have htpDvd := (paddedLens_spec htp hcp (useFp8Padding cfg) b hne).tpDvd
  have hshards := mapM_eq_ok_map (fun tpRank =>
      localTopkIdx mg cfg ppRank vpRank (instances cpRank tpRank)) _ (range tpSize)
    fun tpRank htpRank => localTopkIdx_eq hbuilt hmg htp hcp hne hchunk hpp hlayers hrec hvp hcpRank
      (mem_range.1 htpRank)
  have hscatter : ∀ tpRank ∈ range tpSize,
      (mg.scatterToSequenceParallelRegion tpSize tpRank
        (slotPositions tpSize cpSize cpRank (useFp8Padding cfg) b idxs)).map (fun q =>
          blockOf routing (stageLayers cfg layers (stageIdx cfg chunk ppRank)) q.1 (some q.2)) =
        mg.scatterToSequenceParallelRegion tpSize tpRank
          (slotsOf [] tpSize cpSize cpRank (useFp8Padding cfg) b idxs fun i p =>
            blockOf routing (stageLayers cfg layers (stageIdx cfg chunk ppRank)) i (some p)) := by
    intro tpRank htpRank
    rw [slotsOf_eq_map htp hcp hcpRank hne,
      hmg.scatter_map _ (by rw [hlen]; exact htpDvd) (mem_range.1 htpRank)]
  unfold packedTopkIdx
  rw [hshards, ok_bind, map_congr_left hscatter]
  show Except.ok _ = _
  rw [hmg.gather_scatter htp]
  rw [slotsOf_eq_map htp hcp hcpRank hne, length_map, hlen]
  exact htpDvd

end

/-- The micro-batches that can be packed on all ranks for recording. -/
structure RecordLoads (tpSize cpSize : Nat) (fp8 : Bool) (b : Batch) (idxs : List Nat) : Prop where
  nonempty : idxs ≠ []
  tokens : b.isNested = true → TokensLoad tpSize cpSize fp8 (idxs.map b.len)

theorem map_length_inputIds (hnested : b.isNested = true) (idxs : List Nat) :
    (b.inputIds idxs).map length = idxs.map b.len := by
  unfold Batch.inputIds
  rw [map_map]
  apply map_congr_left
  intro i _
  unfold Batch.len
  rw [if_pos hnested]
  rfl

theorem zipWith_map_same {δ : Type} (f : β → γ → δ) (g : Nat → β) (h : Nat → γ)
    (xs : List Nat) : zipWith f (xs.map g) (xs.map h) = xs.map fun i => f (g i) (h i) := by
  rw [zipWith_map, zipWith_self]

theorem map_length_maskSelect_batch (hpadded : b.isNested = false) (idxs : List Nat) :
    (zipWith maskSelect (b.attentionMask idxs) (b.inputIds idxs)).map length =
      idxs.map b.len := by
  unfold Batch.attentionMask Batch.inputIds
  rw [zipWith_map_same, map_map]
  apply map_congr_left
  intro i _
  obtain ⟨hids, hmask⟩ := b.wf hpadded i
  rw [comp_apply, length_maskSelect (by rw [hids, hmask])]
  unfold Batch.len
  rw [hpadded]
  rfl

theorem forall₂_batch (hpadded : b.isNested = false) (idxs : List Nat) :
    Forall₂ (fun mask row => mask.length = row.length) (b.attentionMask idxs)
      (b.inputIds idxs) := by
  unfold Batch.attentionMask Batch.inputIds
  rw [forall₂_map_left_iff, forall₂_map_right_iff, forall₂_same]
  intro i _
  obtain ⟨hids, hmask⟩ := b.wf hpadded i
  rw [hids, hmask]

theorem forall₂_fullSeqs {R : γ → List β → Prop} {ns : List Nat} (len : Nat → Nat)
    {idxs : List Nat} (hle : Forall₂ (· ≤ ·) (idxs.map len) ns) (f : Nat → Nat → β)
    (g : Nat → γ) (hR : ∀ i n, len i ≤ n → R (g i) ((range n).map (f i))) :
    Forall₂ R (idxs.map g) (fullSeqs idxs ns f) := by
  unfold fullSeqs
  induction idxs generalizing ns with
  | nil => exact .nil
  | cons i idxs ih =>
    cases hle with
    | cons hlen hrest => exact .cons (hR i _ hlen) (ih hrest)

theorem zipWith_fullSeqs {δ : Type} {ns : List Nat} (len : Nat → Nat) {idxs : List Nat}
    (hle : Forall₂ (· ≤ ·) (idxs.map len) ns) (f : Nat → Nat → β) (g : Nat → γ)
    (op : γ → List β → δ) (h : Nat → δ)
    (hop : ∀ i n, len i ≤ n → op (g i) ((range n).map (f i)) = h i) :
    zipWith op (idxs.map g) (fullSeqs idxs ns f) = idxs.map h := by
  unfold fullSeqs
  induction idxs generalizing ns with
  | nil => rfl
  | cons i idxs ih =>
    cases hle with
    | cons hlen hrest =>
      rw [map_cons, zipWith_cons_cons, zipWith_cons_cons, map_cons, ih hrest,
        hop i _ hlen]

theorem take_map_range {n m : Nat} (h : m ≤ n) (f : Nat → β) :
    ((range n).map f).take m = (range m).map f := by
  rw [← map_take, take_range, Nat.min_eq_left h]

theorem maskAssign_map (f : β → γ) (mask : List Bool) (xs vals : List β) :
    (maskAssign mask xs vals).map f = maskAssign mask (xs.map f) (vals.map f) := by
  induction mask generalizing xs vals with
  | nil => rfl
  | cons m mask ih =>
    cases xs with
    | nil => cases m <;> rfl
    | cons x xs =>
      cases m with
      | false => exact congrArg (f x :: ·) (ih xs vals)
      | true =>
        cases vals with
        | nil => rfl
        | cons v vals => exact congrArg (f v :: ·) (ih xs vals)

theorem unpackTopkIdx_eq (htp : 1 ≤ tpSize) (hcp : 1 ≤ cpSize) (hcpRank : cpRank < cpSize)
    (hload : RecordLoads tpSize cpSize (useFp8Padding cfg) b idxs) (ls : List Nat) :
    unpackTopkIdx cfg ⟨tpSize, cpSize, cpRank⟩ ls.length
        ((range cpSize).map fun r =>
          slotsOf [] tpSize cpSize r (useFp8Padding cfg) b idxs fun i p =>
            blockOf routing ls i (some p)) b idxs =
      .ok (topkOf routing b idxs ls).rows := by
  have hspec := paddedLens_spec htp hcp (useFp8Padding cfg) b hload.nonempty
  have hfull := hspec.padded fun i p => blockOf routing ls i (some p)
  unfold unpackTopkIdx
  dsimp only
  rw [getD_map_range hcpRank]
  by_cases hnested : b.isNested = true
  · have hlens := map_length_inputIds hnested idxs
    obtain ⟨out, layout, hout, hparams, hlayout, hns⟩ := @TokensLoad.exists_preprocess Nat
      tpSize cpSize _ (b.inputIds idxs) 0 htp hcp (by rw [hlens]; exact hload.tokens hnested) cpRank
      hcpRank
    rw [hlens] at hns
    have hcu : out.params.cuSeqlensPadded =
        offsets (paddedLens tpSize cpSize (useFp8Padding cfg) b idxs) := by
      unfold paddedLens
      rw [← hns, hparams]
      exact hlayout.cuSeqlens
    rw [if_pos hnested, hout, ok_bind, hlens]
    refine (postprocessThdEngine_take [] [] ⟨tpSize, cpSize, cpRank⟩ hcp hcpRank hcu hfull
      (forall₂_fullSeqs b.len hspec.le _ b.len fun i n hle => by
        rwa [length_map, length_range]) fun r _ => rfl).trans ?_
    congr 1
    refine zipWith_fullSeqs b.len hspec.le _ b.len _ _ fun i n hle => ?_
    unfold Batch.labels
    rw [if_pos hnested, take_map_range hle, map_map]
    rfl
  · have hpadded : b.isNested = false := Bool.eq_false_iff.2 hnested
    have hlens := map_length_maskSelect_batch hpadded idxs
    obtain ⟨layout, hlayout, hlayoutOf, hpre⟩ := preprocessPackedSeqs_eq 0
      ⟨tpSize, cpSize, cpRank⟩ htp hcp (useFp8Padding cfg)
      (show b.attentionMask idxs ≠ [] by
        unfold Batch.attentionMask
        rw [ne_eq, map_eq_nil_iff]
        exact hload.nonempty)
      (forall₂_batch hpadded idxs)
    have hns := seqlensPadded_of_thdLayout hlayout
    rw [hlens] at hns
    have hcu : layout.params.cuSeqlensPadded =
        offsets (paddedLens tpSize cpSize (useFp8Padding cfg) b idxs) := by
      unfold paddedLens
      rw [← hns]
      exact hlayoutOf.cuSeqlens
    have hlenEq : ∀ i, b.len i = (b.sample i).attentionMask.count true := by
      simp [Batch.len, if_neg hnested]
    rw [if_neg hnested, hpre cpRank hcpRank, ok_bind]
    refine (postprocessPackedSeqs_take (zeroTopk ls.length cfg.moeRouterTopk) []
      ⟨tpSize, cpSize, cpRank⟩ hcp hcpRank hcu hfull
      (forall₂_fullSeqs b.len hspec.le _ (fun i => (b.sample i).attentionMask) fun i n hle => by
        rwa [length_map, length_range, ← hlenEq]) fun r hr =>
          (slotsOf_eq_map htp hcp hr hload.nonempty [] _).trans
            (slotsOf_eq_map htp hcp hr hload.nonempty _ _).symm).trans ?_
    congr 1
    refine zipWith_fullSeqs b.len hspec.le _ (fun i => (b.sample i).attentionMask) _ _
      fun i n hle => ?_
    unfold Batch.labels
    rw [if_neg hnested, ← hlenEq, take_map_range hle, maskAssign_map, map_map,
      map_replicate]
    rfl

section

variable (hbuilt : Built mg cfg layers) (hmg : mg.Lawful) (htp : 1 ≤ tpSize) (hcp : 1 ≤ cpSize)
  (hchunk : chunk < numChunks cfg) (hpp : ppRank < cfg.pipelineModelParallelSize)
include hbuilt hmg htp hcp hchunk hpp

/-- `merge_router_topk_indices` on a micro-batch that loads: the ids of the chunk's layers. -/
theorem merge_eq (hlayers : stageLayers cfg layers (stageIdx cfg chunk ppRank) ≠ [])
    (hrec : Records mg cfg layers tpSize cpSize routing b instances chunk ppRank idxs)
    (hload : RecordLoads tpSize cpSize (useFp8Padding cfg) b idxs)
    (hvp : vpRank ∈ vpRanks cfg chunk) (hcpRank : cpRank < cpSize) :
    mergeRouterTopkIndices mg cfg ⟨tpSize, cpSize, cpRank⟩ ppRank vpRank instances b idxs =
      .ok (topkOf routing b idxs (stageLayers cfg layers (stageIdx cfg chunk ppRank))) := by
  have hrouters := hbuilt.getMicroBatchRouterList_eq hchunk hpp hvp (instances cpRank 0)
  have hlen := ((hrec cpRank hcpRank 0 htp).2 vpRank hvp _ hrouters).length_eq
  have hpacked := mapM_eq_ok_map (fun r => packedTopkIdx mg cfg tpSize ppRank vpRank (instances r)) _
    (range cpSize) fun r hr => packedTopkIdx_eq hbuilt hmg htp hcp hload.nonempty hchunk hpp
      hlayers hrec hvp (mem_range.1 hr)
  unfold mergeRouterTopkIndices
  rw [hrouters, ok_bind, hpacked, ok_bind, hlen,
    unpackTopkIdx_eq htp hcp hcpRank hload, ok_bind]
  rfl

/-- A merge that returns had routers and a micro-batch that loads. -/
theorem of_merge_ok (hvp : vpRank ∈ vpRanks cfg chunk)
    (hok : ∀ cpRank < cpSize, ∃ t, mergeRouterTopkIndices mg cfg ⟨tpSize, cpSize, cpRank⟩ ppRank
      vpRank instances b idxs = .ok t) :
    stageLayers cfg layers (stageIdx cfg chunk ppRank) ≠ [] ∧
      RecordLoads tpSize cpSize (useFp8Padding cfg) b idxs := by
  constructor
  · intro hnil
    obtain ⟨t, hmerge⟩ := hok 0 hcp
    unfold mergeRouterTopkIndices at hmerge
    obtain ⟨_, -, hmerge⟩ := bind_eq_ok.1 hmerge
    obtain ⟨packed, hpacked, -⟩ := bind_eq_ok.1 hmerge
    obtain ⟨_, hfirst⟩ := exists_of_mapM hpacked (mem_range.2 hcp)
    unfold packedTopkIdx at hfirst
    obtain ⟨shards, hshards, -⟩ := bind_eq_ok.1 hfirst
    obtain ⟨_, hlocal⟩ := exists_of_mapM hshards (mem_range.2 htp)
    unfold localTopkIdx at hlocal
    rw [hbuilt.getMicroBatchRouterList_eq hchunk hpp hvp, ok_bind, hnil] at hlocal
    cases hlocal
  · have hunpack : ∀ cpRank < cpSize, ∃ n packed rows,
        unpackTopkIdx cfg ⟨tpSize, cpSize, cpRank⟩ n packed b idxs = .ok rows := by
      intro cpRank hcpRank
      obtain ⟨t, hmerge⟩ := hok cpRank hcpRank
      unfold mergeRouterTopkIndices at hmerge
      obtain ⟨routers, -, hmerge⟩ := bind_eq_ok.1 hmerge
      obtain ⟨packed, -, hmerge⟩ := bind_eq_ok.1 hmerge
      obtain ⟨rows, hrows, -⟩ := bind_eq_ok.1 hmerge
      exact ⟨_, _, rows, hrows⟩
    by_cases hnested : b.isNested = true
    · have hlens := map_length_inputIds hnested idxs
      have htokens : TokensLoad tpSize cpSize (useFp8Padding cfg) (idxs.map b.len) := by
        rw [← hlens]
        refine (tokensLoad_iff 0 htp hcp).1 fun cpRank hcpRank => ?_
        obtain ⟨n, packed, rows, hrows⟩ := hunpack cpRank hcpRank
        unfold unpackTopkIdx at hrows
        rw [if_pos hnested] at hrows
        obtain ⟨out, hout, -⟩ := bind_eq_ok.1 hrows
        exact ⟨out, hout⟩
      exact ⟨fun hnil => htokens.nonempty (by rw [hnil]; rfl), fun _ => htokens⟩
    · refine ⟨?_, fun h => absurd h hnested⟩
      rintro rfl
      obtain ⟨n, packed, rows, hrows⟩ := hunpack 0 hcp
      unfold unpackTopkIdx at hrows
      rw [if_neg hnested] at hrows
      obtain ⟨out, hout, -⟩ := bind_eq_ok.1 hrows
      unfold preprocessPackedSeqs at hout
      obtain ⟨layout, hlayout, -⟩ := bind_eq_ok.1 hout
      exact ne_nil_of_thdLayout hlayout rfl

end

end Merge

/-! ## Lemmas: rows and layers put together -/

section Cat

variable {topk : Nat} (routing : Routing topk) (b : Batch)

theorem zeroTopk_add (m n topk : Nat) : zeroTopk m topk ++ zeroTopk n topk = zeroTopk (m + n) topk :=
  replicate_append_replicate

theorem blockOf_append (layers layers' : List Nat) (i : Nat) (label : Option Nat) :
    blockOf routing layers i label ++ blockOf routing layers' i label =
      blockOf routing (layers ++ layers') i label := by
  cases label with
  | none =>
    unfold blockOf
    rw [zeroTopk_add, length_append]
  | some p => exact map_append.symm

theorem getSlice_blockOf (layers : List Nat) (i : Nat) (label : Option Nat) (start size : Nat) :
    getSlice (blockOf routing layers i label) start size =
      blockOf routing (getSlice layers start size) i label := by
  cases label with
  | none =>
    unfold blockOf zeroTopk getSlice
    rw [drop_replicate, take_replicate, length_take, length_drop]
  | some p => exact getSlice_map _ _ _ _

theorem sliceLayers_topkOf (idxs layers : List Nat) (start stop : Nat) :
    sliceLayers (topkOf routing b idxs layers) start stop =
      topkOf routing b idxs (getSlice layers start (stop - start)) := by
  have hlen : min stop layers.length - start = (getSlice layers start (stop - start)).length := by
    unfold getSlice
    rw [length_take, length_drop]
    omega
  unfold sliceLayers topkOf
  dsimp only
  rw [hlen, map_map]
  congr 1
  apply map_congr_left
  intro i _
  rw [comp_apply, map_map]
  exact map_congr_left fun label _ => getSlice_blockOf routing layers i label _ _

theorem catLayerPair_topkOf (idxs layers layers' : List Nat) :
    catLayerPair (topkOf routing b idxs layers) (topkOf routing b idxs layers') =
      .ok (topkOf routing b idxs (layers ++ layers')) := by
  have hlens : (topkOf routing b idxs layers).rows.map length =
      (topkOf routing b idxs layers').rows.map length := by
    simp [topkOf, map_map, comp_apply, length_map]
  unfold catLayerPair
  rw [if_pos hlens]
  unfold topkOf
  dsimp only
  rw [length_append, zipWith_map, zipWith_self]
  congr 2
  apply map_congr_left
  intro i _
  rw [zipWith_map, zipWith_self]
  exact map_congr_left fun label _ => blockOf_append routing layers layers' i label

theorem catLayers_topkOf (idxs : List Nat) {parts : List (List Nat)} (hne : parts ≠ []) :
    catLayers (parts.map (topkOf routing b idxs)) = .ok (topkOf routing b idxs parts.flatten) := by
  cases parts with
  | nil => exact absurd rfl hne
  | cons first rest =>
    show (rest.map (topkOf routing b idxs)).foldlM catLayerPair (topkOf routing b idxs first) = _
    rw [flatten_cons]
    clear hne
    induction rest generalizing first with
    | nil =>
      rw [flatten_nil, append_nil]
      rfl
    | cons part rest ih =>
      rw [map_cons, foldlM_cons, catLayerPair_topkOf, ok_bind, ih,
        flatten_cons, append_assoc]

theorem catRows_topkOf {parts : List (List Nat)} (hne : parts ≠ []) (layers : List Nat) :
    catRows (parts.map fun idxs => topkOf routing b idxs layers) =
      .ok (topkOf routing b parts.flatten layers) := by
  have hrows : (parts.map fun idxs => topkOf routing b idxs layers).flatMap LayersTopkIdx.rows =
      (topkOf routing b parts.flatten layers).rows := by
    unfold topkOf
    rw [flatMap_map, ← flatMap_id, map_flatMap]
    rfl
  cases parts with
  | nil => exact absurd rfl hne
  | cons first rest =>
    exact congrArg (fun rows => Except.ok { topkOf routing b first layers with rows := rows }) hrows

end Cat

/-! ## Lemmas: a pipeline rank -/

section Rank

variable {mg : Megatron} {cfg : TransformerConfig} {layers : List Nat}
  {routing : Routing cfg.moeRouterTopk} {b : Batch} {ppRank : Nat} {microBatches : List (List Nat)}
  {merge : Option Nat → List Nat → Except PyErr LayersTopkIdx}

/-- The tensors of a chunk, where those of all virtual micro-batches are known. -/
theorem tensorByChunk_map (table : List (Nat × Nat)) (g : Nat × Nat → LayersTopkIdx) (chunk : Nat) :
    tensorByChunk table (table.map g) chunk = (table.filter fun p => p.2 == chunk).map g := by
  unfold tensorByChunk
  induction table with
  | nil => rfl
  | cons p table ih =>
    rw [map_cons, zip_cons_cons, filterMap_cons, ih, filter_cons]
    by_cases h : p.2 = chunk
    · grind
    · rw [if_neg h, if_neg (by simpa using h)]

theorem exists_numChunks {vpSize : Nat} (hsize : cfg.virtualPipelineModelParallelSize = some vpSize) :
    numChunks cfg = vpSize ∧ ∀ chunk, vpStage cfg chunk = some chunk := by
  unfold numChunks vpStage
  rw [hsize]
  exact ⟨rfl, fun chunk => rfl⟩

theorem map_getD_self {β : Type} (xs : List β) (d : β) :
    ((range xs.length).map fun k => xs.getD k d) = xs := by
  apply ext_getElem
  · rw [length_map, length_range]
  · grind

theorem recordRank_eq (hbuilt : Built mg cfg layers) (hmg : mg.Lawful) (hne : microBatches ≠ [])
    (hmerge : ∀ idxs ∈ microBatches, ∀ chunk < numChunks cfg, merge (vpStage cfg chunk) idxs =
      .ok (topkOf routing b idxs (stageLayers cfg layers (stageIdx cfg chunk ppRank)))) :
    recordRank mg cfg merge microBatches =
      .ok (topkOf routing b microBatches.flatten (rankLayers cfg layers ppRank)) := by
  unfold recordRank
  cases hsize : cfg.virtualPipelineModelParallelSize with
  | none =>
    have hchunks : numChunks cfg = 1 := by
      unfold numChunks
      rw [hsize]
      rfl
    have hvp : vpStage cfg 0 = none := by
      unfold vpStage
      rw [hsize]
      rfl
    have htensors := mapM_eq_ok_map (merge none) _ microBatches fun idxs hidxs => by
      rw [← hvp]
      exact hmerge idxs hidxs 0 (by omega)
    have hlayers : rankLayers cfg layers ppRank = stageLayers cfg layers (stageIdx cfg 0 ppRank) := by
      simp [rankLayers, hchunks]
    dsimp only
    rw [htensors, ok_bind, catRows_topkOf routing b hne, hlayers]
  | some vpSize =>
    obtain ⟨hchunks, hvp⟩ := exists_numChunks hsize
    have hgroup := hbuilt.groupSize
    have hlt := hmg.chunk_lt microBatches.length vpSize cfg.microbatchGroupSizePerVpStage
    have hschedule := fun chunk => hmg.schedule microBatches.length vpSize
      cfg.microbatchGroupSizePerVpStage chunk hgroup
    dsimp only
    unfold reorderAndMergeVppLayers
    dsimp only
    generalize mg.getScheduleTable microBatches.length vpSize
      cfg.microbatchGroupSizePerVpStage = table at *
    have hmem : ∀ p ∈ table, p.1 < microBatches.length := by
      intro p hp
      rw [← mem_range, ← hschedule p.2 (hlt p hp)]
      exact mem_map_of_mem (mem_filter.2 ⟨hp, beq_self_eq_true _⟩)
    have htensors := mapM_eq_ok_map (fun p : Nat × Nat => merge (some p.2)
      (microBatches.getD p.1 [])) (fun p => topkOf routing b (microBatches.getD p.1 [])
        (stageLayers cfg layers (stageIdx cfg p.2 ppRank))) table fun p hp => by grind
    have hchunk : ∀ chunk < vpSize, catRows (tensorByChunk table (table.map fun p =>
        topkOf routing b (microBatches.getD p.1 [])
          (stageLayers cfg layers (stageIdx cfg p.2 ppRank))) chunk) =
        .ok (topkOf routing b microBatches.flatten
          (stageLayers cfg layers (stageIdx cfg chunk ppRank))) := by
      intro chunk hlt'
      have hparts : ((table.filter fun p => p.2 == chunk).map fun p =>
          topkOf routing b (microBatches.getD p.1 [])
            (stageLayers cfg layers (stageIdx cfg p.2 ppRank))) =
          microBatches.map fun idxs => topkOf routing b idxs
            (stageLayers cfg layers (stageIdx cfg chunk ppRank)) := by
        conv_rhs => rw [← map_getD_self microBatches [], ← hschedule chunk hlt', map_map,
          map_map]
        apply map_congr_left
        intro p hp
        rw [mem_filter, beq_iff_eq] at hp
        rw [hp.2]
        rfl
      rw [tensorByChunk_map, hparts, catRows_topkOf routing b hne]
    have hlong : ¬((table.map fun p => topkOf routing b (microBatches.getD p.1 [])
        (stageLayers cfg layers (stageIdx cfg p.2 ppRank))).length < table.length ∨
          ∃ p ∈ table, vpSize ≤ p.2) := by grind
    have hmini := mapM_eq_ok_map _ _ (range vpSize) fun chunk hc =>
      hchunk chunk (mem_range.1 hc)
    rw [htensors, ok_bind, if_neg hlong, hmini, ok_bind]
    have hcat := catLayers_topkOf routing b microBatches.flatten
      (show ((range vpSize).map fun chunk =>
        stageLayers cfg layers (stageIdx cfg chunk ppRank)) ≠ [] by
        have hpos := hbuilt.chunks
        rw [ne_eq, map_eq_nil_iff, range_eq_nil]
        omega)
    rw [map_map] at hcat
    refine hcat.trans ?_
    unfold rankLayers
    rw [hchunks]
    rfl

/-- A rank that returns has merged every micro-batch on every chunk. -/
theorem of_recordRank_ok (hbuilt : Built mg cfg layers) (hmg : mg.Lawful) {t : LayersTopkIdx}
    (h : recordRank mg cfg merge microBatches = .ok t) :
    microBatches ≠ [] ∧ ∀ idxs ∈ microBatches, ∀ chunk < numChunks cfg,
      ∃ t', merge (vpStage cfg chunk) idxs = .ok t' := by
  unfold recordRank at h
  cases hsize : cfg.virtualPipelineModelParallelSize with
  | none =>
    rw [hsize] at h
    obtain ⟨tensors, htensors, h⟩ := bind_eq_ok.1 h
    refine ⟨?_, fun idxs hidxs chunk _ => ?_⟩
    · rintro rfl
      cases htensors
      cases h
    · unfold vpStage
      rw [hsize]
      exact exists_of_mapM htensors hidxs
  | some vpSize =>
    obtain ⟨hchunks, hvp⟩ := exists_numChunks hsize
    have hpos := hbuilt.chunks
    have hschedule := fun chunk => hmg.schedule microBatches.length vpSize
      cfg.microbatchGroupSizePerVpStage chunk hbuilt.groupSize
    rw [hsize] at h
    dsimp only at h
    obtain ⟨tensors, htensors, hreorder⟩ := bind_eq_ok.1 h
    unfold reorderAndMergeVppLayers at hreorder
    dsimp only at hreorder
    generalize mg.getScheduleTable microBatches.length vpSize
      cfg.microbatchGroupSizePerVpStage = table at *
    refine ⟨?_, fun idxs hidxs chunk hc => ?_⟩
    · rintro rfl
      have hnil := hschedule 0 (by omega)
      rw [length_nil, range_zero, map_eq_nil_iff] at hnil
      split at hreorder
      · cases hreorder
      · obtain ⟨mini, hmini, -⟩ := bind_eq_ok.1 hreorder
        obtain ⟨t', hfirst⟩ := exists_of_mapM hmini (mem_range.2 (show 0 < vpSize by omega))
        have hempty : tensorByChunk table tensors 0 = [] := by
          unfold tensorByChunk
          rw [filterMap_eq_nil_iff]
          intro p hp
          have hfst := (of_mem_zip hp).1
          rw [if_neg]
          intro hzero
          have hmem : p.1 ∈ table.filter fun p => p.2 == 0 :=
            mem_filter.2 ⟨hfst, by rw [hzero, beq_self_eq_true]⟩
          rw [hnil] at hmem
          cases hmem
        rw [hempty] at hfirst
        cases hfirst
    · obtain ⟨k, hk, rfl⟩ := getElem_of_mem hidxs
      have hmem : k ∈ (table.filter fun p => p.2 == chunk).map Prod.fst := by grind
      obtain ⟨p, hp, rfl⟩ := mem_map.1 hmem
      rw [mem_filter, beq_iff_eq] at hp
      obtain ⟨t', ht'⟩ := exists_of_mapM htensors hp.1
      rw [hp.2, getD_eq_getElem?_getD, getElem?_eq_getElem hk, Option.getD_some] at ht'
      rw [hvp]
      exact ⟨t', ht'⟩

end Rank

/-! ## Lemmas: all pipeline ranks -/

section Gather

variable {mg : Megatron} {cfg : TransformerConfig} {layers : List Nat}
  {routing : Routing cfg.moeRouterTopk} {b : Batch} {idxs : List Nat}

theorem flatMap_map_stageIdx {β : Type} (g : Nat → β) (numChunks ppSize : Nat) :
    ((range numChunks).flatMap fun chunk =>
      (range ppSize).map fun ppRank => g (chunk * ppSize + ppRank)) =
      (range (numChunks * ppSize)).map g := by
  induction numChunks with
  | zero =>
    rw [Nat.zero_mul]
    rfl
  | succ n ih =>
    rw [range_succ, flatMap_append, ih, Nat.succ_mul, range_add, map_append,
      flatMap_singleton, map_map]
    rfl

theorem Built.flatten_stages (h : Built mg cfg layers) :
    ((range (numChunks cfg)).flatMap fun chunk =>
      (range cfg.pipelineModelParallelSize).map fun ppRank =>
        stageLayers cfg layers (stageIdx cfg chunk ppRank)).flatten = moeLayers cfg := by
  have hstages := flatMap_map_stageIdx (stageLayers cfg layers) (numChunks cfg)
    cfg.pipelineModelParallelSize
  unfold stageIdx
  rw [hstages, h.moeLayers_eq, h.length, flatMap_def]

theorem rowStart_chunks (cfg : TransformerConfig) (layers : List Nat) (ppRank : Nat) {chunk n : Nat}
    (hchunk : chunk ≤ n) :
    rowStart ((range n).map fun c => (stageLayers cfg layers (stageIdx cfg c ppRank)).length)
        chunk =
      ((range chunk).flatMap fun c => stageLayers cfg layers (stageIdx cfg c ppRank)).length := by
  unfold rowStart
  rw [← map_take, take_range, Nat.min_eq_left hchunk, length_flatMap]

/-- The tensors that `pp_gather` can gather. -/
def Gatherable (cfg : TransformerConfig) (layers : List Nat) (b : Batch) : Prop :=
  b.isNested = false → 1 < cfg.pipelineModelParallelSize →
    ∀ ppRank < cfg.pipelineModelParallelSize, ∀ ppRank' < cfg.pipelineModelParallelSize,
      (rankLayers cfg layers ppRank).length = (rankLayers cfg layers ppRank').length

theorem gatherable_iff (routing : Routing cfg.moeRouterTopk) (idxs : List Nat)
    (hpp : 1 < cfg.pipelineModelParallelSize) :
    gatherable ((range cfg.pipelineModelParallelSize).map fun ppRank =>
        topkOf routing b idxs (rankLayers cfg layers ppRank)) = true ↔
      Gatherable cfg layers b := by
  unfold gatherable Gatherable
  rw [all_eq_true]
  constructor
  · intro h hpadded _ ppRank hrank ppRank' hrank'
    have hfirst := h _ (mem_map_of_mem (mem_range.2 hrank'))
    unfold topkOf at hfirst
    dsimp only at hfirst
    rw [hpadded, Bool.false_or, all_eq_true] at hfirst
    have hboth := hfirst _ (mem_map_of_mem (mem_range.2 hrank))
    exact beq_iff_eq.1 hboth
  · intro h t ht
    obtain ⟨ppRank, hrank, rfl⟩ := mem_map.1 ht
    cases hnested : b.isNested with
    | true =>
      unfold topkOf
      dsimp only
      rw [hnested, Bool.true_or]
    | false =>
      unfold topkOf
      dsimp only
      rw [hnested, Bool.false_or, all_eq_true]
      intro t' ht'
      obtain ⟨ppRank', hrank', rfl⟩ := mem_map.1 ht'
      exact beq_iff_eq.2 (h hnested hpp ppRank' (mem_range.1 hrank') ppRank
        (mem_range.1 hrank))

theorem flatten_flatMap_map {α β γ : Type} (xs : List α) (f : α → List β) (g : α → β → List γ) :
    (xs.flatMap fun x => (f x).map (g x)).flatten = xs.flatMap fun x => (f x).flatMap (g x) := by
  rw [← flatMap_id, flatMap_assoc]
  exact flatMap_congr fun x _ => flatMap_map ..

/-- The layers that the last pipeline rank cuts out of those of all ranks, one behind the other. -/
def cutLayers (mg : Megatron) (cfg : TransformerConfig) (layers : List Nat) :
    Except PyErr (List Nat) :=
  if cfg.pipelineModelParallelSize ≤ 1 then .ok (rankLayers cfg layers 0)
  else match cfg.virtualPipelineModelParallelSize with
    | some vpSize => do
      let offset ← vppRouterMapOffset mg cfg (cfg.pipelineModelParallelSize - 1) vpSize
      return (List.range vpSize).flatMap fun vpStage =>
        ((List.range cfg.pipelineModelParallelSize).zip offset).flatMap fun p =>
          getSlice (rankLayers cfg layers p.1) (p.2.getD vpStage 0)
            (p.2.getD (vpStage + 1) 0 - p.2.getD vpStage 0)
    | none => .ok ((List.range cfg.pipelineModelParallelSize).flatMap (rankLayers cfg layers))

theorem ppGather_cut (hbuilt : Built mg cfg layers) (hgather : Gatherable cfg layers b) :
    ppGather mg cfg (cfg.pipelineModelParallelSize - 1)
        ((range cfg.pipelineModelParallelSize).map fun ppRank =>
          topkOf routing b idxs (rankLayers cfg layers ppRank)) =
      (cutLayers mg cfg layers).map (topkOf routing b idxs) := by
  have hpos := hbuilt.ppSize
  unfold ppGather cutLayers
  by_cases hone : cfg.pipelineModelParallelSize ≤ 1
  · have hpp : cfg.pipelineModelParallelSize = 1 := by omega
    rw [if_pos hone, if_pos hone, hpp]
    rfl
  · rw [if_neg hone, if_neg hone]
    have hgatherable := (gatherable_iff routing idxs (show
      1 < cfg.pipelineModelParallelSize by omega)).2 hgather
    rw [hgatherable, if_neg (by decide)]
    cases hsize : cfg.virtualPipelineModelParallelSize with
    | none =>
      have hcat := catLayers_topkOf routing b idxs
        (show (range cfg.pipelineModelParallelSize).map (rankLayers cfg layers) ≠ [] by
          rw [ne_eq, map_eq_nil_iff, range_eq_nil]
          omega)
      rw [map_map] at hcat
      exact hcat
    | some vpSize =>
      obtain ⟨hchunks, -⟩ := exists_numChunks hsize
      have hvpSize := hbuilt.chunks
      dsimp only
      cases hoffset : vppRouterMapOffset mg cfg (cfg.pipelineModelParallelSize - 1) vpSize with
      | error e => rfl
      | ok offset =>
        have hlen := (forall₂_of_mapM_eq_ok hoffset).length_eq
        rw [length_range] at hlen
        have hpieces : ((range vpSize).flatMap fun vpStage =>
            (((range cfg.pipelineModelParallelSize).map fun ppRank =>
                topkOf routing b idxs (rankLayers cfg layers ppRank)).zip offset).map fun p =>
              sliceLayers p.1 (p.2.getD vpStage 0) (p.2.getD (vpStage + 1) 0)) =
            ((range vpSize).flatMap fun vpStage =>
              ((range cfg.pipelineModelParallelSize).zip offset).map fun p =>
                getSlice (rankLayers cfg layers p.1) (p.2.getD vpStage 0)
                  (p.2.getD (vpStage + 1) 0 - p.2.getD vpStage 0)).map
              (topkOf routing b idxs) := by
          rw [map_flatMap]
          apply flatMap_congr
          intro vpStage _
          rw [zip_map_left, map_map, map_map]
          exact map_congr_left fun p _ => sliceLayers_topkOf routing b idxs _ _ _
        rw [ok_bind, ok_bind, hpieces, catLayers_topkOf, flatten_flatMap_map]
        · rfl
        · rw [ne_eq, flatMap_eq_nil_iff]
          intro hnil
          have hfirst := hnil 0 (mem_range.2 (by omega))
          rw [map_eq_nil_iff, zip_eq_nil_iff, range_eq_nil] at hfirst
          rcases hfirst with hzero | rfl
          · omega
          · grind

theorem getSlice_chunk (cfg : TransformerConfig) (layers : List Nat) (ppRank : Nat) {chunk : Nat}
    (hchunk : chunk < numChunks cfg) :
    let offset := offsets ((range (numChunks cfg)).map fun c =>
      (stageLayers cfg layers (stageIdx cfg c ppRank)).length)
    getSlice (rankLayers cfg layers ppRank) (offset.getD chunk 0)
        (offset.getD (chunk + 1) 0 - offset.getD chunk 0) =
      stageLayers cfg layers (stageIdx cfg chunk ppRank) := by
  intro offset
  have hget : ∀ c ≤ numChunks cfg, offset.getD c 0 =
      ((range c).flatMap fun c => stageLayers cfg layers (stageIdx cfg c ppRank)).length := by
    intro c hc
    show (offsets _).getD c 0 = _
    rw [← rowStart_chunks cfg layers ppRank hc, offsets_eq, getD_eq_getElem?_getD,
      getElem?_map, getElem?_range (by rw [length_map, length_range]; omega)]
    rfl
  rw [hget chunk hchunk.le, hget (chunk + 1) hchunk, range_succ,
    flatMap_append, length_append, Nat.add_sub_cancel_left, flatMap_singleton,
    rankLayers_eq cfg layers ppRank hchunk]

/-- Where the ranks agree on their counts, the cuts are the layers of the model, in order. -/
theorem cutLayers_eq (hbuilt : Built mg cfg layers) (hagree : StagesAgree mg cfg layers) :
    cutLayers mg cfg layers = .ok (moeLayers cfg) := by
  have hpos := hbuilt.ppSize
  have hstages := hbuilt.flatten_stages
  have hranks : numChunks cfg = 1 → ((range cfg.pipelineModelParallelSize).flatMap
      (rankLayers cfg layers)) = moeLayers cfg := by
    intro hchunks
    rw [← hstages, hchunks]
    have hlayers : ∀ ppRank, rankLayers cfg layers ppRank =
        stageLayers cfg layers (stageIdx cfg 0 ppRank) := by simp [rankLayers, hchunks]
    exact (congrArg flatten (map_congr_left fun ppRank _ => hlayers ppRank)).trans
      (congrArg flatten (append_nil _).symm)
  unfold cutLayers
  by_cases hone : cfg.pipelineModelParallelSize ≤ 1
  · have hpp : cfg.pipelineModelParallelSize = 1 := by omega
    rw [if_pos hone, ← hstages, hpp]
    unfold rankLayers
    rw [flatMap_def, ← flatMap_pure_eq_map]
    rfl
  · rw [if_neg hone]
    cases hsize : cfg.virtualPipelineModelParallelSize with
    | none =>
      refine congrArg Except.ok (hranks ?_)
      unfold numChunks
      rw [hsize]
      rfl
    | some vpSize =>
      obtain ⟨hchunks, -⟩ := exists_numChunks hsize
      have hoffset : vppRouterMapOffset mg cfg (cfg.pipelineModelParallelSize - 1) vpSize =
          .ok ((range cfg.pipelineModelParallelSize).map fun ppRank =>
            offsets ((range (numChunks cfg)).map fun c =>
              (stageLayers cfg layers (stageIdx cfg c ppRank)).length)) := by
        unfold vppRouterMapOffset
        apply mapM_eq_ok_map
        intro ppRank hrank
        have hnums := mapM_eq_ok_map (fun vpStage => getMoeNumLayersToBuild mg cfg
            (cfg.pipelineModelParallelSize - 1) (some vpStage) (some ppRank)) _ (range vpSize)
          fun chunk hc => hagree (by rw [hsize]; rfl) chunk (by
            rw [hchunks]
            exact mem_range.1 hc) ppRank (mem_range.1 hrank)
        rw [hnums, ok_bind, hchunks]
        rfl
      have hself : (range cfg.pipelineModelParallelSize).zip
          ((range cfg.pipelineModelParallelSize).map fun ppRank =>
            offsets ((range (numChunks cfg)).map fun c =>
              (stageLayers cfg layers (stageIdx cfg c ppRank)).length)) =
          (range cfg.pipelineModelParallelSize).map fun ppRank => (ppRank,
            offsets ((range (numChunks cfg)).map fun c =>
              (stageLayers cfg layers (stageIdx cfg c ppRank)).length)) := by
        rw [zip_map_right, zip_eq_zipWith, zipWith_self, map_map]
        rfl
      dsimp only
      rw [hoffset, ok_bind, hself, ← hstages, flatten_flatMap_map, hchunks]
      refine congrArg Except.ok (flatMap_congr fun chunk hc => ?_)
      rw [flatMap_map]
      apply flatMap_congr
      intro ppRank _
      rw [← hchunks] at hc ⊢
      exact getSlice_chunk cfg layers ppRank (mem_range.1 hc)

theorem gatherable_of_ppGather {t : LayersTopkIdx}
    (h : ppGather mg cfg (cfg.pipelineModelParallelSize - 1)
      ((range cfg.pipelineModelParallelSize).map fun ppRank =>
        topkOf routing b idxs (rankLayers cfg layers ppRank)) = .ok t) :
    Gatherable cfg layers b := by
  by_cases hone : 1 < cfg.pipelineModelParallelSize
  · refine (gatherable_iff routing idxs hone).1 ?_
    unfold ppGather at h
    rw [if_neg (by omega)] at h
    by_contra hno
    rw [Bool.eq_false_iff.2 hno, if_pos (by decide)] at h
    cases h
  · exact fun _ h => absurd h hone

end Gather

/-! ## Recording a batch -/

section Batch

variable {mg : Megatron} {cfg : TransformerConfig} {layers : List Nat} {tpSize cpSize : Nat}
  {routing : Routing cfg.moeRouterTopk} {b : Batch} {microBatches : List (List Nat)}
  {useDynamicBsz : Bool}

/-- How a batch is split into micro-batches. -/
structure Splits (b : Batch) (microBatches : List (List Nat)) (useDynamicBsz : Bool) : Prop where
  perm : microBatches.flatten.Perm (List.range b.size)
  inOrder : useDynamicBsz = false → microBatches.flatten = List.range b.size

/-- What a batch and a pipeline have to be for recording. -/
structure Recordable (cfg : TransformerConfig) (layers : List Nat) (tpSize cpSize : Nat) (b : Batch)
    (microBatches : List (List Nat)) : Prop where
  nonempty : microBatches ≠ []
  loads : ∀ idxs ∈ microBatches, RecordLoads tpSize cpSize (useFp8Padding cfg) b idxs
  stages : ∀ stage < layers.length, stageLayers cfg layers stage ≠ []
  gather : Gatherable cfg layers b

variable {states : RouterStates}

theorem Built.stageIdx_lt (h : Built mg cfg layers) {chunk ppRank : Nat}
    (hchunk : chunk < numChunks cfg) (hrank : ppRank < cfg.pipelineModelParallelSize) :
    stageIdx cfg chunk ppRank < layers.length := by
  have hle := mul_add_le hchunk cfg.pipelineModelParallelSize
  rw [h.length]
  unfold stageIdx
  omega

theorem Built.exists_stageIdx (h : Built mg cfg layers) {stage : Nat} (hstage : stage < layers.length) :
    ∃ chunk < numChunks cfg, ∃ ppRank < cfg.pipelineModelParallelSize,
      stage = stageIdx cfg chunk ppRank := by
  rw [h.length] at hstage
  refine ⟨stage / cfg.pipelineModelParallelSize,
    Nat.div_lt_of_lt_mul (by rwa [Nat.mul_comm] at hstage),
    stage % cfg.pipelineModelParallelSize, Nat.mod_lt _ h.ppSize, ?_⟩
  exact (Nat.div_add_mod' stage cfg.pipelineModelParallelSize).symm

theorem vpStage_mem (cfg : TransformerConfig) {chunk : Nat} (hchunk : chunk < numChunks cfg) :
    vpStage cfg chunk ∈ vpRanks cfg chunk := by
  unfold vpStage vpRanks
  cases cfg.virtualPipelineModelParallelSize with
  | none => exact mem_cons_self
  | some vpSize => exact mem_singleton_self _

/-- The routers of every rank when a micro-batch is merged on a model chunk. -/
abbrev RouterStates := List Nat → Option Nat → Nat → Nat → Nat → List RouterReplay

/-- Recording a batch on a context-parallel rank. -/
def recordOn (mg : Megatron) (cfg : TransformerConfig) (tpSize cpSize cpRank : Nat)
    (states : RouterStates) (b : Batch) (microBatches : List (List Nat)) (useDynamicBsz : Bool) :
    Except PyErr LayersTopkIdx :=
  recordBatch mg cfg (fun ppRank vpRank idxs => mergeRouterTopkIndices mg cfg
    ⟨tpSize, cpSize, cpRank⟩ ppRank vpRank (states idxs vpRank ppRank) b idxs) microBatches
    useDynamicBsz

/-- The routers have recorded the ids of every micro-batch when it is merged. -/
def RecordsAll (mg : Megatron) (cfg : TransformerConfig) (layers : List Nat) (tpSize cpSize : Nat)
    (routing : Routing cfg.moeRouterTopk) (b : Batch) (states : RouterStates)
    (microBatches : List (List Nat)) : Prop :=
  ∀ idxs ∈ microBatches, ∀ chunk < numChunks cfg, ∀ ppRank < cfg.pipelineModelParallelSize,
    Records mg cfg layers tpSize cpSize routing b (states idxs (vpStage cfg chunk) ppRank) chunk
      ppRank idxs

section

variable (hbuilt : Built mg cfg layers) (hmg : mg.Lawful)
include hbuilt hmg

/-- A batch that can be recorded: all ids of the layers that the last rank cuts out, in the order of
the batch. -/
theorem recordOn_cut (htp : 1 ≤ tpSize) (hcp : 1 ≤ cpSize)
    (hrec : RecordsAll mg cfg layers tpSize cpSize routing b states microBatches)
    (hsplits : Splits b microBatches useDynamicBsz)
    (h : Recordable cfg layers tpSize cpSize b microBatches) {cpRank : Nat}
    (hcpRank : cpRank < cpSize) :
    recordOn mg cfg tpSize cpSize cpRank states b microBatches useDynamicBsz =
      (cutLayers mg cfg layers).map (topkOf routing b (range b.size)) := by
  have hranks := mapM_eq_ok_map (fun ppRank => recordRank mg cfg (fun vpRank idxs =>
      mergeRouterTopkIndices mg cfg ⟨tpSize, cpSize, cpRank⟩ ppRank vpRank
        (states idxs vpRank ppRank) b idxs) microBatches) _
    (range cfg.pipelineModelParallelSize) fun ppRank hrank =>
      recordRank_eq hbuilt hmg h.nonempty fun idxs hidxs chunk hchunk =>
        merge_eq hbuilt hmg htp hcp hchunk (mem_range.1 hrank)
          (h.stages _ (hbuilt.stageIdx_lt hchunk (mem_range.1 hrank)))
          (hrec idxs hidxs chunk hchunk ppRank (mem_range.1 hrank)) (h.loads idxs hidxs)
          (vpStage_mem cfg hchunk) hcpRank
  unfold recordOn recordBatch
  rw [hranks, ok_bind, ppGather_cut hbuilt h.gather]
  cases cutLayers mg cfg layers with
  | error e => rfl
  | ok cut =>
    show (Except.ok (topkOf routing b microBatches.flatten cut) >>= _) =
      Except.ok (topkOf routing b (range b.size) cut)
    rw [ok_bind]
    cases useDynamicBsz with
    | false =>
      rw [if_neg (by decide), hsplits.inOrder rfl]
      rfl
    | true =>
      have hrestore := restoreDynamicBatch_map hsplits.perm fun i =>
        (b.labels i).map (blockOf routing cut i)
      rw [if_pos rfl]
      show (restoreDynamicBatch (microBatches.flatten.map _) microBatches >>= _) = _
      rw [hrestore, ok_bind]
      rfl

/-- A batch that can be recorded: all ids of all layers, in the order of the batch. -/
theorem recordOn_eq (hagree : StagesAgree mg cfg layers) (htp : 1 ≤ tpSize) (hcp : 1 ≤ cpSize)
    (hrec : RecordsAll mg cfg layers tpSize cpSize routing b states microBatches)
    (hsplits : Splits b microBatches useDynamicBsz)
    (h : Recordable cfg layers tpSize cpSize b microBatches) {cpRank : Nat}
    (hcpRank : cpRank < cpSize) :
    recordOn mg cfg tpSize cpSize cpRank states b microBatches useDynamicBsz =
      .ok (topkOf routing b (range b.size) (moeLayers cfg)) := by
  rw [recordOn_cut hbuilt hmg htp hcp hrec hsplits h hcpRank, cutLayers_eq hbuilt hagree]
  rfl

theorem recordable_of_recordOn (htp : 1 ≤ tpSize)
    (hcp : 1 ≤ cpSize)
    (hrec : RecordsAll mg cfg layers tpSize cpSize routing b states microBatches)
    (hok : ∀ cpRank < cpSize, ∃ t,
      recordOn mg cfg tpSize cpSize cpRank states b microBatches useDynamicBsz = .ok t) :
    Recordable cfg layers tpSize cpSize b microBatches := by
  have hranks : ∀ cpRank < cpSize, ∀ ppRank < cfg.pipelineModelParallelSize,
      ∃ t, recordRank mg cfg (fun vpRank idxs => mergeRouterTopkIndices mg cfg
        ⟨tpSize, cpSize, cpRank⟩ ppRank vpRank (states idxs vpRank ppRank) b idxs)
          microBatches = .ok t := by
    intro cpRank hcpRank ppRank hrank
    obtain ⟨t, ht⟩ := hok cpRank hcpRank
    unfold recordOn recordBatch at ht
    obtain ⟨tensors, htensors, -⟩ := bind_eq_ok.1 ht
    exact exists_of_mapM htensors (mem_range.2 hrank)
  have hmerge : ∀ idxs ∈ microBatches, ∀ chunk < numChunks cfg,
      ∀ ppRank < cfg.pipelineModelParallelSize,
      stageLayers cfg layers (stageIdx cfg chunk ppRank) ≠ [] ∧
        RecordLoads tpSize cpSize (useFp8Padding cfg) b idxs := by
    intro idxs hidxs chunk hchunk ppRank hrank
    have hall : ∀ cpRank < cpSize, ∃ t, mergeRouterTopkIndices mg cfg ⟨tpSize, cpSize, cpRank⟩
        ppRank (vpStage cfg chunk) (states idxs (vpStage cfg chunk) ppRank) b idxs = .ok t := by
      intro cpRank hcpRank
      obtain ⟨t, ht⟩ := hranks cpRank hcpRank ppRank hrank
      exact (of_recordRank_ok hbuilt hmg ht).2 idxs hidxs chunk hchunk
    exact of_merge_ok hbuilt hmg htp hcp hchunk hrank (vpStage_mem cfg hchunk) hall
  obtain ⟨t, hfirst⟩ := hranks 0 hcp 0 hbuilt.ppSize
  have hne := (of_recordRank_ok hbuilt hmg hfirst).1
  obtain ⟨idxs, hidxs⟩ := exists_mem_of_ne_nil _ hne
  have hloads : ∀ idxs ∈ microBatches, RecordLoads tpSize cpSize (useFp8Padding cfg) b idxs :=
    fun idxs hidxs => (hmerge idxs hidxs 0 hbuilt.chunks 0 hbuilt.ppSize).2
  have hstages : ∀ stage < layers.length, stageLayers cfg layers stage ≠ [] := by
    intro stage hstage
    obtain ⟨chunk, hchunk, ppRank, hrank, rfl⟩ := hbuilt.exists_stageIdx hstage
    exact (hmerge idxs hidxs chunk hchunk ppRank hrank).1
  refine ⟨hne, hloads, hstages, ?_⟩
  obtain ⟨t, ht⟩ := hok 0 hcp
  have hranks := mapM_eq_ok_map (fun ppRank => recordRank mg cfg (fun vpRank idxs =>
      mergeRouterTopkIndices mg cfg ⟨tpSize, cpSize, 0⟩ ppRank vpRank
        (states idxs vpRank ppRank) b idxs) microBatches) _
    (range cfg.pipelineModelParallelSize) fun ppRank hrank =>
      recordRank_eq hbuilt hmg hne fun idxs hidxs chunk hchunk =>
        merge_eq hbuilt hmg htp hcp hchunk (mem_range.1 hrank)
          (hstages _ (hbuilt.stageIdx_lt hchunk (mem_range.1 hrank)))
          (hrec idxs hidxs chunk hchunk ppRank (mem_range.1 hrank)) (hloads idxs hidxs)
          (vpStage_mem cfg hchunk) hcp
  unfold recordOn recordBatch at ht
  rw [hranks, ok_bind] at ht
  obtain ⟨gathered, hgathered, -⟩ := bind_eq_ok.1 ht
  exact gatherable_of_ppGather hgathered

/-- Recording returns on all ranks iff the batch can be recorded. -/
theorem recordOn_ok_iff (hagree : StagesAgree mg cfg layers) (htp : 1 ≤ tpSize) (hcp : 1 ≤ cpSize)
    (hrec : RecordsAll mg cfg layers tpSize cpSize routing b states microBatches)
    (hsplits : Splits b microBatches useDynamicBsz) :
    (∀ cpRank < cpSize, ∃ t,
        recordOn mg cfg tpSize cpSize cpRank states b microBatches useDynamicBsz = .ok t) ↔
      Recordable cfg layers tpSize cpSize b microBatches := by
  constructor
  · exact recordable_of_recordOn hbuilt hmg htp hcp hrec
  · intro h cpRank hcpRank
    exact ⟨_, recordOn_eq hbuilt hmg hagree htp hcp hrec hsplits h hcpRank⟩

end

end Batch

end Verl.RouterReplay
