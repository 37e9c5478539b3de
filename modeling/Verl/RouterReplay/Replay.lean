import Verl.RouterReplay.Record
import Verl.Workers.Padding

/-! # Replaying the recorded ids (`verl/utils/megatron/router_replay_utils.py`)

A recorded batch is cut into new micro-batches.  `set_router_replay_data` packs the ids of a
micro-batch as its tokens are packed, and sets the ids of every layer as the targets of its router.
On the way `left_right_2_no_padding` may have made a padded tensor a nested one.

    recorded    [260, 3]      ids as the router chose them
    merged      [  4, 3]      as `uint8`
    replayed    [  4, 3] -/

namespace Verl.RouterReplay

open MCore Padding List

/-! ## Algorithm -/

section Algorithm

variable (mg : Megatron) (cfg : TransformerConfig)

/-- The branch of `left_right_2_no_padding` for `routed_experts`. -/
def leftRightRoutedExperts (b : Batch) (routedExperts : LayersTopkIdx) :
    Except PyErr LayersTopkIdx := do
  let idxs := List.range b.size
  let unpadded ← unpadInput (b.inputIds idxs) (b.attentionMask idxs)
  if routedExperts.isNested then return routedExperts
  else if (routedExperts.rows.map List.length).sum * routedExperts.layerNum *
      routedExperts.topk = 0 then
    .error (.runtimeError "max(): Expected reduction dim to be specified for input.numel() == 0")
  else return { routedExperts with
    isNested := true
    rows := nestedTensorFromJagged (indexFirstAxis routedExperts.rows.flatten unpadded.indices)
      unpadded.cuSeqlens }

/-- The recorded ids as replaying gets them: padded ids are unpadded with a padded batch, or left as
they are. -/
def toReplay (b : Batch) (unpad : Bool) (t : LayersTopkIdx) : Except PyErr LayersTopkIdx :=
  if unpad && !b.isNested then leftRightRoutedExperts b t else .ok t

/-- The ids of a micro-batch. -/
def LayersTopkIdx.select (t : LayersTopkIdx) (idxs : List Nat) : LayersTopkIdx :=
  { t with rows := idxs.map fun i => t.rows.getD i [] }

/-- `layers_topk_idx_rmpad`. -/
def packReplayIdx (ps : ParallelState) (t : LayersTopkIdx) (attentionMask : List (List Bool)) :
    Except PyErr (List (List (List UInt8))) :=
  if t.isNested then
    (preprocessThdItems (zeroTopk t.layerNum t.topk) ps (t.layerNum * t.topk) (useFp8Padding cfg)
      t.rows).map ThdBatch.inputIds
  else
    (preprocessPackedSeqs (zeroTopk t.layerNum t.topk) ps (useFp8Padding cfg) t.rows
      attentionMask).map Prod.fst

/-- What the loop over the layers changes. -/
structure SetState where
  routers : List RouterReplay
  routerOffset : Nat
  moeIdx : Nat

/-- The ids of one layer in all slots, as `int64`. -/
def layerIdx (split : List (List (List UInt8))) (idx : Nat) : List (List Nat) :=
  split.map fun block => (block.getD idx []).map UInt8.toNat

/-- What is done for an MoE layer. -/
def setRouter (split : List (List (List UInt8))) (layerNum idx : Nat) (s : SetState) :
    Except PyErr SetState :=
  match s.routers[s.routerOffset]? with
  | none => .error .indexError
  | some router =>
    if idx < layerNum then .ok
      { routers := s.routers.set s.routerOffset (router.setTargetIndices (layerIdx split idx))
        routerOffset := s.routerOffset + 1
        moeIdx := s.moeIdx + 1 }
    else .error .indexError

/-- One turn of the loop over the layers of the stage. -/
def setLayer (split : List (List (List UInt8))) (layerNum : Nat) (s : SetState) (layer : Nat) :
    Except PyErr SetState := do
  let moe ← isMoeLayer cfg layer
  if moe then
    setRouter split layerNum (if layerNum = cfg.numLayers then layer else s.moeIdx) s
  else return s

/-- `set_router_replay_data` on the tensor-parallel rank `tpRank`: the routers of the rank after it. -/
def setRouterReplayData (ps : ParallelState) (tpRank ppRank : Nat) (vpRank : Option Nat)
    (t : LayersTopkIdx) (attentionMask : List (List Bool)) (routerInstances : List RouterReplay) :
    Except PyErr (List RouterReplay) := do
  let rmpad ← packReplayIdx cfg ps t attentionMask
  let split := mg.scatterToSequenceParallelRegion ps.tpSize tpRank rmpad
  let vpStage := some (vpRank.getD 0)
  let count ← getNumLayersToBuild mg cfg ppRank vpStage none
  let offset := mg.getTransformerLayerOffset ppRank vpStage none
  let range ← microBatchRouterRange mg cfg ppRank vpRank
  let moeIdx ← countMoe cfg (List.range offset)
  let s ← (List.range' offset count.toNat).foldlM (setLayer cfg split t.layerNum)
    { routers := getSlice routerInstances range.1 range.2, routerOffset := 0, moeIdx := moeIdx }
  return setSlice routerInstances range.1 s.routers

end Algorithm

/-! ## What is replayed -/

section Property

variable (mg : Megatron) (cfg : TransformerConfig) (layers : List Nat) (tpSize cpSize : Nat)
  (routing : Routing cfg.moeRouterTopk) (b : Batch)

/-- The tokens of a sample, by their positions. -/
def Batch.tokens (b : Batch) (i : Nat) : List (Nat × Nat) :=
  (List.range (b.len i)).map fun p => (i, p)

/-- The tokens in the slots of a rank. -/
def rankTokens (cpRank tpRank : Nat) (idxs : List Nat) : List (Option (Nat × Nat)) :=
  mg.scatterToSequenceParallelRegion tpSize tpRank (tokenSlots cpSize cpRank (idxs.map b.tokens)
    (paddedLens tpSize cpSize (useFp8Padding cfg) b idxs))

/-- On all ranks, replaying a micro-batch sets the routers of every stage to the ids that were
recorded of its layers, at every token. -/
def Replays (t : LayersTopkIdx) (idxs : List Nat) : Prop :=
  ∀ cpRank < cpSize, ∀ tpRank < tpSize, ∀ chunk < numChunks cfg,
    ∀ ppRank < cfg.pipelineModelParallelSize, ∀ vpRank ∈ vpRanks cfg chunk,
    ∀ instances, instances.length = (rankLayers cfg layers ppRank).length →
    ∃ instances' routers, setRouterReplayData mg cfg ⟨tpSize, cpSize, cpRank⟩ tpRank ppRank vpRank
        (t.select idxs) (b.attentionMask idxs) instances = .ok instances' ∧
      getMicroBatchRouterList mg cfg ppRank vpRank instances' = .ok routers ∧
      List.Forall₂ (fun router layer => ∃ target, router.targetTopkIdx = some target ∧
          ∀ s i p : Nat, (rankTokens mg cfg tpSize cpSize b cpRank tpRank idxs)[s]? =
            some (some (i, p)) → target[s]? = some (routing.ids i layer p))
        routers (stageLayers cfg layers (stageIdx cfg chunk ppRank))

/-- Recording returns the same on all ranks, and every micro-batch replays what was recorded. -/
def ReplaysRecorded (states : RouterStates) (microBatches : List (List Nat)) (useDynamicBsz : Bool)
    (unpad : Bool) (replays : List (List Nat)) : Prop :=
  ∃ recorded t, (∀ cpRank < cpSize, recordOn mg cfg tpSize cpSize cpRank states b microBatches
      useDynamicBsz = .ok recorded) ∧
    toReplay b unpad recorded = .ok t ∧
    ∀ idxs ∈ replays, Replays mg cfg layers tpSize cpSize routing b t idxs

/-- The ids of the tokens of some samples are below 256. -/
def SmallIds (idxs : List Nat) : Prop :=
  ∀ i ∈ idxs, ∀ layer ∈ moeLayers cfg, ∀ p < b.len i, ∀ e ∈ routing.ids i layer p, e < 256

/-- The micro-batches whose recorded ids can be packed on all ranks. -/
def ReplayLoads (unpad : Bool) (idxs : List Nat) : Prop :=
  if b.isNested || unpad then
    ItemsLoad tpSize cpSize ((moeLayers cfg).length * cfg.moeRouterTopk) (useFp8Padding cfg)
      (idxs.map b.len)
  else idxs ≠ []

/-- What a batch, its ids and its micro-batches have to be for replaying what was recorded. -/
structure Replayable (microBatches : List (List Nat)) (unpad : Bool) (replays : List (List Nat)) :
    Prop where
  record : Recordable cfg layers tpSize cpSize b microBatches
  numel : unpad = true → b.isNested = false → 0 < b.seqLen ∧ 0 < cfg.moeRouterTopk
  loads : ∀ idxs ∈ replays, ReplayLoads cfg tpSize cpSize b unpad idxs
  ids : ∀ idxs ∈ replays, SmallIds cfg routing b idxs

end Property

/-! ## Lemmas: the loop over the layers -/

/-- The place of an MoE layer among those of the model. -/
def ordinal (cfg : TransformerConfig) (layer : Nat) : Nat :=
  ((List.range layer).filter (isMoe cfg)).length

section Loop

variable {cfg : TransformerConfig}

theorem ordinal_succ (cfg : TransformerConfig) (layer : Nat) :
    ordinal cfg (layer + 1) = ordinal cfg layer + if isMoe cfg layer then 1 else 0 := by
  unfold ordinal
  rw [range_succ]
  by_cases hmoe : isMoe cfg layer = true
  · grind
  · grind

theorem getElem?_moeLayers {layer : Nat} (hlayer : layer < cfg.numLayers)
    (hmoe : isMoe cfg layer = true) : (moeLayers cfg)[ordinal cfg layer]? = some layer := by
  obtain ⟨m, hm⟩ : ∃ m, cfg.numLayers = layer + (m + 1) := ⟨cfg.numLayers - layer - 1, by omega⟩
  unfold moeLayers ordinal
  rw [hm, range_add, filter_append, getElem?_append_right (Nat.le_refl _),
    Nat.sub_self, range_succ_eq_map, map_cons, Nat.add_zero, filter_cons_of_pos hmoe]
  rfl

/-- Where all layers are MoE layers they are numbered alike. -/
theorem ordinal_of_all (h : (moeLayers cfg).length = cfg.numLayers) {layer : Nat}
    (hlayer : layer < cfg.numLayers) : ordinal cfg layer = layer := by
  have hall : moeLayers cfg = range cfg.numLayers :=
    filter_sublist.eq_of_length (h.trans length_range.symm)
  have hmoe : ∀ l ∈ range layer, isMoe cfg l = true := by
    intro l hl
    have hmem : l ∈ moeLayers cfg := by grind
    exact (mem_filter.1 hmem).2
  unfold ordinal
  rw [filter_eq_self.2 hmoe, length_range]

theorem setLayer_moe {split : List (List (List UInt8))} {layer : Nat}
    (hlayer : layer < cfg.numLayers) (hmoe : isMoeLayer cfg layer = .ok true)
    {done rest : List RouterReplay} {router : RouterReplay} :
    setLayer cfg split (moeLayers cfg).length
        ⟨done ++ router :: rest, done.length, ordinal cfg layer⟩ layer =
      .ok ⟨(done ++ [router.setTargetIndices (layerIdx split (ordinal cfg layer))]) ++ rest,
        done.length + 1, ordinal cfg layer + 1⟩ := by
  have hisMoe : isMoe cfg layer = true := by
    unfold isMoe
    rw [hmoe]
  have hidx : (if (moeLayers cfg).length = cfg.numLayers then layer else ordinal cfg layer) =
      ordinal cfg layer := by
    split
    · next hall => exact (ordinal_of_all hall hlayer).symm
    · rfl
  have hlt := (List.getElem?_eq_some_iff.1 (getElem?_moeLayers hlayer hisMoe)).1
  unfold setLayer
  rw [hmoe]
  rw [hidx]
  unfold setRouter
  rw [getElem?_append_right (Nat.le_refl _), Nat.sub_self, getElem?_cons_zero]
  dsimp only
  rw [if_pos hlt, set_append_right _ _ (Nat.le_refl _), Nat.sub_self,
    append_assoc]
  rfl

/-- The loop sets the routers of the MoE layers, one behind the other. -/
theorem foldlM_setLayer (cfg : TransformerConfig) (split : List (List (List UInt8))) {start n : Nat}
    (hlayers : ∀ layer ∈ range' start n, layer < cfg.numLayers ∧ ∃ moe, isMoeLayer cfg layer = .ok moe)
    (done : List RouterReplay) {rest : List RouterReplay}
    (hrest : rest.length = ((range' start n).filter (isMoe cfg)).length) :
    ∃ s, (range' start n).foldlM (setLayer cfg split (moeLayers cfg).length)
        ⟨done ++ rest, done.length, ordinal cfg start⟩ = .ok s ∧
      s.routers = done ++ zipWith
        (fun router layer => router.setTargetIndices (layerIdx split (ordinal cfg layer)))
        rest ((range' start n).filter (isMoe cfg)) := by
  -- induction on the layers; `done` are the routers that are set
  induction n generalizing start done rest with
  | zero =>
    have hnil : rest = [] := eq_nil_of_length_eq_zero hrest
    subst hnil
    exact ⟨_, rfl, rfl⟩
  | succ n ih =>
    rw [range'_succ] at hrest ⊢
    obtain ⟨⟨hlayer, moe, hmoe⟩, hothers⟩ := forall_mem_cons.1 hlayers
    have hsucc := ordinal_succ cfg start
    have hisMoe : isMoe cfg start = moe := by
      unfold isMoe
      rw [hmoe]
    rw [foldlM_cons]
    cases moe with
    | true =>
      rw [filter_cons_of_pos hisMoe] at hrest ⊢
      rw [if_pos hisMoe] at hsucc
      cases rest with
      | nil => cases hrest
      | cons router rest =>
        rw [setLayer_moe hlayer hmoe]
        obtain ⟨s, hs, hrouters⟩ := ih hothers
          (done ++ [router.setTargetIndices (layerIdx split (ordinal cfg start))])
          (Nat.succ.inj hrest)
        rw [length_append, hsucc] at hs
        refine ⟨s, hs, ?_⟩
        rw [hrouters, append_assoc]
        rfl
    | false =>
      have hskip : isMoe cfg start ≠ true := by
        rw [hisMoe]
        decide
      rw [filter_cons_of_neg hskip] at hrest ⊢
      rw [if_neg hskip] at hsucc
      have hturn : setLayer cfg split (moeLayers cfg).length
          ⟨done ++ rest, done.length, ordinal cfg start⟩ start =
            .ok ⟨done ++ rest, done.length, ordinal cfg start⟩ := by
        unfold setLayer
        rw [hmoe]
        rfl
      obtain ⟨s, hs, hrouters⟩ := ih hothers done hrest
      rw [hsucc] at hs
      rw [hturn]
      exact ⟨s, hs, hrouters⟩

end Loop

/-! ## Lemmas: one micro-batch -/

section Set

variable {mg : Megatron} {cfg : TransformerConfig} {layers : List Nat} {chunk ppRank : Nat}
  {vpRank : Option Nat}

/-- `get_current_rank_layer_info` names a stage of the chunk, too. -/
theorem getD_mem_vpRanks (hchunk : chunk < numChunks cfg) (hvp : vpRank ∈ vpRanks cfg chunk) :
    some (vpRank.getD 0) ∈ vpRanks cfg chunk := by
  unfold vpRanks numChunks at *
  cases hsize : cfg.virtualPipelineModelParallelSize with
  | none =>
    rw [hsize] at hvp
    rcases mem_cons.1 hvp with rfl | hvp
    · exact mem_cons_of_mem _ mem_cons_self
    · grind
  | some vpSize =>
    rw [hsize, mem_singleton] at hvp
    subst hvp
    exact mem_singleton_self _

theorem add_le_length_rankLayers (cfg : TransformerConfig) (layers : List Nat) (ppRank : Nat)
    (hchunk : chunk < numChunks cfg) :
    ((range chunk).flatMap fun pre => stageLayers cfg layers (stageIdx cfg pre ppRank)).length +
      (stageLayers cfg layers (stageIdx cfg chunk ppRank)).length ≤
        (rankLayers cfg layers ppRank).length := by
  obtain ⟨m, hm⟩ : ∃ m, numChunks cfg = chunk + (m + 1) := ⟨numChunks cfg - chunk - 1, by omega⟩
  unfold rankLayers
  rw [hm, range_add, flatMap_append, range_succ_eq_map, map_cons,
    flatMap_cons, Nat.add_zero, length_append, length_append]
  omega

/-- Every router of the stage gets the ids of its layer, the others are left alone. -/
theorem setRouterReplayData_eq (hbuilt : Built mg cfg layers) (hchunk : chunk < numChunks cfg)
    (hpp : ppRank < cfg.pipelineModelParallelSize) (hvp : vpRank ∈ vpRanks cfg chunk)
    {ps : ParallelState} {t : LayersTopkIdx} {attentionMask : List (List Bool)}
    (ht : t.layerNum = (moeLayers cfg).length) {rmpad : List (List (List UInt8))}
    (hpack : packReplayIdx cfg ps t attentionMask = .ok rmpad) (tpRank : Nat)
    {instances : List RouterReplay}
    (hlen : instances.length = (rankLayers cfg layers ppRank).length) :
    ∃ instances' routers, setRouterReplayData mg cfg ps tpRank ppRank vpRank t attentionMask
        instances = .ok instances' ∧
      getMicroBatchRouterList mg cfg ppRank vpRank instances' = .ok routers ∧
      Forall₂ (fun router layer => router.targetTopkIdx =
          some (layerIdx (mg.scatterToSequenceParallelRegion ps.tpSize tpRank rmpad)
            (ordinal cfg layer)))
        routers (stageLayers cfg layers (stageIdx cfg chunk ppRank)) := by
  have hvp' := getD_mem_vpRanks hchunk hvp
  have hle := add_le_length_rankLayers cfg layers ppRank hchunk
  have hbefore : ∀ layer ∈ range (rowStart layers (stageIdx cfg chunk ppRank)),
      ∃ moe, isMoeLayer cfg layer = .ok moe := by
    intro layer hlayer
    have hrow := rowStart_le_sum layers (stageIdx cfg chunk ppRank)
    rw [hbuilt.total] at hrow
    exact hbuilt.isMoe layer (by
      rw [mem_range] at hlayer
      omega)
  rw [← hlen] at hle
  obtain ⟨s, hs, hrouters⟩ := foldlM_setLayer cfg
    (mg.scatterToSequenceParallelRegion ps.tpSize tpRank rmpad)
    (fun layer hlayer => ⟨hbuilt.range'_lt hlayer, hbuilt.isMoe _ (hbuilt.range'_lt hlayer)⟩) []
    (length_getSlice hle)
  have hlens : s.routers.length =
      (stageLayers cfg layers (stageIdx cfg chunk ppRank)).length := by
    rw [hrouters, nil_append, length_zipWith]
    exact (congrArg₂ min (length_getSlice hle) rfl).trans (Nat.min_self _)
  refine ⟨setSlice instances ((range chunk).flatMap fun pre =>
    stageLayers cfg layers (stageIdx cfg pre ppRank)).length s.routers, s.routers, ?_, ?_, ?_⟩
  · unfold setRouterReplayData
    rw [hpack, ok_bind]
    dsimp only
    rw [hbuilt.num chunk hchunk ppRank hpp _ hvp', ok_bind,
      hbuilt.offset chunk hchunk ppRank hpp _ hvp',
      hbuilt.microBatchRouterRange_eq hchunk hpp hvp, ok_bind, countMoe_eq hbefore,
      ok_bind, ht]
    exact (congrArg (· >>= _) hs).trans (ok_bind _ _)
  · rw [hbuilt.getMicroBatchRouterList_eq hchunk hpp hvp, ← hlens,
      getSlice_setSlice (by omega)]
  · refine forall₂_iff_get.2 ⟨hlens, fun i hi hi' => ?_⟩
    simp only [hrouters, nil_append, get_eq_getElem, getElem_zipWith]
    rfl

end Set

/-! ## Lemmas: the recorded ids on the way -/

section Ways

variable {cfg : TransformerConfig} {routing : Routing cfg.moeRouterTopk} {b : Batch}

/-- The ids at the tokens of a sample. -/
def tokenBlocks (routing : Routing cfg.moeRouterTopk) (ls : List Nat) (b : Batch) (i : Nat) :
    List (List (List UInt8)) := (List.range (b.len i)).map fun p => blockOf routing ls i (some p)

/-- What replaying gets of a recorded batch. -/
def replayOf (routing : Routing cfg.moeRouterTopk) (b : Batch) (ls : List Nat) (unpad : Bool) :
    LayersTopkIdx :=
  if b.isNested || unpad then
    { isNested := true
      layerNum := ls.length
      topk := cfg.moeRouterTopk
      rows := (List.range b.size).map (tokenBlocks routing ls b) }
  else topkOf routing b (List.range b.size) ls

variable (routing : Routing cfg.moeRouterTopk)

theorem layerNum_replayOf (b : Batch) (ls : List Nat)
    (unpad : Bool) : (replayOf routing b ls unpad).layerNum = ls.length := by
  unfold replayOf
  split <;> rfl

theorem topkOf_nested (hnested : b.isNested = true) (ls : List Nat) (unpad : Bool) :
    topkOf routing b (range b.size) ls = replayOf routing b ls unpad := by
  unfold replayOf topkOf
  rw [hnested]
  congr 1
  apply map_congr_left
  intro i _
  unfold Batch.labels
  rw [if_pos hnested, map_map]
  rfl

section

variable (hpadded : b.isNested = false) (i : Nat)
include hpadded i

theorem count_attentionMask : (b.sample i).attentionMask.count true = b.len i := by
  unfold Batch.len
  rw [hpadded]
  rfl

theorem length_labels_padded : (b.labels i).length = b.seqLen := by
  unfold Batch.labels
  rw [hpadded, if_neg (by decide), length_maskAssign, length_replicate]

theorem maskSelect_labels {β : Type} (f : Option Nat → β) :
    maskSelect (b.sample i).attentionMask ((b.labels i).map f) =
      (range (b.len i)).map fun p => f (some p) := by
  unfold Batch.labels
  rw [hpadded, if_neg (by decide), maskAssign_map, maskSelect_maskAssign, map_map]
  · rfl
  · rw [(b.wf hpadded i).2, length_map, length_replicate]
  · rw [length_map, length_map, length_range, count_attentionMask hpadded]

end

variable (routing : Routing cfg.moeRouterTopk)

theorem forall₂_topkOf (hpadded : b.isNested = false)
    (ls idxs : List Nat) : Forall₂ (fun mask row => mask.length = row.length)
      (b.attentionMask idxs) (topkOf routing b idxs ls).rows := by
  unfold Batch.attentionMask topkOf
  rw [forall₂_map_left_iff, forall₂_map_right_iff, forall₂_same]
  intro i _
  rw [length_map, length_labels_padded hpadded, (b.wf hpadded i).2]

theorem zipWith_maskSelect_topkOf (hpadded : b.isNested = false) (ls idxs : List Nat) :
    zipWith maskSelect (b.attentionMask idxs) (topkOf routing b idxs ls).rows =
      idxs.map (tokenBlocks routing ls b) := by
  unfold Batch.attentionMask topkOf
  rw [zipWith_map_same]
  apply map_congr_left
  intro i _
  exact maskSelect_labels hpadded i _

/-- Unpadding keeps the ids at the tokens; it takes ids at all. -/
theorem leftRightRoutedExperts_topkOf (hpadded : b.isNested = false) (hsize : 0 < b.size) {ls : List Nat} (hls : ls ≠ []) :
    leftRightRoutedExperts b (topkOf routing b (range b.size) ls) =
      if 0 < b.seqLen ∧ 0 < cfg.moeRouterTopk then .ok (replayOf routing b ls true)
      else .error (.runtimeError
        "max(): Expected reduction dim to be specified for input.numel() == 0") := by
  have hne : b.attentionMask (range b.size) ≠ [] := by
    unfold Batch.attentionMask
    rw [ne_eq, map_eq_nil_iff, range_eq_nil]
    omega
  obtain ⟨maxLen, hunpad⟩ := unpadInput_eq hne (forall₂_batch hpadded (range b.size))
  have hrows := forall₂_topkOf routing hpadded ls (range b.size)
  have hnumel : ((topkOf routing b (range b.size) ls).rows.map length).sum =
      b.size * b.seqLen := by
    unfold topkOf
    rw [map_map, map_congr_left (g := fun _ => b.seqLen) fun i _ => by
      rw [Function.comp_apply, length_map, length_labels_padded hpadded], map_const',
      sum_replicate_nat, length_range]
  have hlsPos := length_pos_iff.2 hls
  have hzero : (b.size * b.seqLen * ls.length * cfg.moeRouterTopk = 0) ↔
      ¬(0 < b.seqLen ∧ 0 < cfg.moeRouterTopk) := by
    simp only [Nat.mul_eq_zero]
    omega
  have hflat : nestedTensorFromJagged
      (indexFirstAxis (topkOf routing b (range b.size) ls).rows.flatten
        (nonzero (b.attentionMask (range b.size)).flatten))
      (offsets ((b.attentionMask (range b.size)).map (List.count true))) =
        (range b.size).map (tokenBlocks routing ls b) := by
    have hvalues := indexFirstAxis_nonzero hrows
    rw [hvalues, ← map_length_maskSelect hrows, nestedTensorFromJagged_flatten,
      zipWith_maskSelect_topkOf routing hpadded]
  unfold leftRightRoutedExperts
  dsimp only
  rw [hunpad, ok_bind]
  have hnested : (topkOf routing b (range b.size) ls).isNested = false := hpadded
  have hlayerNum : (topkOf routing b (range b.size) ls).layerNum = ls.length := rfl
  have htopk : (topkOf routing b (range b.size) ls).topk = cfg.moeRouterTopk := rfl
  rw [hnumel, hflat, hnested, hlayerNum, htopk, if_neg (by decide)]
  by_cases hok : 0 < b.seqLen ∧ 0 < cfg.moeRouterTopk
  · rw [if_neg (fun h => hzero.1 h hok), if_pos hok]
    unfold replayOf
    rw [Bool.or_true]
    rfl
  · rw [if_pos (hzero.2 hok), if_neg hok]

end Ways

/-! ## Lemmas: packing a micro-batch -/

section Pack

variable {mg : Megatron} {cfg : TransformerConfig} {tpSize cpSize : Nat}
  {routing : Routing cfg.moeRouterTopk} {b : Batch} {unpad : Bool} {idxs : List Nat}

variable {tpRank cpRank : Nat} {β : Type} {ns : List Nat}

theorem select_replayOf (routing : Routing cfg.moeRouterTopk) (ls : List Nat)
    (hidxs : ∀ i ∈ idxs, i < b.size) (unpad : Bool) :
    (replayOf routing b ls unpad).select idxs =
      if b.isNested || unpad then
        { isNested := true
          layerNum := ls.length
          topk := cfg.moeRouterTopk
          rows := idxs.map (tokenBlocks routing ls b) }
      else topkOf routing b idxs ls := by
  have hget : ∀ f : Nat → List (List (List UInt8)),
      (idxs.map fun i => ((range b.size).map f).getD i []) = idxs.map f := by
    intro f
    apply map_congr_left
    intro i hi
    rw [getD_eq_getElem?_getD, getElem?_map, getElem?_range (hidxs i hi)]
    rfl
  unfold replayOf LayersTopkIdx.select
  by_cases hnested : (b.isNested || unpad) = true
  · grind
  · rw [if_neg hnested, if_neg hnested]
    unfold topkOf
    rw [hget]

theorem map_length_map_len (f : Nat → Nat → β) (b : Batch) (idxs : List Nat) :
    (idxs.map fun i => (range (b.len i)).map (f i)).map length = idxs.map b.len := by simp

theorem PaddedLens.padded_of_lens {lens : List Nat} (h : PaddedLens tpSize cpSize lens ns)
    {seqs : List (List β)} (hlens : seqs.map length = lens) : Padded cpSize seqs ns := by
  refine ⟨?_, h.dvd, h.twoDvd⟩
  have hle := h.le
  rwa [← hlens, forall₂_map_left_iff] at hle

/-- The ids of a micro-batch are packed like its tokens. -/
structure Packs (tpSize cpSize cpRank : Nat) (routing : Routing cfg.moeRouterTopk) (b : Batch)
    (idxs : List Nat) (rmpad : List (List (List UInt8))) (zero : List (List UInt8))
    (seqs : List (List (List (List UInt8)))) : Prop where
  packed : rmpad = (localPieces zero cpSize cpRank seqs
    (paddedLens tpSize cpSize (useFp8Padding cfg) b idxs)).flatten
  padded : Padded cpSize seqs (paddedLens tpSize cpSize (useFp8Padding cfg) b idxs)
  tokens : ∀ k i : Nat, idxs[k]? = some i → ∃ d, seqs[k]? = some d ∧
    ∀ p < b.len i, d[p]? = some (blockOf routing (moeLayers cfg) i (some p))

theorem ReplayLoads.nonempty (h : ReplayLoads cfg tpSize cpSize b unpad idxs) : idxs ≠ [] := by
  unfold ReplayLoads at h
  split at h
  · rintro rfl
    exact h.nonempty rfl
  · exact h

theorem exists_packReplayIdx (routing : Routing cfg.moeRouterTopk) (htp : 1 ≤ tpSize)
    (hcp : 1 ≤ cpSize) (hidxs : ∀ i ∈ idxs, i < b.size)
    (hload : ReplayLoads cfg tpSize cpSize b unpad idxs) (hrank : cpRank < cpSize) :
    ∃ rmpad zero seqs, packReplayIdx cfg ⟨tpSize, cpSize, cpRank⟩
        ((replayOf routing b (moeLayers cfg) unpad).select idxs) (b.attentionMask idxs) =
          .ok rmpad ∧ Packs tpSize cpSize cpRank routing b idxs rmpad zero seqs := by
  have hspec := paddedLens_spec htp hcp (useFp8Padding cfg) b hload.nonempty
  have hlens : (idxs.map (tokenBlocks routing (moeLayers cfg) b)).map length =
      idxs.map b.len :=
    map_length_map_len (fun i p => blockOf routing (moeLayers cfg) i (some p)) b idxs
  have hpadded := hspec.padded_of_lens hlens
  have htokens : ∀ k i : Nat, idxs[k]? = some i →
      (idxs.map (tokenBlocks routing (moeLayers cfg) b))[k]? =
        some (tokenBlocks routing (moeLayers cfg) b i) := by grind
  have hblocks : ∀ i p : Nat, p < b.len i → (tokenBlocks routing (moeLayers cfg) b i)[p]? =
      some (blockOf routing (moeLayers cfg) i (some p)) := by
    intro i p hp
    unfold tokenBlocks
    rw [getElem?_map, getElem?_range hp]
    rfl
  rw [select_replayOf routing (moeLayers cfg) hidxs unpad]
  unfold ReplayLoads at hload
  unfold packReplayIdx
  by_cases hnested : (b.isNested || unpad) = true
  · rw [if_pos hnested] at hload ⊢
    rw [← hlens] at hload
    obtain ⟨out, hout, hids⟩ := hload.preprocess_eq
      (zeroTopk (moeLayers cfg).length cfg.moeRouterTopk) htp hcp hrank
    rw [hlens] at hids
    rw [hout]
    refine ⟨_, zeroTopk (moeLayers cfg).length cfg.moeRouterTopk,
      packedSeqs (zeroTopk (moeLayers cfg).length cfg.moeRouterTopk) cpSize 0
        (idxs.map (tokenBlocks routing (moeLayers cfg) b))
        (paddedLens tpSize cpSize (useFp8Padding cfg) b idxs), rfl, hids,
      padded_packedSeqs _ 0 hpadded, fun k i hi => ?_⟩
    obtain ⟨n, hn, -⟩ := hpadded.exists_length_le (htokens k i hi)
    obtain ⟨d, hd, hget⟩ := exists_getElem?_packedSeqs
      (zeroTopk (moeLayers cfg).length cfg.moeRouterTopk) cpSize 0 (htokens k i hi) hn
    refine ⟨d, hd, fun p hp => ?_⟩
    rw [hget p (by
      unfold tokenBlocks
      rwa [length_map, length_range]), hblocks i p hp]
  · rw [if_neg hnested] at hload ⊢
    have hpad : b.isNested = false := by grind
    have hmaskNe : b.attentionMask idxs ≠ [] := by
      unfold Batch.attentionMask
      rwa [ne_eq, map_eq_nil_iff]
    obtain ⟨layout, hlayout, -, hpacked⟩ := preprocessPackedSeqs_eq
      (zeroTopk (moeLayers cfg).length cfg.moeRouterTopk) ⟨tpSize, cpSize, cpRank⟩ htp hcp
      (useFp8Padding cfg) hmaskNe (forall₂_topkOf routing hpad (moeLayers cfg) idxs)
    rw [zipWith_maskSelect_topkOf routing hpad, hlens] at hlayout
    have hns := seqlensPadded_of_thdLayout hlayout
    have hrun := hpacked cpRank hrank
    rw [zipWith_maskSelect_topkOf routing hpad, hns] at hrun
    have hflag : (topkOf routing b idxs (moeLayers cfg)).isNested = false := hpad
    rw [hflag]
    refine ⟨_, zeroTopk (moeLayers cfg).length cfg.moeRouterTopk,
      idxs.map (tokenBlocks routing (moeLayers cfg) b), congrArg (Except.map Prod.fst) hrun, rfl,
      hpadded, fun k i hi => ⟨_, htokens k i hi, hblocks i⟩⟩

theorem replayLoads_of_pack (routing : Routing cfg.moeRouterTopk) (htp : 1 ≤ tpSize)
    (hcp : 1 ≤ cpSize) (hidxs : ∀ i ∈ idxs, i < b.size)
    (h : ∀ cpRank < cpSize, ∃ rmpad, packReplayIdx cfg ⟨tpSize, cpSize, cpRank⟩
      ((replayOf routing b (moeLayers cfg) unpad).select idxs) (b.attentionMask idxs) = .ok rmpad) :
    ReplayLoads cfg tpSize cpSize b unpad idxs := by
  rw [select_replayOf routing (moeLayers cfg) hidxs unpad] at h
  unfold packReplayIdx at h
  unfold ReplayLoads
  by_cases hnested : (b.isNested || unpad) = true
  · rw [if_pos hnested] at h ⊢
    have hlens : (idxs.map (tokenBlocks routing (moeLayers cfg) b)).map length =
        idxs.map b.len :=
      map_length_map_len (fun i p => blockOf routing (moeLayers cfg) i (some p)) b idxs
    rw [← hlens]
    refine (itemsLoad_iff (zeroTopk (moeLayers cfg).length cfg.moeRouterTopk) htp hcp).1
      fun cpRank hrank => ?_
    obtain ⟨rmpad, hrmpad⟩ := h cpRank hrank
    rw [if_pos rfl, except_map_eq_ok] at hrmpad
    obtain ⟨out, hout, -⟩ := hrmpad
    exact ⟨out, hout⟩
  · rw [if_neg hnested] at h ⊢
    rintro rfl
    obtain ⟨rmpad, hrmpad⟩ := h 0 hcp
    have hflag : (topkOf routing b [] (moeLayers cfg)).isNested = false := by
      cases hb : b.isNested with
      | false => exact hb
      | true => exact absurd (by rw [hb, Bool.true_or]) hnested
    rw [hflag, if_neg (by decide), except_map_eq_ok] at hrmpad
    obtain ⟨out, hout, -⟩ := hrmpad
    obtain ⟨layout, hlayout, -⟩ := bind_eq_ok.1 hout
    exact ne_nil_of_thdLayout hlayout rfl

theorem padded_tokens (h : PaddedLens tpSize cpSize (idxs.map b.len) ns) :
    Padded cpSize (idxs.map b.tokens) ns :=
  h.padded_of_lens (map_length_map_len (fun i p => (i, p)) b idxs)

theorem getElem?_scatter (hmg : mg.Lawful) {xs : List β} {s : Nat}
    (hdvd : tpSize ∣ xs.length) (hrank : tpRank < tpSize) (hs : s < xs.length / tpSize) :
    (mg.scatterToSequenceParallelRegion tpSize tpRank xs)[s]? =
      xs[tpRank * (xs.length / tpSize) + s]? := by
  rw [hmg.scatter tpSize tpRank xs hdvd hrank, getElem?_getSlice _ _ hs]

theorem length_scatter (hmg : mg.Lawful) {xs : List β}
    (hdvd : tpSize ∣ xs.length) (hrank : tpRank < tpSize) :
    (mg.scatterToSequenceParallelRegion tpSize tpRank xs).length = xs.length / tpSize := by
  have hle := Nat.mul_le_mul_right (xs.length / tpSize) (Nat.succ_le_of_lt hrank)
  rw [Nat.succ_mul, Nat.mul_div_cancel' hdvd] at hle
  rw [hmg.scatter tpSize tpRank xs hdvd hrank, length_getSlice hle]

theorem length_tokenSlots (hcp : 1 ≤ cpSize)
    (hrank : cpRank < cpSize) (h : PaddedLens tpSize cpSize (idxs.map b.len) ns) :
    (tokenSlots cpSize cpRank (idxs.map b.tokens) ns).length = (ns.map (· / cpSize)).sum :=
  length_flatten_localPieces hcp hrank (padded_map some (padded_tokens h))

/-- What a router is set to at a token: the ids of its layer, narrowed. -/
theorem getElem?_layerIdx (hmg : mg.Lawful) (htp : 1 ≤ tpSize) (hcp : 1 ≤ cpSize)
    (hcpRank : cpRank < cpSize) (htpRank : tpRank < tpSize)
    (hne : idxs ≠ []) {rmpad : List (List (List UInt8))} {zero : List (List UInt8)}
    {seqs : List (List (List (List UInt8)))}
    (hpack : Packs tpSize cpSize cpRank routing b idxs rmpad zero seqs) {layer : Nat}
    (hlayer : layer < cfg.numLayers) (hmoe : isMoe cfg layer = true) {s i p : Nat}
    (hs : (rankTokens mg cfg tpSize cpSize b cpRank tpRank idxs)[s]? = some (some (i, p))) :
    i ∈ idxs ∧ p < b.len i ∧
      (layerIdx (mg.scatterToSequenceParallelRegion tpSize tpRank rmpad) (ordinal cfg layer))[s]? =
        some ((routing.ids i layer p).map (· % 256)) := by
  have hspec := paddedLens_spec htp hcp (useFp8Padding cfg) b hne
  have hslots := length_tokenSlots hcp hcpRank hspec
  have hpadLen : rmpad.length =
      ((paddedLens tpSize cpSize (useFp8Padding cfg) b idxs).map (· / cpSize)).sum := by
    rw [hpack.packed, length_flatten_localPieces hcp hcpRank hpack.padded]
  have hdvd := hspec.tpDvd
  -- the slot of the context-parallel rank
  have hlt := (List.getElem?_eq_some_iff.1 hs).1
  unfold rankTokens at hs hlt
  rw [length_scatter hmg (by rwa [hslots]) htpRank, hslots] at hlt
  rw [getElem?_scatter hmg (by rwa [hslots]) htpRank (by rwa [hslots]), hslots] at hs
  obtain ⟨k, p', d, hd, hp', hget⟩ := getElem?_of_tokenSlots zero
    hcp hcpRank (padded_tokens hspec) hpack.padded hs
  rw [getElem?_map, Option.map_eq_some_iff] at hd
  obtain ⟨i', hi', rfl⟩ := hd
  have htoken : i' = i ∧ p' = p ∧ p < b.len i := by
    have hlen := (List.getElem?_eq_some_iff.1 hp').1
    unfold Batch.tokens at hp' hlen
    rw [length_map, length_range] at hlen
    rw [getElem?_map, getElem?_range hlen] at hp'
    cases hp'
    exact ⟨rfl, rfl, hlen⟩
  obtain ⟨rfl, rfl, hlen⟩ := htoken
  obtain ⟨d', hd', hblock⟩ := hpack.tokens k i' hi'
  have hslot := hget d' hd' (List.getElem?_eq_some_iff.1 (hblock p' hlen)).1
  rw [← hpack.packed, hblock p' hlen] at hslot
  refine ⟨mem_of_getElem? hi', hlen, ?_⟩
  unfold layerIdx
  rw [getElem?_map, getElem?_scatter hmg (by rwa [hpadLen]) htpRank (by rwa [hpadLen]), hpadLen,
    hslot, Option.map_some, getD_eq_getElem?_getD]
  unfold blockOf
  rw [getElem?_map, getElem?_moeLayers hlayer hmoe, Option.map_some, Option.getD_some,
    map_map]
  exact congrArg some (map_congr_left fun e _ => UInt8.toNat_ofNat')

theorem exists_rankTokens (cfg : TransformerConfig) (hmg : mg.Lawful) (htp : 1 ≤ tpSize) (hcp : 1 ≤ cpSize)
    (hne : idxs ≠ []) {i p : Nat} (hi : i ∈ idxs) (hp : p < b.len i) :
    ∃ cpRank < cpSize, ∃ tpRank < tpSize, ∃ s : Nat,
      (rankTokens mg cfg tpSize cpSize b cpRank tpRank idxs)[s]? = some (some (i, p)) := by
  have hspec := paddedLens_spec htp hcp (useFp8Padding cfg) b hne
  obtain ⟨k, hk⟩ := List.getElem?_of_mem hi
  have htokens : (idxs.map b.tokens)[k]? = some (b.tokens i) := by grind
  have htoken : (b.tokens i)[p]? = some (i, p) := by
    unfold Batch.tokens
    rw [getElem?_map, getElem?_range hp]
    rfl
  obtain ⟨cpRank, hcpRank, slot, hslot⟩ := exists_tokenSlots hcp (padded_tokens hspec) htokens htoken
  have hslots := length_tokenSlots hcp hcpRank hspec
  have hdvd := hspec.tpDvd
  rw [← hslots] at hdvd
  have hlt := (List.getElem?_eq_some_iff.1 hslot).1
  have hw := Nat.mul_div_cancel' hdvd
  generalize hxs : tokenSlots cpSize cpRank (idxs.map b.tokens)
    (paddedLens tpSize cpSize (useFp8Padding cfg) b idxs) = xs at *
  have hpos : 0 < xs.length / tpSize := by grind
  have htpRank : slot / (xs.length / tpSize) < tpSize := by
    rw [Nat.div_lt_iff_lt_mul hpos, hw]
    exact hlt
  refine ⟨cpRank, hcpRank, slot / (xs.length / tpSize), htpRank, slot % (xs.length / tpSize), ?_⟩
  unfold rankTokens
  rw [hxs, getElem?_scatter hmg hdvd htpRank (Nat.mod_lt _ hpos), Nat.div_add_mod', hslot]

end Pack

/-! ## Replaying what was recorded -/

section Main

variable {mg : Megatron} {cfg : TransformerConfig} {layers : List Nat} {tpSize cpSize : Nat}
  {routing : Routing cfg.moeRouterTopk} {b : Batch} {unpad : Bool}

theorem map_mod_eq_self_iff {ids : List Nat} : ids.map (· % 256) = ids ↔ ∀ e ∈ ids, e < 256 := by
  constructor
  · grind
  · intro h
    exact (map_congr_left fun e he => Nat.mod_eq_of_lt (h e he)).trans (map_id _)

section

variable (hbuilt : Built mg cfg layers)
include hbuilt

/-- An MoE layer of the model is in a stage, and is trained there. -/
theorem Built.exists_stage {layer : Nat} (hlayer : layer ∈ moeLayers cfg) : ∃ chunk < numChunks cfg,
      ∃ ppRank < cfg.pipelineModelParallelSize,
        layer ∈ stageLayers cfg layers (stageIdx cfg chunk ppRank) := by
  rw [hbuilt.moeLayers_eq, mem_flatMap] at hlayer
  obtain ⟨stage, hstage, hmem⟩ := hlayer
  obtain ⟨chunk, hchunk, ppRank, hrank, rfl⟩ := hbuilt.exists_stageIdx (mem_range.1 hstage)
  exact ⟨chunk, hchunk, ppRank, hrank, hmem⟩

theorem Built.of_mem_stageLayers {stage layer : Nat}
    (h : layer ∈ stageLayers cfg layers stage) : layer < cfg.numLayers ∧ RouterReplay.isMoe cfg layer = true :=
  ⟨hbuilt.range'_lt (mem_of_mem_filter h), (mem_filter.1 h).2⟩

/-- A micro-batch that is replayed has been packed on all ranks. -/
theorem Replays.loads (htp : 1 ≤ tpSize) (hcp : 1 ≤ cpSize)
    {idxs : List Nat} (hidxs : ∀ i ∈ idxs, i < b.size)
    (h : Replays mg cfg layers tpSize cpSize routing b (replayOf routing b (moeLayers cfg) unpad)
      idxs) : ReplayLoads cfg tpSize cpSize b unpad idxs := by
  refine replayLoads_of_pack routing htp hcp hidxs fun cpRank hcpRank => ?_
  obtain ⟨instances', -, hset, -⟩ := h cpRank hcpRank 0 htp 0 hbuilt.chunks 0 hbuilt.ppSize
    (vpStage cfg 0) (vpStage_mem cfg hbuilt.chunks)
    (replicate (rankLayers cfg layers 0).length ⟨none, none, []⟩) length_replicate
  obtain ⟨rmpad, hrmpad, -⟩ := bind_eq_ok.1 hset
  exact ⟨rmpad, hrmpad⟩

/-- A micro-batch replays what was recorded iff it can be packed and its ids are small. -/
theorem replays_iff (hmg : mg.Lawful) (htp : 1 ≤ tpSize)
    (hcp : 1 ≤ cpSize) {idxs : List Nat} (hidxs : ∀ i ∈ idxs, i < b.size) :
    Replays mg cfg layers tpSize cpSize routing b (replayOf routing b (moeLayers cfg) unpad) idxs ↔
      ReplayLoads cfg tpSize cpSize b unpad idxs ∧ SmallIds cfg routing b idxs := by
  have hlayerNum : ((replayOf routing b (moeLayers cfg) unpad).select idxs).layerNum =
      (moeLayers cfg).length := layerNum_replayOf routing b (moeLayers cfg) unpad
  constructor
  · intro h
    have hload := h.loads hbuilt htp hcp hidxs
    refine ⟨hload, fun i hi layer hlayer p hp => ?_⟩
    obtain ⟨chunk, hchunk, ppRank, hpp, hmem⟩ := hbuilt.exists_stage hlayer
    obtain ⟨hlt, hmoe⟩ := hbuilt.of_mem_stageLayers hmem
    obtain ⟨cpRank, hcpRank, tpRank, htpRank, s, hs⟩ :=
      exists_rankTokens cfg hmg htp hcp hload.nonempty hi hp
    obtain ⟨rmpad, zero, seqs, hpack, hpacks⟩ :=
      exists_packReplayIdx routing htp hcp hidxs hload hcpRank
    have hlen : (replicate (rankLayers cfg layers ppRank).length
        (⟨none, none, []⟩ : RouterReplay)).length = (rankLayers cfg layers ppRank).length :=
      length_replicate
    obtain ⟨instances', routers, hset, hrouters, htargets⟩ := h cpRank hcpRank tpRank htpRank chunk
      hchunk ppRank hpp (vpStage cfg chunk) (vpStage_mem cfg hchunk) _ hlen
    obtain ⟨instances'', routers', hset', hrouters', htargets'⟩ := setRouterReplayData_eq hbuilt
      hchunk hpp (vpStage_mem cfg hchunk) hlayerNum hpack tpRank hlen
    rw [hset] at hset'
    cases hset'
    rw [hrouters] at hrouters'
    cases hrouters'
    obtain ⟨j, hj, hjmem⟩ := getElem_of_mem hmem
    rw [forall₂_iff_get] at htargets htargets'
    have hjr : j < routers.length := by
      rw [htargets.1]
      exact hj
    obtain ⟨target, htarget, hids⟩ := htargets.2 j hjr hj
    have htarget' := htargets'.2 j hjr hj
    rw [htarget, Option.some_inj] at htarget'
    rw [get_eq_getElem, hjmem] at hids htarget'
    have hreplayed := hids s i p hs
    rw [htarget', (getElem?_layerIdx hmg htp hcp hcpRank htpRank hload.nonempty hpacks hlt hmoe
      hs).2.2, Option.some_inj] at hreplayed
    exact map_mod_eq_self_iff.1 hreplayed
  · rintro ⟨hload, hsmall⟩ cpRank hcpRank tpRank htpRank chunk hchunk ppRank hpp vpRank hvp
      instances hlen
    obtain ⟨rmpad, zero, seqs, hpack, hpacks⟩ :=
      exists_packReplayIdx routing htp hcp hidxs hload hcpRank
    obtain ⟨instances', routers, hset, hrouters, htargets⟩ := setRouterReplayData_eq hbuilt hchunk
      hpp hvp hlayerNum hpack tpRank hlen
    refine ⟨instances', routers, hset, hrouters, ?_⟩
    rw [forall₂_iff_get] at htargets ⊢
    refine ⟨htargets.1, fun j hj hj' => ⟨_, htargets.2 j hj hj', fun s i p hs => ?_⟩⟩
    have hmem := getElem_mem hj'
    obtain ⟨hlt, hmoe⟩ := hbuilt.of_mem_stageLayers hmem
    obtain ⟨hi, hp, hget⟩ := getElem?_layerIdx hmg htp hcp hcpRank htpRank hload.nonempty hpacks hlt
      hmoe hs
    have hids := hsmall i hi _ (mem_filter.2 ⟨mem_range.2 hlt, hmoe⟩) p hp
    rw [get_eq_getElem, hget, map_mod_eq_self_iff.2 hids]

end

theorem toReplay_eq_ok_iff (routing : Routing cfg.moeRouterTopk) (hsize : 0 < b.size)
    {ls : List Nat} (hls : ls ≠ []) (unpad : Bool) {t : LayersTopkIdx} :
    toReplay b unpad (topkOf routing b (range b.size) ls) = .ok t ↔
      (unpad = true → b.isNested = false → 0 < b.seqLen ∧ 0 < cfg.moeRouterTopk) ∧
        t = replayOf routing b ls unpad := by
  unfold toReplay
  cases hnested : b.isNested with
  | true =>
    rw [topkOf_nested routing hnested ls unpad]
    constructor
    · grind
    · grind
  | false =>
    cases unpad with
    | true =>
      rw [        leftRightRoutedExperts_topkOf routing hnested hsize hls]
      by_cases hok : 0 < b.seqLen ∧ 0 < cfg.moeRouterTopk
      · grind
      · grind
    | false =>
      have hreplay : replayOf routing b ls false = topkOf routing b (range b.size) ls := by
        unfold replayOf
        rw [hnested, if_neg (by decide)]
      constructor
      · grind
      · grind

theorem Recordable.size_pos {microBatches : List (List Nat)} {useDynamicBsz : Bool}
    (h : Recordable cfg layers tpSize cpSize b microBatches)
    (hsplits : Splits b microBatches useDynamicBsz) : 0 < b.size := by
  obtain ⟨idxs, hidxs⟩ := exists_mem_of_ne_nil _ h.nonempty
  obtain ⟨i, hi⟩ := exists_mem_of_ne_nil _ (h.loads idxs hidxs).nonempty
  have hmem := hsplits.perm.mem_iff.1 (mem_flatten.2 ⟨idxs, hidxs, hi⟩)
  exact Nat.zero_lt_of_lt (mem_range.1 hmem)

theorem Recordable.moeLayers_ne_nil {microBatches : List (List Nat)}
    (h : Recordable cfg layers tpSize cpSize b microBatches) (hbuilt : Built mg cfg layers) :
    moeLayers cfg ≠ [] := by
  have hstage := hbuilt.stageIdx_lt hbuilt.chunks hbuilt.ppSize
  obtain ⟨layer, hlayer⟩ := exists_mem_of_ne_nil _ (h.stages _ hstage)
  obtain ⟨hlt, hmoe⟩ := hbuilt.of_mem_stageLayers hlayer
  exact ne_nil_of_mem (mem_filter.2 ⟨mem_range.2 hlt, hmoe⟩)

section Recorded

variable {states : RouterStates} {microBatches replays : List (List Nat)} {useDynamicBsz : Bool}

theorem ReplaysRecorded.replayable (hbuilt : Built mg cfg layers) (hmg : mg.Lawful)
    (hagree : StagesAgree mg cfg layers) (htp : 1 ≤ tpSize) (hcp : 1 ≤ cpSize)
    (hrec : RecordsAll mg cfg layers tpSize cpSize routing b states microBatches)
    (hsplits : Splits b microBatches useDynamicBsz)
    (hreplays : ∀ idxs ∈ replays, ∀ i ∈ idxs, i < b.size)
    (h : ReplaysRecorded mg cfg layers tpSize cpSize routing b states microBatches useDynamicBsz
      unpad replays) :
    Replayable cfg layers tpSize cpSize routing b microBatches unpad replays := by
  obtain ⟨recorded, t, hrecorded, ht, hall⟩ := h
  have hrecord := (recordOn_ok_iff hbuilt hmg hagree htp hcp hrec hsplits).1
    fun cpRank hcpRank => ⟨recorded, hrecorded cpRank hcpRank⟩
  have heq := recordOn_eq hbuilt hmg hagree htp hcp hrec hsplits hrecord hcp
  rw [hrecorded 0 hcp] at heq
  cases heq
  obtain ⟨hnumel, rfl⟩ := (toReplay_eq_ok_iff routing (hrecord.size_pos hsplits)
    (hrecord.moeLayers_ne_nil hbuilt) unpad).1 ht
  have hiff : ∀ idxs ∈ replays, ReplayLoads cfg tpSize cpSize b unpad idxs ∧
      SmallIds cfg routing b idxs := fun idxs hidxs =>
    (replays_iff hbuilt hmg htp hcp (hreplays idxs hidxs)).1 (hall idxs hidxs)
  exact ⟨hrecord, hnumel, fun idxs hidxs => (hiff idxs hidxs).1,
    fun idxs hidxs => (hiff idxs hidxs).2⟩

/-- A batch replays exactly what was recorded iff it is replayable: above all, the ids of its tokens
are below 256. -/
theorem replaysRecorded_iff (hbuilt : Built mg cfg layers) (hmg : mg.Lawful)
    (hagree : StagesAgree mg cfg layers) (htp : 1 ≤ tpSize) (hcp : 1 ≤ cpSize)
    (hrec : RecordsAll mg cfg layers tpSize cpSize routing b states microBatches)
    (hsplits : Splits b microBatches useDynamicBsz)
    (hreplays : ∀ idxs ∈ replays, ∀ i ∈ idxs, i < b.size) (unpad : Bool) :
    ReplaysRecorded mg cfg layers tpSize cpSize routing b states microBatches useDynamicBsz unpad
        replays ↔
      Replayable cfg layers tpSize cpSize routing b microBatches unpad replays := by
  constructor
  · exact ReplaysRecorded.replayable hbuilt hmg hagree htp hcp hrec hsplits hreplays
  · intro h
    exact ⟨_, _, fun cpRank hcpRank => recordOn_eq hbuilt hmg hagree htp hcp hrec hsplits h.record
        hcpRank,
      (toReplay_eq_ok_iff routing (h.record.size_pos hsplits) (h.record.moeLayers_ne_nil hbuilt)
        unpad).2 ⟨h.numel, rfl⟩,
      fun idxs hidxs => (replays_iff hbuilt hmg htp hcp (hreplays idxs hidxs)).2
        ⟨h.loads idxs hidxs, h.ids idxs hidxs⟩⟩

end Recorded

end Main

/-! ## One layer on one rank -/

section OneRank

/-- Megatron on one rank. -/
def oneRank : Megatron where
  isVpFirstStage vpStage _ := vpStage.getD 0 == 0
  isVpLastStage vpStage vpSize := vpStage.getD 0 + 1 == vpSize.getD 1
  getTransformerLayerOffset _ _ _ := 0
  getScheduleTable numMicrobatches numModelChunks _ :=
    (List.range numModelChunks).flatMap fun chunk =>
      (List.range numMicrobatches).map fun mb => (mb, chunk)
  scatterToSequenceParallelRegion tpSize tpRank xs :=
    getSlice xs (tpRank * (xs.length / tpSize)) (xs.length / tpSize)
  gatherFromSequenceParallelRegion shards := shards.flatten

theorem oneRank_lawful : oneRank.Lawful where
  scatter _ _ _ _ _ := rfl
  gather _ := rfl
  schedule numMicrobatches numChunks _ chunk _ hchunk := by
    show List.map Prod.fst (List.filter _ (List.flatMap _ _)) = _
    rw [filter_flatMap, map_flatMap]
    obtain ⟨m, rfl⟩ : ∃ m, numChunks = chunk + (m + 1) := ⟨numChunks - chunk - 1, by omega⟩
    have hother : ∀ c ≠ chunk, List.map Prod.fst (List.filter (fun p : Nat × Nat => p.2 == chunk)
        ((range numMicrobatches).map fun mb => (mb, c))) = [] := by
      intro c hc
      rw [map_eq_nil_iff, filter_eq_nil_iff]
      intro p hp
      obtain ⟨mb, -, rfl⟩ := mem_map.1 hp
      simpa using hc
    have hown : List.map Prod.fst (List.filter (fun p : Nat × Nat => p.2 == chunk)
        ((range numMicrobatches).map fun mb => (mb, chunk))) = range numMicrobatches := by
      rw [filter_eq_self.2, map_map]
      · exact map_id _
      · simp
    rw [range_add, flatMap_append, range_succ_eq_map, map_cons,
      flatMap_cons, Nat.add_zero, hown, flatMap_eq_nil_iff.2, flatMap_eq_nil_iff.2,
      nil_append, append_nil]
    · simp
    · exact fun c hc => hother c (by
        rw [mem_range] at hc
        omega)
  chunk_lt _ _ _ p hp := by
    obtain ⟨c, hc, hmem⟩ := mem_flatMap.1 hp
    obtain ⟨mb, -, rfl⟩ := mem_map.1 hmem
    exact mem_range.1 hc

def oneLayer : TransformerConfig :=
  { numLayers := 1, pipelineModelParallelSize := 1, virtualPipelineModelParallelSize := none
    numLayersInFirstPipelineStage := none, numLayersInLastPipelineStage := none
    accountForEmbeddingInPipelineSplit := false, accountForLossInPipelineSplit := false
    pipelineModelParallelLayout := none, moeLayerFreq := .int 1, moeRouterTopk := 1, fp8 := none
    microbatchGroupSizePerVpStage := 1 }

theorem oneLayer_built : Built oneRank oneLayer [1] where
  ppSize := by decide
  chunks := by decide
  length := by decide
  total := by decide
  num := by
    intro chunk hchunk ppRank hrank vpRank hvp
    obtain rfl : chunk = 0 := Nat.lt_one_iff.1 hchunk
    obtain rfl : ppRank = 0 := Nat.lt_one_iff.1 hrank
    rcases mem_cons.1 hvp with rfl | hvp
    · rfl
    · rw [mem_singleton] at hvp
      rfl
  offset := by
    intro chunk hchunk ppRank hrank _ _
    obtain rfl : chunk = 0 := Nat.lt_one_iff.1 hchunk
    obtain rfl : ppRank = 0 := Nat.lt_one_iff.1 hrank
    rfl
  isMoe layer _ := ⟨_, rfl⟩
  groupSize := by decide

theorem oneLayer_stagesAgree : StagesAgree oneRank oneLayer [1] := fun h => (by cases h)

/-- One sample of one token. -/
def oneToken : Batch where
  isNested := true
  seqLen := 1
  size := 1
  sample _ := ⟨[7], [true]⟩
  wf h := by cases h

/-- Every token goes to one expert. -/
def toExpert (e : Nat) : Routing oneLayer.moeRouterTopk := ⟨fun _ _ _ => [e], fun _ _ _ => rfl⟩

def recordedExpert (e : Nat) : RouterStates := fun _ _ _ _ _ => [⟨none, some [[e]], []⟩]

theorem recordedExpert_recordsAll (e : Nat) :
    RecordsAll oneRank oneLayer [1] 1 1 (toExpert e) oneToken (recordedExpert e) [[0]] := by
  intro idxs hidxs chunk hchunk ppRank hpp cpRank hcp tpRank htp
  rw [mem_singleton] at hidxs
  subst hidxs
  obtain rfl : chunk = 0 := Nat.lt_one_iff.1 hchunk
  obtain rfl : ppRank = 0 := Nat.lt_one_iff.1 hpp
  obtain rfl : cpRank = 0 := Nat.lt_one_iff.1 hcp
  obtain rfl : tpRank = 0 := Nat.lt_one_iff.1 htp
  refine ⟨rfl, fun vpRank hvp routers hrouters => ?_⟩
  cases hrouters
  have hpos : slotPositions 1 1 0 (useFp8Padding oneLayer) oneToken [0] = [(0, 0)] := by decide
  refine .cons ?_ .nil
  rw [slotsOf_eq_map (by decide) (by decide) (by decide) (by decide), hpos]
  simp [oneRank, toExpert, getSlice]

theorem oneToken_splits : Splits oneToken [[0]] false := ⟨Perm.refl _, fun _ => rfl⟩

/-- Expert 3 is replayed. -/
theorem replaysRecorded_three :
    ReplaysRecorded oneRank oneLayer [1] 1 1 (toExpert 3) oneToken (recordedExpert 3) [[0]] false
      false [[0]] := by
  refine (replaysRecorded_iff oneLayer_built oneRank_lawful oneLayer_stagesAgree (by decide)
    (by decide) (recordedExpert_recordsAll 3) oneToken_splits (by decide) false).2 ?_
  have hidxs : ∀ idxs ∈ [[0]], idxs = [0] := fun idxs h => mem_singleton.1 h
  refine ⟨⟨by decide, fun idxs h => ?_, fun stage hstage => ?_, fun h => absurd h (by decide)⟩,
    fun h => absurd h (by decide), fun idxs h => ?_, fun idxs h i _ layer _ p _ e he => ?_⟩
  · rw [hidxs idxs h]
    exact ⟨by decide, fun _ => ⟨by decide, fun h => absurd h (by decide)⟩⟩
  · obtain rfl : stage = 0 := Nat.lt_one_iff.1 hstage
    decide
  · rw [hidxs idxs h]
    exact ⟨by decide, fun h => absurd h (by decide), fun h => absurd h (by decide)⟩
  · rw [mem_singleton.1 he]
    decide

/-- Expert 260 is replayed as expert 4. -/
theorem not_replaysRecorded_260 :
    RecordsAll oneRank oneLayer [1] 1 1 (toExpert 260) oneToken (recordedExpert 260) [[0]] ∧
      ¬ReplaysRecorded oneRank oneLayer [1] 1 1 (toExpert 260) oneToken (recordedExpert 260) [[0]]
        false false [[0]] := by
  refine ⟨recordedExpert_recordsAll 260, fun h => ?_⟩
  have hreplayable := h.replayable oneLayer_built oneRank_lawful oneLayer_stagesAgree (by decide)
    (by decide) (recordedExpert_recordsAll 260) oneToken_splits (by decide)
  have hsmall := hreplayable.ids [0] (by decide) 0 (by decide) 0 (by decide) 0 (by decide) 260
    (mem_singleton_self _)
  exact absurd hsmall (by decide)

end OneRank

end Verl.RouterReplay
