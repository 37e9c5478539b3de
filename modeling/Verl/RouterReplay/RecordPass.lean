import Verl.RouterReplay.Replay

/-! # A recording pass on all pipeline ranks

`forward_backward_batch` asks the first router of a model chunk whether it records: before a
micro-batch is merged the first router of its own chunk, before the ranks gather the first router of
chunk 0.  A chunk without MoE layers has no router, and says no.

    ranks 2, dense layer first        rank 0  []        does not gather
                                      rank 1  [1]       gathers, and waits for rank 0

* `isR2RecordAction`, `recordedRank`: what a rank does up to `pp_gather`.
* `recordPass`: what the last rank outputs; `pp_gather` returns when all ranks are in it.
* `PassRight`: the ranks gather equally often, every virtual micro-batch has an entry, and the ids
  come out in the order of the layers and go to the right ones.
* `miniLayerTopkIdxList_eq`: the entries are those of the chunks with an MoE layer. -/

namespace Verl.RouterReplay

open MCore List

inductive RouterReplayAction
  | record
  | replayForward
  | replayBackward
  deriving DecidableEq, Repr

section Algorithm

variable (mg : Megatron) (cfg : TransformerConfig)

/-- `RouterReplayHelper.is_r2_record_action`, by the actions of the routers of the rank. -/
def isR2RecordAction (ppRank : Nat) (vpRank : Option Nat)
    (actions : List (Option RouterReplayAction)) : Except PyErr Bool := do
  let routerInstancesList ← getMicroBatchRouterList mg cfg ppRank vpRank actions
  return match routerInstancesList with
    | [] => false
    | action :: _ => action == some .record

/-- `set_global_router_replay_action`, as `forward_backward_batch` calls it. -/
def globalAction (enableRoutingReplay forwardOnly : Bool) (mode : String) :
    Option RouterReplayAction :=
  if enableRoutingReplay then
    if forwardOnly && mode == "R2" then some .record else some .replayForward
  else none

/-- The model chunk and the samples of every forward step. -/
def virtualMicroBatches (microBatches : List (List Nat)) : List (Option Nat × List Nat) :=
  match cfg.virtualPipelineModelParallelSize with
  | some vpSize =>
    (mg.getScheduleTable microBatches.length vpSize cfg.microbatchGroupSizePerVpStage).map fun p =>
      (some p.2, microBatches.getD p.1 [])
  | none => microBatches.map fun idxs => (none, idxs)

/-- `forward_step`, as far as it records. -/
def forwardStep (merge : Option Nat → List Nat → Except PyErr LayersTopkIdx) (ppRank : Nat)
    (actions : List (Option RouterReplayAction)) (miniLayerTopkIdxList : List LayersTopkIdx)
    (vb : Option Nat × List Nat) : Except PyErr (List LayersTopkIdx) := do
  let isRecord ← isR2RecordAction mg cfg ppRank vb.1 actions
  if isRecord then (merge vb.1 vb.2).map fun t => miniLayerTopkIdxList ++ [t]
  else .ok miniLayerTopkIdxList

/-- `mini_layer_topk_idx_list` after all forward steps. -/
def miniLayerTopkIdxList (merge : Option Nat → List Nat → Except PyErr LayersTopkIdx) (ppRank : Nat)
    (actions : List (Option RouterReplayAction)) (microBatches : List (List Nat)) :
    Except PyErr (List LayersTopkIdx) :=
  (virtualMicroBatches mg cfg microBatches).foldlM (forwardStep mg cfg merge ppRank actions) []

/-- The entries of a rank, in the order of its micro-batches. -/
def mergeEntries (tensors : List LayersTopkIdx) (nMicroBatch : Nat) : Except PyErr LayersTopkIdx :=
  match cfg.virtualPipelineModelParallelSize with
  | some vpSize =>
    reorderAndMergeVppLayers mg tensors nMicroBatch vpSize cfg.microbatchGroupSizePerVpStage
  | none => catRows tensors

/-- What a rank calls `pp_gather` with, if it does. -/
def recordedRank (merge : Option Nat → List Nat → Except PyErr LayersTopkIdx) (ppRank : Nat)
    (actions : List (Option RouterReplayAction)) (microBatches : List (List Nat)) :
    Except PyErr (Option LayersTopkIdx) := do
  let tensors ← miniLayerTopkIdxList mg cfg merge ppRank actions microBatches
  let isRecord ← isR2RecordAction mg cfg ppRank none actions
  if isRecord then (mergeEntries mg cfg tensors microBatches.length).map some else .ok none

/-- How often a rank gets to `pp_gather`. -/
def numGathers : Except PyErr (Option LayersTopkIdx) → Nat
  | .ok (some _) => 1
  | _ => 0

/-- What the ranks call `pp_gather` with, if all of them do. -/
def allEnter (ranks : List (Except PyErr (Option LayersTopkIdx))) : Option (List LayersTopkIdx) :=
  ranks.mapM fun
    | .ok (some t) => some t
    | _ => none

/-- `restore_dynamic_batch` under `use_dynamic_bsz`. -/
def restoreRows (microBatches : List (List Nat)) (useDynamicBsz : Bool) (t : LayersTopkIdx) :
    Except PyErr LayersTopkIdx :=
  if useDynamicBsz then
    (restoreDynamicBatch t.rows microBatches).map fun rows => { t with rows := rows }
  else .ok t

/-- The output of the last rank: none if it raises, or waits for a rank that does not come. -/
def recordPass (ranks : List (Except PyErr (Option LayersTopkIdx))) (microBatches : List (List Nat))
    (useDynamicBsz : Bool) : Option LayersTopkIdx := do
  let tensors ← allEnter ranks
  let gathered ← (ppGather mg cfg (cfg.pipelineModelParallelSize - 1) tensors).toOption
  (restoreRows microBatches useDynamicBsz gathered).toOption

end Algorithm

/-! ## What a pass should do -/

section Property

variable (mg : Megatron) (cfg : TransformerConfig) (layers : List Nat) (tpSize cpSize : Nat)
  (routing : Routing cfg.moeRouterTopk) (b : Batch)

/-- The routers of a rank all record. -/
def recordActions (ppRank : Nat) : List (Option RouterReplayAction) :=
  List.replicate (rankLayers cfg layers ppRank).length (globalAction true true "R2")

/-- What a pipeline rank merges, on a context-parallel rank. -/
def mergeOn (cpRank : Nat) (states : RouterStates) (ppRank : Nat) (vpRank : Option Nat)
    (idxs : List Nat) : Except PyErr LayersTopkIdx :=
  mergeRouterTopkIndices mg cfg ⟨tpSize, cpSize, cpRank⟩ ppRank vpRank (states idxs vpRank ppRank) b
    idxs

/-- The ranks of a pipeline, on a context-parallel rank. -/
def recordedRanks (cpRank : Nat) (states : RouterStates) (microBatches : List (List Nat)) :
    List (Except PyErr (Option LayersTopkIdx)) :=
  (List.range cfg.pipelineModelParallelSize).map fun ppRank =>
    recordedRank mg cfg (mergeOn mg cfg tpSize cpSize b cpRank states ppRank) ppRank
      (recordActions cfg layers ppRank) microBatches

/-- For every token the ids of all MoE layers, in their order. -/
structure HasIds (t : LayersTopkIdx) : Prop where
  layerNum : t.layerNum = (moeLayers cfg).length
  ids : ∀ i < b.size, ∀ s p : Nat, (b.labels i)[s]? = some (some p) →
    ((t.rows.getD i []).getD s []).map (List.map UInt8.toNat) =
      (moeLayers cfg).map fun layer => routing.ids i layer p

/-- A recording pass, and the replay of some micro-batches of its output. -/
structure PassRight (states : RouterStates) (microBatches : List (List Nat)) (useDynamicBsz : Bool)
    (replays : List (List Nat)) : Prop where
  gathers : ∀ cpRank < cpSize,
    ∀ rank ∈ recordedRanks mg cfg layers tpSize cpSize b cpRank states microBatches,
    ∀ rank' ∈ recordedRanks mg cfg layers tpSize cpSize b cpRank states microBatches,
      numGathers rank = numGathers rank'
  entries : ∀ cpRank < cpSize, ∀ ppRank < cfg.pipelineModelParallelSize, ∃ tensors,
    miniLayerTopkIdxList mg cfg (mergeOn mg cfg tpSize cpSize b cpRank states ppRank) ppRank
        (recordActions cfg layers ppRank) microBatches = .ok tensors ∧
      tensors.length = (virtualMicroBatches mg cfg microBatches).length
  output : ∃ recorded, (∀ cpRank < cpSize,
      recordPass mg cfg (recordedRanks mg cfg layers tpSize cpSize b cpRank states microBatches)
        microBatches useDynamicBsz = some recorded) ∧
    HasIds cfg routing b recorded ∧
    ∀ idxs ∈ replays, Replays mg cfg layers tpSize cpSize routing b recorded idxs

/-- The layers that the last rank cuts out have the ids of the MoE layers, in their order. -/
structure SameIds (cut : List Nat) : Prop where
  length : cut.length = (moeLayers cfg).length
  ids : ∀ i < b.size, ∀ p < b.len i,
    blockOf routing cut i (some p) = blockOf routing (moeLayers cfg) i (some p)

/-- What a pass needs: above all, an MoE layer in every stage. -/
structure PassReady (microBatches : List (List Nat)) (replays : List (List Nat)) : Prop where
  record : Recordable cfg layers tpSize cpSize b microBatches
  cut : ∃ cut, cutLayers mg cfg layers = .ok cut ∧ SameIds cfg routing b cut
  small : SmallIds cfg routing b (List.range b.size)
  loads : ∀ idxs ∈ replays, ReplayLoads cfg tpSize cpSize b false idxs

end Property

/-! ## Lemmas: the routers that say whether to record -/

section Gates

variable {mg : Megatron} {cfg : TransformerConfig} {layers : List Nat} {chunk ppRank : Nat}

theorem Built.isR2RecordAction_eq (hbuilt : Built mg cfg layers) (hchunk : chunk < numChunks cfg)
    (hrank : ppRank < cfg.pipelineModelParallelSize) {vpRank : Option Nat}
    (hvp : vpRank ∈ vpRanks cfg chunk) :
    isR2RecordAction mg cfg ppRank vpRank (recordActions cfg layers ppRank) =
      .ok (!(stageLayers cfg layers (stageIdx cfg chunk ppRank)).isEmpty) := by
  have hle := add_le_length_rankLayers cfg layers ppRank hchunk
  have hrouters : getSlice (recordActions cfg layers ppRank)
      ((range chunk).flatMap fun pre =>
        stageLayers cfg layers (stageIdx cfg pre ppRank)).length
      (stageLayers cfg layers (stageIdx cfg chunk ppRank)).length =
        replicate (stageLayers cfg layers (stageIdx cfg chunk ppRank)).length
          (some RouterReplayAction.record) := by
    unfold getSlice recordActions
    rw [drop_replicate, take_replicate, Nat.min_eq_left (by omega)]
    rfl
  unfold isR2RecordAction
  rw [hbuilt.getMicroBatchRouterList_eq hchunk hrank hvp, hrouters]
  cases stageLayers cfg layers (stageIdx cfg chunk ppRank) with
  | nil => rfl
  | cons layer ls => rfl

theorem Built.isR2RecordAction_none (hbuilt : Built mg cfg layers)
    (hrank : ppRank < cfg.pipelineModelParallelSize) :
    isR2RecordAction mg cfg ppRank none (recordActions cfg layers ppRank) =
      .ok (!(stageLayers cfg layers (stageIdx cfg 0 ppRank)).isEmpty) := by
  cases hsize : cfg.virtualPipelineModelParallelSize with
  | none =>
    refine hbuilt.isR2RecordAction_eq hbuilt.chunks hrank ?_
    unfold vpRanks
    rw [hsize]
    exact mem_cons_self
  | some vpSize =>
    have hrange : microBatchRouterRange mg cfg ppRank none =
        microBatchRouterRange mg cfg ppRank (some 0) := by simp [microBatchRouterRange, hsize]
    have hzero := hbuilt.isR2RecordAction_eq hbuilt.chunks hrank
      (vpStage_mem_vpRanks cfg hsize 0)
    unfold isR2RecordAction getMicroBatchRouterList at ⊢
    rw [hrange]
    exact hzero

theorem Built.of_mem_virtualMicroBatches (hbuilt : Built mg cfg layers) (hmg : mg.Lawful)
    {microBatches : List (List Nat)} {vb : Option Nat × List Nat}
    (hvb : vb ∈ virtualMicroBatches mg cfg microBatches) :
    vb.1.getD 0 < numChunks cfg ∧ vb.1 ∈ vpRanks cfg (vb.1.getD 0) := by
  unfold virtualMicroBatches at hvb
  cases hsize : cfg.virtualPipelineModelParallelSize with
  | none =>
    rw [hsize] at hvb
    obtain ⟨idxs, -, rfl⟩ := mem_map.1 hvb
    unfold vpRanks
    rw [hsize]
    exact ⟨hbuilt.chunks, mem_cons_self⟩
  | some vpSize =>
    rw [hsize] at hvb
    obtain ⟨p, hp, rfl⟩ := mem_map.1 hvb
    rw [(exists_numChunks hsize).1]
    exact ⟨hmg.chunk_lt _ _ _ p hp, vpStage_mem_vpRanks cfg hsize p.2⟩

theorem foldlM_forwardStep {merge : Option Nat → List Nat → Except PyErr LayersTopkIdx}
    {actions : List (Option RouterReplayAction)} (gate : Option Nat × List Nat → Bool)
    {vbs : List (Option Nat × List Nat)}
    (hgate : ∀ vb ∈ vbs, isR2RecordAction mg cfg ppRank vb.1 actions = .ok (gate vb))
    (entries : List LayersTopkIdx) :
    vbs.foldlM (forwardStep mg cfg merge ppRank actions) entries =
      ((vbs.filter gate).mapM fun vb => merge vb.1 vb.2).map (entries ++ ·) := by
  induction vbs generalizing entries with
  | nil => exact congrArg Except.ok (append_nil entries).symm
  | cons vb vbs ih =>
    rw [forall_mem_cons] at hgate
    rw [foldlM_cons]
    unfold forwardStep at ih ⊢
    rw [hgate.1, ok_bind]
    cases hvb : gate vb with
    | false =>
      rw [if_neg (by decide), ok_bind, ih hgate.2, filter_cons_of_neg (by simp [hvb])]
    | true =>
      rw [filter_cons_of_pos hvb, mapM_cons]
      cases merge vb.1 vb.2 with
      | error e => rfl
      | ok entry =>
        show (Except.ok (entries ++ [entry]) >>= _) = _
        rw [ok_bind, ih hgate.2]
        cases (vbs.filter gate).mapM fun vb => merge vb.1 vb.2 with
        | error e => rfl
        | ok rest => exact congrArg Except.ok (append_assoc entries [entry] rest)

variable {merge : Option Nat → List Nat → Except PyErr LayersTopkIdx}
  {microBatches : List (List Nat)}

/-- Whether the chunk of a forward step has an MoE layer. -/
def hasMoe (cfg : TransformerConfig) (layers : List Nat) (ppRank : Nat)
    (vb : Option Nat × List Nat) : Bool :=
  !(stageLayers cfg layers (stageIdx cfg (vb.1.getD 0) ppRank)).isEmpty

theorem miniLayerTopkIdxList_eq (hbuilt : Built mg cfg layers) (hmg : mg.Lawful)
    (hrank : ppRank < cfg.pipelineModelParallelSize) :
    miniLayerTopkIdxList mg cfg merge ppRank (recordActions cfg layers ppRank) microBatches =
      ((virtualMicroBatches mg cfg microBatches).filter (hasMoe cfg layers ppRank)).mapM
        fun vb => merge vb.1 vb.2 := by
  unfold miniLayerTopkIdxList
  rw [foldlM_forwardStep (hasMoe cfg layers ppRank) (fun vb hvb => ?_) []]
  · cases List.mapM (fun vb : Option Nat × List Nat => merge vb.1 vb.2)
      ((virtualMicroBatches mg cfg microBatches).filter (hasMoe cfg layers ppRank)) with
    | error e => rfl
    | ok entries => rfl
  · obtain ⟨hchunk, hvp⟩ := hbuilt.of_mem_virtualMicroBatches hmg hvb
    exact hbuilt.isR2RecordAction_eq hchunk hrank hvp

theorem recordRank_eq_mapM (mg : Megatron) (cfg : TransformerConfig)
    (merge : Option Nat → List Nat → Except PyErr LayersTopkIdx) (microBatches : List (List Nat)) :
    recordRank mg cfg merge microBatches =
      ((virtualMicroBatches mg cfg microBatches).mapM fun vb => merge vb.1 vb.2) >>= fun tensors =>
        mergeEntries mg cfg tensors microBatches.length := by
  unfold recordRank virtualMicroBatches mergeEntries
  cases cfg.virtualPipelineModelParallelSize with
  | none =>
    rw [mapM_map]
    rfl
  | some vpSize =>
    rw [mapM_map]
    rfl

section

variable (hbuilt : Built mg cfg layers) (hmg : mg.Lawful)
include hbuilt hmg

theorem filter_hasMoe (hstages : ∀ chunk < numChunks cfg, stageLayers cfg layers (stageIdx cfg chunk ppRank) ≠ []) :
    (virtualMicroBatches mg cfg microBatches).filter (hasMoe cfg layers ppRank) =
      virtualMicroBatches mg cfg microBatches := by
  rw [filter_eq_self]
  intro vb hvb
  have hne := hstages _ (hbuilt.of_mem_virtualMicroBatches hmg hvb).1
  unfold hasMoe
  rw [isEmpty_eq_false_iff.2 hne]
  rfl

/-- A rank with an MoE layer in every chunk enters `pp_gather` with what it recorded. -/
theorem recordedRank_of_stages (hrank : ppRank < cfg.pipelineModelParallelSize)
    (hstages : ∀ chunk < numChunks cfg, stageLayers cfg layers (stageIdx cfg chunk ppRank) ≠ []) :
    recordedRank mg cfg merge ppRank (recordActions cfg layers ppRank) microBatches =
      (recordRank mg cfg merge microBatches).map some := by
  have hfirst : (!(stageLayers cfg layers (stageIdx cfg 0 ppRank)).isEmpty) = true := by
    rw [isEmpty_eq_false_iff.2 (hstages 0 hbuilt.chunks)]
    rfl
  unfold recordedRank
  rw [miniLayerTopkIdxList_eq hbuilt hmg hrank, filter_hasMoe hbuilt hmg hstages, recordRank_eq_mapM,
    hbuilt.isR2RecordAction_none hrank, hfirst]
  cases List.mapM (fun vb : Option Nat × List Nat => merge vb.1 vb.2)
      (virtualMicroBatches mg cfg microBatches) with
  | error e => rfl
  | ok tensors => rw [ok_bind, ok_bind, ok_bind, if_pos rfl]

theorem recordRank_of_recordedRank (hrank : ppRank < cfg.pipelineModelParallelSize) {t : LayersTopkIdx}
    (h : recordedRank mg cfg merge ppRank (recordActions cfg layers ppRank) microBatches =
      .ok (some t)) : recordRank mg cfg merge microBatches = .ok t := by
  unfold recordedRank at h
  rw [miniLayerTopkIdxList_eq hbuilt hmg hrank, hbuilt.isR2RecordAction_none hrank] at h
  obtain ⟨tensors, htensors, h⟩ := bind_eq_ok.1 h
  rw [ok_bind] at h
  have hlen := (forall₂_of_mapM_eq_ok htensors).length_eq
  split at h
  case isFalse => cases h
  case isTrue hfirst =>
    obtain ⟨merged, hmerged, hsome⟩ := except_map_eq_ok.1 h
    cases hsome
    -- `reorder_and_merge_vpp_layers` raises unless no chunk was left out
    have hall : (virtualMicroBatches mg cfg microBatches).filter (hasMoe cfg layers ppRank) =
        virtualMicroBatches mg cfg microBatches := by
      cases hsize : cfg.virtualPipelineModelParallelSize with
      | none =>
        rw [filter_eq_self]
        intro vb hvb
        have hlt := (hbuilt.of_mem_virtualMicroBatches hmg hvb).1
        have hone : numChunks cfg = 1 := by simp [numChunks, hsize]
        unfold hasMoe
        rwa [show vb.1.getD 0 = 0 by omega]
      | some vpSize =>
        refine filter_sublist.eq_of_length_le ?_
        rw [hlen]
        unfold mergeEntries reorderAndMergeVppLayers at hmerged
        rw [hsize] at hmerged
        unfold virtualMicroBatches
        rw [hsize]
        dsimp only at hmerged
        rw [length_map]
        by_contra hshort
        rw [if_pos (Or.inl (by omega))] at hmerged
        cases hmerged
    rw [hall] at htensors
    rw [recordRank_eq_mapM, htensors, ok_bind, hmerged]

end

end Gates

/-! ## Lemmas: all ranks -/

section Ranks

variable {mg : Megatron} {cfg : TransformerConfig}

theorem allEnter_map (tensors : List LayersTopkIdx) :
    allEnter (tensors.map fun t => .ok (some t)) = some tensors := by
  unfold allEnter
  induction tensors with
  | nil => rfl
  | cons t tensors ih =>
    rw [map_cons, mapM_cons, ih]
    rfl

theorem eq_map_of_allEnter {ranks : List (Except PyErr (Option LayersTopkIdx))}
    {tensors : List LayersTopkIdx} (h : allEnter ranks = some tensors) :
    ranks = tensors.map fun t => .ok (some t) := by
  unfold allEnter at h
  induction ranks generalizing tensors with
  | nil =>
    cases h
    rfl
  | cons rank ranks ih =>
    rw [mapM_cons] at h
    obtain ⟨t, hrank, h⟩ := Option.bind_eq_some_iff.1 h
    obtain ⟨rest, hrest, h⟩ := Option.bind_eq_some_iff.1 h
    cases h
    rw [map_cons, ← ih hrest]
    split at hrank
    · cases hrank
      rfl
    · cases hrank

theorem toOption_eq_some_iff {ε α : Type} {x : Except ε α} {a : α} :
    x.toOption = some a ↔ x = .ok a := by
  cases x with
  | error e => exact ⟨fun h => (by cases h), fun h => (by cases h)⟩
  | ok a' => exact ⟨fun h => congrArg Except.ok (Option.some.inj h), fun h => (by cases h; rfl)⟩

theorem recordPass_map (tensors : List LayersTopkIdx) (microBatches : List (List Nat))
    (useDynamicBsz : Bool) :
    recordPass mg cfg (tensors.map fun t => .ok (some t)) microBatches useDynamicBsz =
      (ppGather mg cfg (cfg.pipelineModelParallelSize - 1) tensors >>=
        restoreRows microBatches useDynamicBsz).toOption := by
  unfold recordPass
  rw [allEnter_map, Option.bind_eq_bind, Option.bind_some]
  cases ppGather mg cfg (cfg.pipelineModelParallelSize - 1) tensors with
  | error e => rfl
  | ok gathered => rfl

theorem recordBatch_eq (merge : Nat → Option Nat → List Nat → Except PyErr LayersTopkIdx)
    (microBatches : List (List Nat)) (useDynamicBsz : Bool) {tensors : List LayersTopkIdx}
    (h : (range cfg.pipelineModelParallelSize).mapM (fun ppRank =>
      recordRank mg cfg (merge ppRank) microBatches) = .ok tensors) :
    recordBatch mg cfg merge microBatches useDynamicBsz =
      ppGather mg cfg (cfg.pipelineModelParallelSize - 1) tensors >>=
        restoreRows microBatches useDynamicBsz := by
  unfold recordBatch
  rw [h, ok_bind]
  refine congrArg _ (funext fun gathered => ?_)
  unfold restoreRows
  cases useDynamicBsz with
  | false => rfl
  | true =>
    cases restoreDynamicBatch gathered.rows microBatches with
    | error e => rfl
    | ok rows => rfl

variable {layers : List Nat} {tpSize cpSize : Nat} {routing : Routing cfg.moeRouterTopk} {b : Batch}
  {states : RouterStates} {microBatches : List (List Nat)} {useDynamicBsz : Bool} {cpRank : Nat}

theorem recordOn_of_recordPass (hbuilt : Built mg cfg layers) (hmg : mg.Lawful) {t : LayersTopkIdx}
    (h : recordPass mg cfg (recordedRanks mg cfg layers tpSize cpSize b cpRank states microBatches)
      microBatches useDynamicBsz = some t) :
    recordOn mg cfg tpSize cpSize cpRank states b microBatches useDynamicBsz = .ok t := by
  obtain ⟨tensors, hall, -⟩ := Option.bind_eq_some_iff.1 h
  have hranks := eq_map_of_allEnter hall
  rw [hranks] at h
  have htensors : (range cfg.pipelineModelParallelSize).mapM (fun ppRank =>
      recordRank mg cfg (mergeOn mg cfg tpSize cpSize b cpRank states ppRank) microBatches) =
        .ok tensors := by
    apply mapM_eq_ok_of_forall₂
    have hforall : Forall₂ (fun ppRank t => recordedRank mg cfg
        (mergeOn mg cfg tpSize cpSize b cpRank states ppRank) ppRank
          (recordActions cfg layers ppRank) microBatches = .ok (some t))
        (range cfg.pipelineModelParallelSize) tensors := by
      have hself := forall₂_eq_eq_eq ▸ hranks
      rw [recordedRanks, forall₂_map_left_iff, forall₂_map_right_iff] at hself
      exact hself
    have hboth := (forall₂_and_left _ _).2
      ⟨fun ppRank hrank => mem_range.1 hrank, hforall⟩
    exact hboth.imp fun ppRank t h => recordRank_of_recordedRank hbuilt hmg h.1 h.2
  rw [recordPass_map, toOption_eq_some_iff] at h
  exact (recordBatch_eq (mergeOn mg cfg tpSize cpSize b cpRank states) _ _ htensors).trans h

section

variable (hbuilt : Built mg cfg layers) (hmg : mg.Lawful) (htp : 1 ≤ tpSize) (hcp : 1 ≤ cpSize)
  (hrec : RecordsAll mg cfg layers tpSize cpSize routing b states microBatches)
  (h : Recordable cfg layers tpSize cpSize b microBatches) (hcpRank : cpRank < cpSize)
include hbuilt hmg htp hcp hrec h hcpRank

theorem recordedRank_eq {ppRank : Nat} (hrank : ppRank < cfg.pipelineModelParallelSize) :
    recordRank mg cfg (mergeOn mg cfg tpSize cpSize b cpRank states ppRank) microBatches =
        .ok (topkOf routing b microBatches.flatten (rankLayers cfg layers ppRank)) ∧
      recordedRank mg cfg (mergeOn mg cfg tpSize cpSize b cpRank states ppRank) ppRank
          (recordActions cfg layers ppRank) microBatches =
        .ok (some (topkOf routing b microBatches.flatten (rankLayers cfg layers ppRank))) := by
  have hstages : ∀ chunk < numChunks cfg,
      stageLayers cfg layers (stageIdx cfg chunk ppRank) ≠ [] := fun chunk hchunk =>
    h.stages _ (hbuilt.stageIdx_lt hchunk hrank)
  have hmerge : recordRank mg cfg (mergeOn mg cfg tpSize cpSize b cpRank states ppRank)
      microBatches = .ok (topkOf routing b microBatches.flatten (rankLayers cfg layers ppRank)) :=
    recordRank_eq hbuilt hmg h.nonempty fun idxs hidxs chunk hchunk =>
      merge_eq hbuilt hmg htp hcp hchunk hrank (hstages chunk hchunk)
        (hrec idxs hidxs chunk hchunk ppRank hrank) (h.loads idxs hidxs) (vpStage_mem cfg hchunk)
        hcpRank
  refine ⟨hmerge, ?_⟩
  rw [recordedRank_of_stages hbuilt hmg hrank hstages, hmerge]
  rfl

theorem recordPass_of_recordOn {t : LayersTopkIdx}
    (ht : recordOn mg cfg tpSize cpSize cpRank states b microBatches useDynamicBsz = .ok t) :
    recordPass mg cfg (recordedRanks mg cfg layers tpSize cpSize b cpRank states microBatches)
      microBatches useDynamicBsz = some t := by
  have hranks : recordedRanks mg cfg layers tpSize cpSize b cpRank states microBatches =
      ((range cfg.pipelineModelParallelSize).map fun ppRank =>
        topkOf routing b microBatches.flatten (rankLayers cfg layers ppRank)).map
          fun t => .ok (some t) := by
    rw [map_map]
    exact map_congr_left fun ppRank hrank =>
      (recordedRank_eq hbuilt hmg htp hcp hrec h hcpRank (mem_range.1 hrank)).2
  have htensors := mapM_eq_ok_map (fun ppRank => recordRank mg cfg
      (mergeOn mg cfg tpSize cpSize b cpRank states ppRank) microBatches) _
    (range cfg.pipelineModelParallelSize) fun ppRank hrank =>
      (recordedRank_eq hbuilt hmg htp hcp hrec h hcpRank (mem_range.1 hrank)).1
  rw [hranks, recordPass_map, toOption_eq_some_iff]
  exact (recordBatch_eq (mergeOn mg cfg tpSize cpSize b cpRank states) _ _ htensors).symm.trans ht

end

end Ranks

/-! ## Lemmas: the ids of the tokens -/

section Ids

variable {cfg : TransformerConfig} {routing : Routing cfg.moeRouterTopk} {b : Batch}

theorem some_mem_labels_iff (b : Batch) (i p : Nat) : some p ∈ b.labels i ↔ p < b.len i := by
  cases hnested : b.isNested with
  | true =>
    unfold Batch.labels
    rw [if_pos hnested, mem_map]
    constructor
    · simp
    · exact fun hp => ⟨p, mem_range.2 hp, rfl⟩
  | false =>
    constructor
    · intro hmem
      unfold Batch.labels at hmem
      rw [hnested] at hmem
      rcases mem_append.1 (maskAssign_subset _ _ _ hmem) with hnone | hsome
      · cases (mem_replicate.1 hnone).2
      · grind
    · intro hp
      have hselect := maskSelect_labels hnested i id
      rw [map_id] at hselect
      apply maskSelect_subset (b.sample i).attentionMask
      rw [hselect]
      exact mem_map_of_mem (mem_range.2 hp)

theorem toNat_blockOf (cut : List Nat) (i p : Nat) :
    (blockOf routing cut i (some p)).map (List.map UInt8.toNat) =
      cut.map fun layer => (routing.ids i layer p).map (· % 256) := by
  unfold blockOf
  rw [map_map]
  apply map_congr_left
  intro layer _
  rw [Function.comp_apply, map_map]
  exact map_congr_left fun e _ => UInt8.toNat_ofNat'

theorem getD_topkOf {i s p : Nat} (cut : List Nat) (hi : i < b.size)
    (hs : (b.labels i)[s]? = some (some p)) :
    ((topkOf routing b (range b.size) cut).rows.getD i []).getD s [] =
      blockOf routing cut i (some p) := by
  unfold topkOf
  rw [getD_map_range hi, getD_eq_getElem?_getD, getElem?_map, hs]
  rfl

/-- The output has the ids iff the layers that are cut out have those of the MoE layers, and these
are small. -/
theorem hasIds_topkOf_iff (cut : List Nat) :
    HasIds cfg routing b (topkOf routing b (range b.size) cut) ↔
      SameIds cfg routing b cut ∧ SmallIds cfg routing b (range b.size) := by
  constructor
  · rintro ⟨hlayerNum, hids⟩
    have hmod : ∀ i < b.size, ∀ p < b.len i,
        (cut.map fun layer => (routing.ids i layer p).map (· % 256)) =
          (moeLayers cfg).map fun layer => routing.ids i layer p := by
      intro i hi p hp
      obtain ⟨s, hs⟩ := mem_iff_getElem?.1 ((some_mem_labels_iff b i p).2 hp)
      rw [← hids i hi s p hs, getD_topkOf cut hi hs, toNat_blockOf]
    have hsmall : SmallIds cfg routing b (range b.size) := by
      intro i hi layer hlayer p hp e he
      have hmem := mem_map_of_mem (f := fun layer => routing.ids i layer p) hlayer
      rw [← hmod i (mem_range.1 hi) p hp] at hmem
      obtain ⟨layer', -, heq⟩ := mem_map.1 hmem
      rw [← heq] at he
      obtain ⟨e', -, rfl⟩ := mem_map.1 he
      exact Nat.mod_lt _ (by decide)
    refine ⟨⟨hlayerNum, fun i hi p hp => ?_⟩, hsmall⟩
    have hnarrow := congrArg (List.map (List.map UInt8.ofNat)) (hmod i hi p hp)
    rw [map_map, map_map] at hnarrow
    refine Eq.trans ?_ hnarrow
    apply map_congr_left
    intro layer _
    rw [Function.comp_apply, map_map]
    exact map_congr_left fun e _ => (UInt8.toNat_inj.1 (by simp))
  · rintro ⟨⟨hlen, hsame⟩, hsmall⟩
    refine ⟨hlen, fun i hi s p hs => ?_⟩
    have hp := (some_mem_labels_iff b i p).1 (mem_of_getElem? hs)
    rw [getD_topkOf cut hi hs, hsame i hi p hp, toNat_blockOf]
    exact map_congr_left fun layer hlayer =>
      map_mod_eq_self_iff.2 (hsmall i (mem_range.2 hi) layer hlayer p hp)

theorem SameIds.topkOf_eq {cut : List Nat} (h : SameIds cfg routing b cut) :
    topkOf routing b (range b.size) cut =
      replayOf routing b (moeLayers cfg) false := by
  have hrows : topkOf routing b (range b.size) cut =
      topkOf routing b (range b.size) (moeLayers cfg) := by
    unfold topkOf
    rw [h.length]
    congr 1
    apply map_congr_left
    intro i hi
    apply map_congr_left
    rintro (_ | p) hlabel
    · unfold blockOf
      rw [h.length]
    · exact h.ids i (mem_range.1 hi) p ((some_mem_labels_iff b i p).1 hlabel)
  rw [hrows]
  cases hnested : b.isNested with
  | true => exact topkOf_nested routing hnested _ false
  | false =>
    unfold replayOf
    rw [hnested]
    rfl

end Ids

/-! ## A pass -/

section Main

variable {mg : Megatron} {cfg : TransformerConfig} {layers : List Nat} {tpSize cpSize : Nat}
  {routing : Routing cfg.moeRouterTopk} {b : Batch} {states : RouterStates}
  {microBatches replays : List (List Nat)} {useDynamicBsz : Bool}

section

variable (hbuilt : Built mg cfg layers) (hmg : mg.Lawful) (htp : 1 ≤ tpSize) (hcp : 1 ≤ cpSize)
  (hrec : RecordsAll mg cfg layers tpSize cpSize routing b states microBatches)
  (hsplits : Splits b microBatches useDynamicBsz)
  (hreplays : ∀ idxs ∈ replays, ∀ i ∈ idxs, i < b.size)
include hbuilt hmg htp hcp hrec hsplits hreplays

theorem PassRight.passReady (h : PassRight mg cfg layers tpSize cpSize routing b states microBatches useDynamicBsz replays) :
    PassReady mg cfg layers tpSize cpSize routing b microBatches replays := by
  obtain ⟨recorded, hpass, hids, hall⟩ := h.output
  have hrecorded : ∀ cpRank < cpSize,
      recordOn mg cfg tpSize cpSize cpRank states b microBatches useDynamicBsz = .ok recorded :=
    fun cpRank hcpRank => recordOn_of_recordPass hbuilt hmg (hpass cpRank hcpRank)
  have hrecord := recordable_of_recordOn hbuilt hmg htp hcp hrec
    fun cpRank hcpRank => ⟨recorded, hrecorded cpRank hcpRank⟩
  have hfirst := hrecorded 0 hcp
  rw [recordOn_cut hbuilt hmg htp hcp hrec hsplits hrecord hcp] at hfirst
  obtain ⟨cut, hcut, rfl⟩ := except_map_eq_ok.1 hfirst
  obtain ⟨hsame, hsmall⟩ := (hasIds_topkOf_iff cut).1 hids
  refine ⟨hrecord, ⟨cut, hcut, hsame⟩, hsmall, fun idxs hidxs => ?_⟩
  have hreplay := hall idxs hidxs
  rw [hsame.topkOf_eq] at hreplay
  exact hreplay.loads hbuilt htp hcp (hreplays idxs hidxs)

theorem PassReady.passRight (h : PassReady mg cfg layers tpSize cpSize routing b microBatches replays) :
    PassRight mg cfg layers tpSize cpSize routing b states microBatches useDynamicBsz replays := by
  obtain ⟨hrecord, ⟨cut, hcut, hsame⟩, hsmall, hloads⟩ := h
  refine ⟨fun cpRank hcpRank => ?_, fun cpRank hcpRank ppRank hrank => ?_, ?_⟩
  · have hone : ∀ rank ∈ recordedRanks mg cfg layers tpSize cpSize b cpRank states microBatches,
        numGathers rank = 1 := by
      intro rank hmem
      obtain ⟨ppRank, hrank, rfl⟩ := mem_map.1 hmem
      rw [(recordedRank_eq hbuilt hmg htp hcp hrec hrecord hcpRank (mem_range.1 hrank)).2]
      rfl
    exact fun rank hmem rank' hmem' => (hone rank hmem).trans (hone rank' hmem').symm
  · have hmerged := (recordedRank_eq hbuilt hmg htp hcp hrec hrecord hcpRank hrank).1
    rw [recordRank_eq_mapM] at hmerged
    obtain ⟨tensors, htensors, -⟩ := bind_eq_ok.1 hmerged
    refine ⟨tensors, ?_, (forall₂_of_mapM_eq_ok htensors).length_eq.symm⟩
    rw [miniLayerTopkIdxList_eq hbuilt hmg hrank, filter_hasMoe hbuilt hmg fun chunk hchunk =>
      hrecord.stages _ (hbuilt.stageIdx_lt hchunk hrank), htensors]
  · refine ⟨topkOf routing b (range b.size) cut, fun cpRank hcpRank => ?_,
      (hasIds_topkOf_iff cut).2 ⟨hsame, hsmall⟩, fun idxs hidxs => ?_⟩
    · refine recordPass_of_recordOn hbuilt hmg htp hcp hrec hrecord hcpRank ?_
      rw [recordOn_cut hbuilt hmg htp hcp hrec hsplits hrecord hcpRank, hcut]
      rfl
    · rw [hsame.topkOf_eq]
      exact (replays_iff hbuilt hmg htp hcp (hreplays idxs hidxs)).2 ⟨hloads idxs hidxs,
        fun i hi => hsmall i (mem_range.2 (hreplays idxs hidxs i hi))⟩

end

/-- A recording pass is right iff it is ready: every stage has an MoE layer, the last rank cuts the
layers where the ranks have them, and the ids are small. -/
theorem passRight_iff (hbuilt : Built mg cfg layers) (hmg : mg.Lawful) (htp : 1 ≤ tpSize)
    (hcp : 1 ≤ cpSize) (hrec : RecordsAll mg cfg layers tpSize cpSize routing b states microBatches)
    (hsplits : Splits b microBatches useDynamicBsz)
    (hreplays : ∀ idxs ∈ replays, ∀ i ∈ idxs, i < b.size) :
    PassRight mg cfg layers tpSize cpSize routing b states microBatches useDynamicBsz replays ↔
      PassReady mg cfg layers tpSize cpSize routing b microBatches replays :=
  ⟨PassRight.passReady hbuilt hmg htp hcp hrec hsplits hreplays,
    PassReady.passRight hbuilt hmg htp hcp hrec hsplits hreplays⟩

end Main

/-- A pass on one rank with one layer. -/
theorem passRight_three :
    PassRight oneRank oneLayer [1] 1 1 (toExpert 3) oneToken (recordedExpert 3) [[0]] false
      [[0]] := by
  refine (passRight_iff oneLayer_built oneRank_lawful (by decide) (by decide)
    (recordedExpert_recordsAll 3) oneToken_splits (by decide)).2 ?_
  have hidxs : ∀ idxs ∈ [[0]], idxs = [0] := fun idxs h => mem_singleton.1 h
  refine ⟨⟨by decide, fun idxs h => ?_, fun stage hstage => ?_, fun h => absurd h (by decide)⟩,
    ⟨[0], by decide, by decide, fun i _ p _ => rfl⟩, fun i _ layer _ p _ e he => ?_,
    fun idxs h => ?_⟩
  · rw [hidxs idxs h]
    exact ⟨by decide, fun _ => ⟨by decide, fun h => absurd h (by decide)⟩⟩
  · obtain rfl : stage = 0 := Nat.lt_one_iff.1 hstage
    decide
  · rw [mem_singleton.1 he]
    decide
  · rw [hidxs idxs h]
    exact ⟨by decide, fun h => absurd h (by decide), fun h => absurd h (by decide)⟩

/-! ## A dense layer on the first of two ranks -/

section DenseFirst

/-- Megatron on two ranks, a layer on each. -/
def twoRanks : Megatron :=
  { oneRank with getTransformerLayerOffset := fun current _ ppRank => ppRank.getD current }

theorem twoRanks_lawful : twoRanks.Lawful :=
  ⟨oneRank_lawful.scatter, oneRank_lawful.gather, oneRank_lawful.schedule, oneRank_lawful.chunk_lt⟩

def denseFirst : TransformerConfig :=
  { oneLayer with numLayers := 2, pipelineModelParallelSize := 2, moeLayerFreq := .list [0, 1] }

theorem denseFirst_built : Built twoRanks denseFirst [1, 1] where
  ppSize := by decide
  chunks := by decide
  length := by decide
  total := by decide
  num := by
    intro chunk hchunk ppRank hrank vpRank hvp
    obtain rfl : chunk = 0 := Nat.lt_one_iff.1 hchunk
    have hvp' : vpRank = none ∨ vpRank = some 0 := by
      rcases mem_cons.1 hvp with hnone | hsome
      · exact .inl hnone
      · exact .inr (mem_singleton.1 hsome)
    match ppRank, hrank with
    | 0, _ => rcases hvp' with rfl | rfl <;> rfl
    | 1, _ => rcases hvp' with rfl | rfl <;> rfl
  offset := by
    intro chunk hchunk ppRank hrank vpRank hvp
    obtain rfl : chunk = 0 := Nat.lt_one_iff.1 hchunk
    match ppRank, hrank with
    | 0, _ => rfl
    | 1, _ => rfl
  isMoe layer hlayer := by
    match layer, hlayer with
    | 0, _ => exact ⟨_, rfl⟩
    | 1, _ => exact ⟨_, rfl⟩
  groupSize := by decide

/-- The rank of the dense layer has no router. -/
def secondRecorded : RouterStates := fun _ _ ppRank _ _ =>
  if ppRank = 0 then [] else [⟨none, some [[3]], []⟩]

theorem secondRecorded_recordsAll :
    RecordsAll twoRanks denseFirst [1, 1] 1 1 (toExpert 3) oneToken secondRecorded [[0]] := by
  intro idxs hidxs chunk hchunk ppRank hpp cpRank hcp tpRank htp
  rw [mem_singleton] at hidxs
  subst hidxs
  obtain rfl : chunk = 0 := Nat.lt_one_iff.1 hchunk
  obtain rfl : cpRank = 0 := Nat.lt_one_iff.1 hcp
  obtain rfl : tpRank = 0 := Nat.lt_one_iff.1 htp
  have hpos : slotPositions 1 1 0 (useFp8Padding denseFirst) oneToken [0] = [(0, 0)] := by decide
  match ppRank, hpp with
  | 0, hpp =>
    refine ⟨rfl, fun vpRank hvp routers hrouters => ?_⟩
    cases hrouters
    exact .nil
  | 1, hpp =>
    refine ⟨rfl, fun vpRank hvp routers hrouters => ?_⟩
    cases hrouters
    refine .cons ?_ .nil
    rw [slotsOf_eq_map (by decide) (by decide) (by decide) (by decide), hpos]
    simp [twoRanks, oneRank, toExpert, getSlice]

/-- The second rank waits in `pp_gather` for the first. -/
theorem denseFirst_not_passRight :
    RecordsAll twoRanks denseFirst [1, 1] 1 1 (toExpert 3) oneToken secondRecorded [[0]] ∧
      (recordedRanks twoRanks denseFirst [1, 1] 1 1 oneToken 0 secondRecorded [[0]]).map
        numGathers = [0, 1] ∧
      ¬PassRight twoRanks denseFirst [1, 1] 1 1 (toExpert 3) oneToken secondRecorded [[0]] false
        [] := by
  refine ⟨secondRecorded_recordsAll, by decide, fun h => ?_⟩
  have hready := h.passReady denseFirst_built twoRanks_lawful (by decide) (by decide)
    secondRecorded_recordsAll oneToken_splits (by simp)
  exact hready.record.stages 0 (by decide) (by decide)

end DenseFirst

end Verl.RouterReplay
