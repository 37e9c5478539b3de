import Verl.Models.GptModel

/-! # Loading a HuggingFace checkpoint (`models/mcore/loader.py`)

The source rank cuts a full weight into one chunk for each tensor-parallel rank and broadcasts
them; the ranks of the stage that has the layer keep the chunk of theirs.  `q`, `k` and `v` are
interleaved per query group first, gate and up per rank.

    rank 0        q0 k0 v0 | q1 k1 v1        gate0 up0
    rank 1        q2 k2 v2 | q3 k3 v3        gate1 up1

* `exists_scatter`: a chunk for each rank, every other parameter as before.
* `exists_interleaveCutHeads`, `exists_interleaveGateUp`: what the new weights are. -/

namespace Verl.Gpt

open List

variable {α : Type} (cfg : Config) (mpu : ParallelState)

/-! ## Broadcasts -/

/-- Every rank gets the chunk of its tensor-parallel rank; those of the stage `dstPpRank` keep it
in the parameter `place`. -/
def scatter (tensorText : Nat → String) (dstPpRank : Nat) (place : Place)
    (tensorChunk : List (Tensor2 α)) (ranks : Ranks α) : Except PyErr (Ranks α) := do
  let firstChunk ← pyGetItem tensorChunk 0
  let (chunkRows, chunkCols) := firstChunk.shape
  (List.range mpu.tpSize).forM fun tpRank => do
    let tensor ← param (ranks dstPpRank tpRank) place
    let (rows, cols) := tensor.shape
    pyAssert (tensor.shape == firstChunk.shape)
      (tensorText tpRank ++
        s!" shape torch.Size([{rows}, {cols}]) != torch.Size([{chunkRows}, {chunkCols}])")
  -- `sync_tensor`, of the shape of the first chunk, for each `i`
  let synced ← (List.range mpu.tpSize).mapM fun i => do
    firstChunk.copy (← pyGetItem tensorChunk i)
  return fun ppRank tpRank =>
    match if ppRank = dstPpRank then synced[tpRank]? else none with
    | some t => setParam (ranks ppRank tpRank) t place
    | none => ranks ppRank tpRank

/-- The start of the message about a tensor of the wrong shape. -/
def rankText (dstPpRank : Nat) (name : String) (tpRank : Nat) : String :=
  s!"rank #{mpu.globalRank tpRank dstPpRank} tensor {name}"

/-- `_broadcast_tp_shard_tensor`. -/
def broadcastTpShardTensor (stateDict : Dict (Tensor2 α)) (dstPpRank : Nat) (place : Place)
    (name : String) (chunkDim : Fin 2) (ranks : Ranks α) : Except PyErr (Ranks α) :=
  match stateDict.get? name with
  | none => .ok ranks
  | some fullWeight => do
    let tensorChunk ← fullWeight.chunkAlong chunkDim mpu.tpSize
    scatter mpu (rankText mpu dstPpRank name) dstPpRank place tensorChunk ranks

/-- `_broadcast_tp_shard_tensor_vocab`. -/
def broadcastTpShardTensorVocab (stateDict : Dict (Tensor2 α)) (dstPpRank : Nat) (place : Place)
    (name : String) (ranks : Ranks α) : Except PyErr (Ranks α) :=
  broadcastTpShardTensor mpu stateDict dstPpRank place name 0 ranks

/-- `state_dict[name]`. -/
def getWeight (stateDict : Dict (Tensor2 α)) (name : String) : Except PyErr (Tensor2 α) :=
  match stateDict.get? name with
  | some t => .ok t
  | none => .error (.keyError name)

/-! ## Gate and up -/

def gateUpTp (gateWeight upWeight : Tensor2 α) (intermediateSizeTp i : Nat) :
    Except PyErr (Tensor2 α) :=
  Tensor2.cat [gateWeight.slice (i * intermediateSizeTp) intermediateSizeTp,
    upWeight.slice (i * intermediateSizeTp) intermediateSizeTp]

/-- The rows of rank `i`. -/
def copyGateUp (gateWeight upWeight newGateUpWeight : Tensor2 α) (i : Nat) :
    Except PyErr (Tensor2 α) := do
  let intermediateSizeTp ← floorDiv cfg.intermediateSize mpu.tpSize
  let gateUp ← gateUpTp gateWeight upWeight intermediateSizeTp i
  newGateUpWeight.copySlice (intermediateSizeTp * 2 * i) (intermediateSizeTp * 2) gateUp

/-- `new_gate_up_weight`; `a` is what the memory of `torch.empty` holds. -/
def interleaveGateUp (a : α) (gateWeight upWeight : Tensor2 α) : Except PyErr (Tensor2 α) :=
  (List.range mpu.tpSize).foldlM (copyGateUp cfg mpu gateWeight upWeight)
    (Tensor2.full (cfg.intermediateSize * 2) cfg.hiddenSize a)

/-- In this message the rank is compared with the source rank. -/
def gateUpText (dstPpRank : Nat) (gateName upName : String) (tpRank : Nat) : String :=
  let isSrcRank := if mpu.globalRank tpRank dstPpRank = mpu.globalRank 0 0 then "True" else "False"
  s!"rank #{isSrcRank} tensor ('{gateName}', '{upName}')"

/-- `_broadcast_tp_shard_tensor_gate_up`. -/
def broadcastTpShardTensorGateUp (a : α) (stateDict : Dict (Tensor2 α)) (dstPpRank : Nat)
    (place : Place) (gateName upName : String) (ranks : Ranks α) : Except PyErr (Ranks α) := do
  let gateWeight ← getWeight stateDict gateName
  let upWeight ← getWeight stateDict upName
  let newGateUpWeight ← interleaveGateUp cfg mpu a gateWeight upWeight
  let tensorChunk ← newGateUpWeight.chunk mpu.tpSize
  scatter mpu (gateUpText mpu dstPpRank gateName upName) dstPpRank place tensorChunk ranks

/-! ## Queries, keys and values -/

/-- `new_weight_qkv_this_tp[j * total_size_per_head : ..].copy_(torch.cat(..))`. -/
def copyHead (qPartPerHead kPartPerHead vPartPerHead : List (Tensor2 α)) (totalSizePerHead : Nat)
    (newWeightQkvThisTp : Tensor2 α) (j : Nat) : Except PyErr (Tensor2 α) := do
  let q ← pyGetItem qPartPerHead j
  let k ← pyGetItem kPartPerHead j
  let v ← pyGetItem vPartPerHead j
  let qkv ← Tensor2.cat [q, k, v]
  newWeightQkvThisTp.copySlice (j * totalSizePerHead) totalSizePerHead qkv

/-- The rows of a rank: the parts of each head (or group of heads) behind each other. -/
def interleaveHeads (qPart kPart vPart : Tensor2 α) (totalSize heads : Nat)
    (newWeightQkvThisTp : Tensor2 α) : Except PyErr (Tensor2 α) := do
  let qPartPerHead ← qPart.chunk heads
  let kPartPerHead ← kPart.chunk heads
  let vPartPerHead ← vPart.chunk heads
  let totalSizePerHead ← floorDiv totalSize heads
  (List.range heads).foldlM (copyHead qPartPerHead kPartPerHead vPartPerHead totalSizePerHead)
    newWeightQkvThisTp

/-- The rows of rank `i`, where the key and value heads are cut over the ranks. -/
def copyCutHeads (q k v : Tensor2 α) (qSizeTp kvSizeTp : Nat) (newWeightQkv : Tensor2 α)
    (i : Nat) : Except PyErr (Tensor2 α) := do
  let totalSize := qSizeTp + 2 * kvSizeTp
  let numQueryGroupsPerPartition ← floorDiv cfg.numQueryGroups mpu.tpSize
  let thisTp ← interleaveHeads (q.slice (i * qSizeTp) qSizeTp) (k.slice (i * kvSizeTp) kvSizeTp)
    (v.slice (i * kvSizeTp) kvSizeTp) totalSize numQueryGroupsPerPartition
    (newWeightQkv.slice (i * totalSize) totalSize)
  -- the slice is a view of `new_weight_qkv`
  newWeightQkv.copySlice (i * totalSize) totalSize thisTp

/-- The rows of rank `i`, where several ranks have the same key and value head. -/
def copySharedHeads (q k v : Tensor2 α) (hiddenSizePerHead qSizeTp : Nat)
    (newWeightQkv : Tensor2 α) (i : Nat) : Except PyErr (Tensor2 α) := do
  let totalSize := qSizeTp + 2 * hiddenSizePerHead
  let head ← floorDiv (i * cfg.numKeyValueHeads) mpu.tpSize
  let startIdx := head * hiddenSizePerHead
  let thisTp ← interleaveHeads (q.slice (i * qSizeTp) qSizeTp)
    (k.slice startIdx hiddenSizePerHead) (v.slice startIdx hiddenSizePerHead) totalSize
    cfg.numAttentionHeads (newWeightQkv.slice (i * totalSize) totalSize)
  newWeightQkv.copySlice (i * totalSize) totalSize thisTp

def interleaveCutHeads (a : α) (q k v : Tensor2 α) (hiddenSizePerHead : Nat) :
    Except PyErr (Tensor2 α) := do
  let qSizeTp ← floorDiv (hiddenSizePerHead * cfg.numAttentionHeads) mpu.tpSize
  let kvSizeTp ← floorDiv (hiddenSizePerHead * cfg.numKeyValueHeads) mpu.tpSize
  (List.range mpu.tpSize).foldlM (copyCutHeads cfg mpu q k v qSizeTp kvSizeTp)
    (Tensor2.full ((qSizeTp + 2 * kvSizeTp) * mpu.tpSize) cfg.hiddenSize a)

def interleaveSharedHeads (a : α) (q k v : Tensor2 α) (hiddenSizePerHead : Nat) :
    Except PyErr (Tensor2 α) := do
  let qSizeTp ← floorDiv (hiddenSizePerHead * cfg.numAttentionHeads) mpu.tpSize
  (List.range mpu.tpSize).foldlM (copySharedHeads cfg mpu q k v hiddenSizePerHead qSizeTp)
    (Tensor2.full ((qSizeTp + 2 * hiddenSizePerHead) * mpu.tpSize) cfg.hiddenSize a)

/-- `new_weight_qkv`. -/
def interleaveQkv (a : α) (q k v : Tensor2 α) : Except PyErr (Tensor2 α) := do
  let hiddenSizePerHead ← hiddenSizePerHead cfg
  if mpu.tpSize ≤ cfg.numKeyValueHeads then interleaveCutHeads cfg mpu a q k v hiddenSizePerHead
  else interleaveSharedHeads cfg mpu a q k v hiddenSizePerHead

/-- `_broadcast_tp_shard_tensor_qkv`. -/
def broadcastTpShardTensorQkv (a : α) (stateDict : Dict (Tensor2 α)) (dstPpRank : Nat)
    (place : Place) (qName kName vName : String) (ranks : Ranks α) : Except PyErr (Ranks α) := do
  pyAssert ((stateDict.get? qName).isSome && (stateDict.get? kName).isSome &&
    (stateDict.get? vName).isSome) ""
  let q ← getWeight stateDict qName
  let k ← getWeight stateDict kName
  let v ← getWeight stateDict vName
  let newWeightQkv ← interleaveQkv cfg mpu a q k v
  let tensorChunk ← newWeightQkv.chunk mpu.tpSize
  scatter mpu (rankText mpu dstPpRank qName) dstPpRank place tensorChunk ranks

/-! ## The load -/

def loadLayer (a : α) (stateDict : Dict (Tensor2 α)) (layerMap : KVMap Nat (Nat × Nat × Nat))
    (ranks : Ranks α) (layer : Nat) : Except PyErr (Ranks α) := do
  let (dstPpRank, dstVirtualPpRank, dstLayerIdx) ← getLayerPlace layerMap layer
  let syncLayer := Place.layer dstVirtualPpRank dstLayerIdx
  let ranks ← broadcastTpShardTensorQkv cfg mpu a stateDict dstPpRank (syncLayer .linearQkv)
    (Weight.qProj.name layer) (Weight.kProj.name layer) (Weight.vProj.name layer) ranks
  let ranks ← broadcastTpShardTensor mpu stateDict dstPpRank (syncLayer .linearProj)
    (Weight.oProj.name layer) 1 ranks
  let ranks ← broadcastTpShardTensorGateUp cfg mpu a stateDict dstPpRank (syncLayer .linearFc1)
    (Weight.gateProj.name layer) (Weight.upProj.name layer) ranks
  broadcastTpShardTensor mpu stateDict dstPpRank (syncLayer .linearFc2)
    (Weight.downProj.name layer) 1 ranks

/-- `load_state_dict_to_megatron_gptmodel`. -/
def loadStateDict (a : α) (stateDict : Dict (Tensor2 α)) (ranks : Ranks α) :
    Except PyErr (Ranks α) := do
  checkRanks cfg mpu (fun _ => "") ranks
  let ranks ← broadcastTpShardTensorVocab mpu stateDict 0 .wordEmbeddings embedTokensName ranks
  let layerMap ← calcLayerMap cfg mpu
  (List.range cfg.numHiddenLayers).foldlM (loadLayer cfg mpu a stateDict layerMap) ranks

/-! ## What is broadcast -/

variable {cfg mpu}

/-- The ranks of the stage `dstPpRank` have got their piece in `place`; nothing else changed. -/
structure Scattered (mpu : ParallelState) (dstPpRank : Nat) (place : Place)
    (piece : Nat → Tensor2 α) (ranks ranks' : Ranks α) : Prop where
  layerCounts_eq : ∀ ppRank tpRank,
    layerCounts (ranks' ppRank tpRank) = layerCounts (ranks ppRank tpRank)
  param_eq : ∀ ppRank, ∀ tpRank < mpu.tpSize, ∀ place',
    param (ranks' ppRank tpRank) place' =
      if ppRank = dstPpRank ∧ place' = place then .ok (piece tpRank)
      else param (ranks ppRank tpRank) place'

theorem exists_scatter (tensorText : Nat → String) {dstPpRank : Nat} {place : Place}
    {ranks : Ranks α} {piece : Nat → Tensor2 α} {shape : Nat × Nat} (htp : 0 < mpu.tpSize)
    (hshape : ∀ i < mpu.tpSize, (piece i).shape = shape)
    (hparam : ∀ tpRank < mpu.tpSize,
      ∃ t, param (ranks dstPpRank tpRank) place = .ok t ∧ t.shape = shape) :
    ∃ ranks', scatter mpu tensorText dstPpRank place ((range mpu.tpSize).map piece) ranks =
        .ok ranks' ∧ Scattered mpu dstPpRank place piece ranks ranks' := by
  have hget : ∀ i < mpu.tpSize,
      pyGetItem ((range mpu.tpSize).map piece) i = .ok (piece i) := by
    intro i hi
    rw [pyGetItem_eq_ok, getElem?_map, getElem?_range hi]
    rfl
  have hsynced : ((range mpu.tpSize).mapM fun i => do
      (piece 0).copy (← pyGetItem ((range mpu.tpSize).map piece) i)) =
      .ok ((range mpu.tpSize).map piece) := by
    apply mapM_eq_ok_map
    intro i hi
    rw [hget i (mem_range.1 hi)]
    exact Tensor2.copy_eq ((hshape i (mem_range.1 hi)).trans (hshape 0 htp).symm)
  unfold scatter
  rw [hget 0 htp, ok_bind]
  dsimp only
  rw [forM_eq_ok _ _ fun tpRank hmem => by
    obtain ⟨t, ht, htshape⟩ := hparam tpRank (mem_range.1 hmem)
    rw [ht, ok_bind]
    rw [htshape, hshape 0 htp, beq_self_eq_true, pyAssert_true], hsynced]
  refine ⟨_, rfl, ?_, ?_⟩
  · intro ppRank tpRank
    split
    · exact layerCounts_setParam _ _ _
    · rfl
  · intro ppRank tpRank htpRank place'
    by_cases hpp : ppRank = dstPpRank
    · subst hpp
      obtain ⟨old, hold, -⟩ := hparam tpRank htpRank
      rw [if_pos rfl, getElem?_map, getElem?_range htpRank]
      show param (setParam _ (piece tpRank) place) place' = _
      rw [param_setParam hold]
      by_cases hplace : place' = place
      · rw [if_pos hplace, if_pos ⟨rfl, hplace⟩]
      · rw [if_neg hplace, if_neg fun h => hplace h.2]
    · rw [if_neg hpp, if_neg fun h => hpp h.1]

/-! ## What the new weights are -/

theorem exists_interleaveGateUp (a : α) {gate up : Tensor2 α} {s : Nat} (htp : 0 < mpu.tpSize)
    (hs : cfg.intermediateSize = mpu.tpSize * s)
    (hgate : gate.shape = (cfg.intermediateSize, cfg.hiddenSize))
    (hup : up.shape = (cfg.intermediateSize, cfg.hiddenSize)) :
    ∃ t, interleaveGateUp cfg mpu a gate up = .ok t ∧ t.cols = cfg.hiddenSize ∧
      t.rows = interleavePairs mpu.tpSize s gate.rows up.rows := by
  obtain ⟨hgateLen, hgateCols⟩ := Tensor2.shape_eq_iff.1 hgate
  obtain ⟨hupLen, hupCols⟩ := Tensor2.shape_eq_iff.1 hup
  have hcat : ∀ i, ∃ t, gateUpTp gate up s i = .ok t ∧ t.cols = cfg.hiddenSize ∧
      t.rows = pairRows s gate.rows up.rows i :=
    fun i => Tensor2.exists_cat_pair hgateCols hupCols
  choose piece hpiece hcols hrows using hcat
  have hlen : ∀ i < mpu.tpSize, (piece i).rows.length = s * 2 := by
    intro i hi
    rw [hrows, length_pairRows (hgateLen.trans hs) (hupLen.trans hs) hi, Nat.mul_two]
  have hfull : (Tensor2.full (cfg.intermediateSize * 2) cfg.hiddenSize a).rows.length =
      mpu.tpSize * (s * 2) := by
    show (replicate _ _).length = _
    rw [length_replicate, hs, Nat.mul_assoc]
  obtain ⟨t, hfold, htcols, htrows⟩ := Tensor2.exists_foldlM_copySlice mpu.tpSize (s * 2) _
    (copyGateUp cfg mpu gate up) piece hfull (fun i hi => ⟨hlen i hi, hcols i⟩) fun i _ t' _ _ => by
      unfold copyGateUp
      rw [floorDiv_of_pos _ htp, hs, Nat.mul_div_cancel_left _ htp, ok_bind, hpiece,
        ok_bind, Nat.mul_comm _ i]
  refine ⟨t, hfold, htcols, ?_⟩
  rw [htrows]
  congr 1
  exact map_congr_left fun i _ => hrows i

theorem exists_interleaveHeads {q k v thisTp : Tensor2 α} {n sq sk : Nat} (hn : 0 < n)
    (hq : q.shape = (n * sq, thisTp.cols)) (hk : k.shape = (n * sk, thisTp.cols))
    (hv : v.shape = (n * sk, thisTp.cols)) (hthis : thisTp.rows.length = n * (sq + 2 * sk)) :
    ∃ t, interleaveHeads q k v (n * (sq + 2 * sk)) n thisTp = .ok t ∧ t.cols = thisTp.cols ∧
      t.rows = interleave n sq sk q.rows k.rows v.rows := by
  obtain ⟨hqLen, hqCols⟩ := Tensor2.shape_eq_iff.1 hq
  obtain ⟨hkLen, hkCols⟩ := Tensor2.shape_eq_iff.1 hk
  obtain ⟨hvLen, hvCols⟩ := Tensor2.shape_eq_iff.1 hv
  have hcat : ∀ j, ∃ t, Tensor2.cat [q.slice (j * sq) sq, k.slice (j * sk) sk,
      v.slice (j * sk) sk] = .ok t ∧ t.cols = thisTp.cols ∧
        t.rows = groupRows sq sk q.rows k.rows v.rows j :=
    fun j => Tensor2.exists_cat_triple hqCols hkCols hvCols
  choose piece hpiece hcols hrows using hcat
  have hget : ∀ (t : Tensor2 α) (s : Nat), ∀ j < n,
      pyGetItem ((range n).map fun i => t.slice (i * s) s) j = .ok (t.slice (j * s) s) := by
    intro t s j hj
    rw [pyGetItem_eq_ok, getElem?_map, getElem?_range hj]
    rfl
  obtain ⟨t, hfold, htcols, htrows⟩ := Tensor2.exists_foldlM_copySlice n (sq + 2 * sk) thisTp
    (copyHead ((range n).map fun i => q.slice (i * sq) sq)
      ((range n).map fun i => k.slice (i * sk) sk)
      ((range n).map fun i => v.slice (i * sk) sk) (sq + 2 * sk))
    piece hthis (fun j hj => ⟨by rw [hrows, length_groupRows hqLen hkLen hvLen hj], hcols j⟩)
    fun j hj t' _ _ => by
      simp [copyHead, hget q sq j hj, ok_bind, hget k sk j hj, hget v sk j hj, hpiece]
  refine ⟨t, ?_, htcols, ?_⟩
  · unfold interleaveHeads
    rw [Tensor2.chunk_mul hn hqLen, ok_bind, Tensor2.chunk_mul hn hkLen, ok_bind,
      Tensor2.chunk_mul hn hvLen, ok_bind, floorDiv_of_pos _ hn,
      Nat.mul_div_cancel_left _ hn, ok_bind, hfold]
  · rw [htrows]
    unfold interleave
    congr 1
    exact map_congr_left fun j _ => hrows j

theorem exists_interleaveCutHeads (a : α) {hd g sq : Nat} (h : CutSizes cfg mpu hd g sq)
    {q k v : Tensor2 α} (hq : q.shape = (hd * cfg.numAttentionHeads, cfg.hiddenSize))
    (hk : k.shape = (hd * cfg.numKeyValueHeads, cfg.hiddenSize))
    (hv : v.shape = (hd * cfg.numKeyValueHeads, cfg.hiddenSize)) :
    ∃ t, interleaveCutHeads cfg mpu a q k v hd = .ok t ∧ t.cols = cfg.hiddenSize ∧
      t.rows = interleave (mpu.tpSize * g) sq hd q.rows k.rows v.rows := by
  rw [h.queries_eq] at hq
  rw [h.keys_eq] at hk hv
  -- the rows of a rank do not depend on what the memory holds
  have hrank : ∀ i < mpu.tpSize, ∀ t : Tensor2 α, t.cols = cfg.hiddenSize →
      t.rows.length = g * (sq + 2 * hd) →
      ∃ r, interleaveHeads (q.slice (i * (g * sq)) (g * sq)) (k.slice (i * (g * hd)) (g * hd))
          (v.slice (i * (g * hd)) (g * hd)) (g * (sq + 2 * hd)) g t = .ok r ∧
        r.cols = cfg.hiddenSize ∧
        r.rows = interleave g sq hd (getSlice q.rows (i * (g * sq)) (g * sq))
          (getSlice k.rows (i * (g * hd)) (g * hd)) (getSlice v.rows (i * (g * hd)) (g * hd)) := by
    intro i hi t hcols hlen
    obtain ⟨r, hok, hrcols, hrows⟩ := exists_interleaveHeads h.groups_pos
      (by rw [hcols]; exact Tensor2.shape_slice hq hi) (by rw [hcols]; exact Tensor2.shape_slice hk hi)
      (by rw [hcols]; exact Tensor2.shape_slice hv hi) hlen
    exact ⟨r, hok, hrcols.trans hcols, hrows⟩
  have hinhabited : Nonempty (Tensor2 α) := ⟨q⟩
  choose! piece hpiece hcols hrows using fun i hi => hrank i hi
    (Tensor2.full (g * (sq + 2 * hd)) cfg.hiddenSize a) rfl (length_replicate ..)
  have hlen : ∀ i < mpu.tpSize, (piece i).rows.length = g * (sq + 2 * hd) := by
    intro i hi
    rw [hrows i hi]
    exact length_interleave (Tensor2.shape_eq_iff.1 (Tensor2.shape_slice hq hi)).1
      (Tensor2.shape_eq_iff.1 (Tensor2.shape_slice hk hi)).1
      (Tensor2.shape_eq_iff.1 (Tensor2.shape_slice hv hi)).1
  have htotal : g * sq + 2 * (g * hd) = g * (sq + 2 * hd) := by ring
  have hfull : (Tensor2.full ((g * sq + 2 * (g * hd)) * mpu.tpSize) cfg.hiddenSize a).rows.length =
      mpu.tpSize * (g * (sq + 2 * hd)) := by
    show (replicate _ _).length = _
    rw [length_replicate, htotal, Nat.mul_comm]
  obtain ⟨t, hfold, htcols, htrows⟩ := Tensor2.exists_foldlM_copySlice mpu.tpSize
    (g * (sq + 2 * hd)) _ (copyCutHeads cfg mpu q k v (g * sq) (g * hd)) piece hfull
    (fun i hi => ⟨hlen i hi, hcols i hi⟩) fun i hi t' hlen' hcols' => by
      have hle := mul_add_le hi (g * (sq + 2 * hd))
      obtain ⟨r, hok, hrcols, hrrows⟩ := hrank i hi
        (t'.slice (i * (g * (sq + 2 * hd))) (g * (sq + 2 * hd))) hcols'
        (length_getSlice (by omega))
      have hr : r = piece i := Tensor2.ext (hrcols.trans (hcols i hi).symm)
        (hrrows.trans (hrows i hi).symm)
      unfold copyCutHeads
      rw [floorDiv_of_pos _ h.tp_pos, h.groups_eq, ok_bind, htotal, hok, ok_bind, hr]
  refine ⟨t, ?_, htcols, ?_⟩
  · unfold interleaveCutHeads
    rw [floorDiv_of_pos _ h.tp_pos, floorDiv_of_pos _ h.tp_pos, h.queries_eq, h.keys_eq,
      Nat.mul_div_cancel_left _ h.tp_pos, Nat.mul_div_cancel_left _ h.tp_pos, ok_bind,
      ok_bind, hfold]
  · rw [htrows, interleave_mul]
    congr 1
    exact map_congr_left fun i hi => hrows i (mem_range.1 hi)

/-! ## The run -/

/-- The weight of a layer in Megatron's layout, from those of the state dict. -/
def Fused (cfg : Config) (mpu : ParallelState) (stateDict : Dict (Tensor2 α)) (layer : Nat) :
    Param → Tensor2 α → Prop
  | .linearQkv, t => ∃ q k v, stateDict.get? (Weight.qProj.name layer) = some q ∧
      stateDict.get? (Weight.kProj.name layer) = some k ∧
      stateDict.get? (Weight.vProj.name layer) = some v ∧ t.cols = cfg.hiddenSize ∧
      t.rows = interleave cfg.numKeyValueHeads (groupQueries cfg) (headSize cfg) q.rows k.rows
        v.rows
  | .linearProj, t => stateDict.get? (Weight.oProj.name layer) = some t
  | .linearFc1, t => ∃ gate up, stateDict.get? (Weight.gateProj.name layer) = some gate ∧
      stateDict.get? (Weight.upProj.name layer) = some up ∧ t.cols = cfg.hiddenSize ∧
      t.rows = interleavePairs mpu.tpSize (cfg.intermediateSize / mpu.tpSize) gate.rows up.rows
  | .linearFc2, t => stateDict.get? (Weight.downProj.name layer) = some t

/-- Each rank of a stage has its piece of `t` in `place`. -/
def Holds (cfg : Config) (mpu : ParallelState) (ranks : Ranks α) (ppRank : Nat) (place : Place)
    (p : Param) (t : Tensor2 α) : Prop :=
  ∀ tpRank < mpu.tpSize,
    param (ranks ppRank tpRank) place = .ok (t.pieceAlong (p.size cfg mpu) p.dim tpRank)

def layerParam (cfg : Config) (mpu : ParallelState) (layer : Nat) (p : Param) : Place :=
  .layer (layerPlace cfg mpu layer).2.1 (layerPlace cfg mpu layer).2.2 p

def LayerLoaded (cfg : Config) (mpu : ParallelState) (stateDict : Dict (Tensor2 α))
    (ranks : Ranks α) (layer : Nat) : Prop :=
  ∀ p : Param, ∃ t, Fused cfg mpu stateDict layer p t ∧
    Holds cfg mpu ranks (layerPlace cfg mpu layer).1 (layerParam cfg mpu layer p) p t

def EmbeddingLoaded (cfg : Config) (mpu : ParallelState) (stateDict : Dict (Tensor2 α))
    (ranks : Ranks α) : Prop :=
  ∃ t, stateDict.get? embedTokensName = some t ∧ ∀ tpRank < mpu.tpSize,
    param (ranks 0 tpRank) .wordEmbeddings =
      .ok (t.pieceAlong (cfg.vocabSize / mpu.tpSize) 0 tpRank)

section Run

variable (hdiv : Divides cfg mpu) (hle : mpu.tpSize ≤ cfg.numKeyValueHeads)
  {stateDict : Dict (Tensor2 α)} (hweights : FullWeights cfg stateDict)
include hdiv hle hweights

variable {p' p : Param} {place : Place} {t : Tensor2 α} {ranks' ranks : Ranks α}
  {piece : Nat → Tensor2 α} {dstPpRank layer : Nat}

theorem Fused.shape_eq (hlayer : layer < cfg.numHiddenLayers)
    (h : Fused cfg mpu stateDict layer p t) :
    t.shape = (match p.dim with
      | 0 => (mpu.tpSize * p.size cfg mpu, cfg.hiddenSize)
      | 1 => (cfg.hiddenSize, mpu.tpSize * p.size cfg mpu)) := by
  have hheads : mpu.tpSize * (headSize cfg * cfg.numAttentionHeads / mpu.tpSize) =
      headSize cfg * cfg.numAttentionHeads :=
    Nat.mul_div_cancel' (Nat.dvd_mul_left_of_dvd hdiv.tpSize_dvd_heads _)
  have hkvHeads : mpu.tpSize * (headSize cfg * cfg.numKeyValueHeads / mpu.tpSize) =
      headSize cfg * cfg.numKeyValueHeads :=
    Nat.mul_div_cancel' (Nat.dvd_mul_left_of_dvd (hdiv.tpSize_dvd_kvHeads hle) _)
  have hinter : mpu.tpSize * (cfg.intermediateSize / mpu.tpSize) = cfg.intermediateSize :=
    Nat.mul_div_cancel' hdiv.tpSize_dvd_intermediateSize
  have hshape := hweights.weight layer hlayer
  cases p with
  | linearQkv =>
    obtain ⟨q, k, v, hq, hk, hv, hcols, hrows⟩ := h
    obtain ⟨q', hq', hqShape⟩ := hshape .qProj
    obtain ⟨k', hk', hkShape⟩ := hshape .kProj
    obtain ⟨v', hv', hvShape⟩ := hshape .vProj
    cases hq'.symm.trans hq
    cases hk'.symm.trans hk
    cases hv'.symm.trans hv
    refine Tensor2.shape_eq_iff.2 ⟨?_, hcols⟩
    rw [hrows, length_interleave
      ((Tensor2.shape_eq_iff.1 hqShape).1.trans hdiv.groupQueries_mul.symm)
      ((Tensor2.shape_eq_iff.1 hkShape).1.trans (Nat.mul_comm ..))
      ((Tensor2.shape_eq_iff.1 hvShape).1.trans (Nat.mul_comm ..))]
    unfold Param.size
    rw [if_pos hle, Nat.mul_add, Nat.mul_left_comm _ 2, Nat.mul_add, Nat.mul_left_comm _ 2, hheads,
      hkvHeads, hdiv.groupQueries_mul, Nat.mul_comm (headSize cfg) cfg.numKeyValueHeads]
  | linearProj =>
    obtain ⟨t', ht', hshape⟩ := hshape .oProj
    cases ht'.symm.trans h
    exact hshape.trans (Prod.ext rfl hheads.symm)
  | linearFc1 =>
    obtain ⟨gate, up, hgate, hup, hcols, hrows⟩ := h
    obtain ⟨gate', hgate', hgateShape⟩ := hshape .gateProj
    obtain ⟨up', hup', hupShape⟩ := hshape .upProj
    cases hgate'.symm.trans hgate
    cases hup'.symm.trans hup
    have hgateLen := (Tensor2.shape_eq_iff.1 hgateShape).1
    have hupLen := (Tensor2.shape_eq_iff.1 hupShape).1
    refine Tensor2.shape_eq_iff.2 ⟨?_, hcols⟩
    rw [hrows, length_interleavePairs (hgateLen.trans hinter.symm) (hupLen.trans hinter.symm)]
    rfl
  | linearFc2 =>
    obtain ⟨t', ht', hshape⟩ := hshape .downProj
    cases ht'.symm.trans h
    exact hshape.trans (Prod.ext rfl hinter.symm)

omit hdiv hle hweights in
theorem shape_pieceAlong (ht : t.shape = (match p.dim with
      | 0 => (mpu.tpSize * p.size cfg mpu, cfg.hiddenSize)
      | 1 => (cfg.hiddenSize, mpu.tpSize * p.size cfg mpu))) {i : Nat} (hi : i < mpu.tpSize) :
    (t.pieceAlong (p.size cfg mpu) p.dim i).shape = p.shape cfg mpu := by
  cases p with
  | linearQkv | linearFc1 => exact Tensor2.shape_slice ht hi
  | linearProj | linearFc2 => exact Tensor2.shape_sliceCols ht hi

omit hle hweights in
/-- A weight in Megatron's layout, cut and kept by the ranks of a stage. -/
theorem exists_scatter_pieces (ht : t.shape = (match p.dim with
      | 0 => (mpu.tpSize * p.size cfg mpu, cfg.hiddenSize)
      | 1 => (cfg.hiddenSize, mpu.tpSize * p.size cfg mpu)))
    (tensorText : Nat → String)
    (hparam : ∀ tpRank < mpu.tpSize, ∃ old,
      param (ranks dstPpRank tpRank) place = .ok old ∧ old.shape = p.shape cfg mpu) :
    ∃ ranks', (do
        let tensorChunk ← t.chunkAlong p.dim mpu.tpSize
        scatter mpu tensorText dstPpRank place tensorChunk ranks) = .ok ranks' ∧
      Scattered mpu dstPpRank place (t.pieceAlong (p.size cfg mpu) p.dim) ranks ranks' := by
  have hlen : t.lengthAlong p.dim = mpu.tpSize * p.size cfg mpu := by
    cases p with
    | linearQkv | linearFc1 => exact (Tensor2.shape_eq_iff.1 ht).1
    | linearProj | linearFc2 => exact (Tensor2.shape_eq_iff.1 ht).2
  rw [Tensor2.chunkAlong_mul hdiv.tpSize_pos hlen]
  exact exists_scatter tensorText hdiv.tpSize_pos (fun i hi => shape_pieceAlong ht hi) hparam

omit hle hweights in
theorem exists_broadcastTpShardTensor {name : String}
    (hname : stateDict.get? name = some t)
    (ht : t.shape = (match p.dim with
      | 0 => (mpu.tpSize * p.size cfg mpu, cfg.hiddenSize)
      | 1 => (cfg.hiddenSize, mpu.tpSize * p.size cfg mpu)))
   
    (hparam : ∀ tpRank < mpu.tpSize, ∃ old,
      param (ranks dstPpRank tpRank) place = .ok old ∧ old.shape = p.shape cfg mpu) :
    ∃ ranks', broadcastTpShardTensor mpu stateDict dstPpRank place name p.dim ranks = .ok ranks' ∧
      Scattered mpu dstPpRank place (t.pieceAlong (p.size cfg mpu) p.dim) ranks ranks' := by
  unfold broadcastTpShardTensor
  rw [hname]
  exact exists_scatter_pieces hdiv ht _ hparam

theorem exists_broadcastTpShardTensorQkv (a : α)
    (hlayer : layer < cfg.numHiddenLayers)
    (hparam : ∀ tpRank < mpu.tpSize, ∃ old, param (ranks dstPpRank tpRank) place = .ok old ∧
      old.shape = Param.linearQkv.shape cfg mpu) :
    ∃ t ranks', Fused cfg mpu stateDict layer .linearQkv t ∧
      broadcastTpShardTensorQkv cfg mpu a stateDict dstPpRank place (Weight.qProj.name layer)
        (Weight.kProj.name layer) (Weight.vProj.name layer) ranks = .ok ranks' ∧
      Scattered mpu dstPpRank place (t.pieceAlong (Param.linearQkv.size cfg mpu) 0) ranks
        ranks' := by
  obtain ⟨q, hq, hqShape⟩ := hweights.weight layer hlayer .qProj
  obtain ⟨k, hk, hkShape⟩ := hweights.weight layer hlayer .kProj
  obtain ⟨v, hv, hvShape⟩ := hweights.weight layer hlayer .vProj
  obtain ⟨t, ht, hcols, hrows⟩ :=
    exists_interleaveCutHeads a (hdiv.cutSizes hle) hqShape hkShape hvShape
  rw [Nat.mul_div_cancel' (hdiv.tpSize_dvd_kvHeads hle)] at hrows
  have hfused : Fused cfg mpu stateDict layer .linearQkv t := ⟨q, k, v, hq, hk, hv, hcols, hrows⟩
  obtain ⟨ranks', hscatter, hscattered⟩ := exists_scatter_pieces hdiv
    (Fused.shape_eq hdiv hle hweights hlayer hfused) (rankText mpu dstPpRank _) hparam
  refine ⟨t, ranks', hfused, ?_, hscattered⟩
  unfold broadcastTpShardTensorQkv getWeight interleaveQkv
  rw [hq, hk, hv, hdiv.hiddenSizePerHead_eq]
  simp only [ok_bind]
  rw [if_pos hle, ht]
  exact hscatter

theorem exists_broadcastTpShardTensorGateUp (a : α)
    (hlayer : layer < cfg.numHiddenLayers)
    (hparam : ∀ tpRank < mpu.tpSize, ∃ old, param (ranks dstPpRank tpRank) place = .ok old ∧
      old.shape = Param.linearFc1.shape cfg mpu) :
    ∃ t ranks', Fused cfg mpu stateDict layer .linearFc1 t ∧
      broadcastTpShardTensorGateUp cfg mpu a stateDict dstPpRank place
        (Weight.gateProj.name layer) (Weight.upProj.name layer) ranks = .ok ranks' ∧
      Scattered mpu dstPpRank place (t.pieceAlong (Param.linearFc1.size cfg mpu) 0) ranks
        ranks' := by
  obtain ⟨gate, hgate, hgateShape⟩ := hweights.weight layer hlayer .gateProj
  obtain ⟨up, hup, hupShape⟩ := hweights.weight layer hlayer .upProj
  obtain ⟨t, ht, hcols, hrows⟩ := exists_interleaveGateUp a hdiv.tpSize_pos
    (Nat.mul_div_cancel' hdiv.tpSize_dvd_intermediateSize).symm hgateShape hupShape
  have hfused : Fused cfg mpu stateDict layer .linearFc1 t := ⟨gate, up, hgate, hup, hcols, hrows⟩
  obtain ⟨ranks', hscatter, hscattered⟩ := exists_scatter_pieces hdiv
    (Fused.shape_eq hdiv hle hweights hlayer hfused) (gateUpText mpu dstPpRank _ _) hparam
  refine ⟨t, ranks', hfused, ?_, hscattered⟩
  unfold broadcastTpShardTensorGateUp getWeight
  rw [hgate, hup]
  simp only [ok_bind]
  rw [ht]
  exact hscatter

/-- One round of the loop over the layers: the layer is loaded, nothing else changed. -/
structure LayerStep (cfg : Config) (mpu : ParallelState) (stateDict : Dict (Tensor2 α))
    (layer : Nat) (ranks ranks' : Ranks α) : Prop where
  loaded : LayerLoaded cfg mpu stateDict ranks' layer
  layerCounts_eq : ∀ ppRank tpRank,
    layerCounts (ranks' ppRank tpRank) = layerCounts (ranks ppRank tpRank)
  frame : ∀ ppRank, ∀ tpRank < mpu.tpSize, ∀ place,
    (∀ p, ¬(ppRank = (layerPlace cfg mpu layer).1 ∧ place = layerParam cfg mpu layer p)) →
      param (ranks' ppRank tpRank) place = param (ranks ppRank tpRank) place

omit hdiv hle hweights in
theorem Scattered.frame (h : Scattered mpu dstPpRank place piece ranks ranks') {ppRank tpRank : Nat}
    (htp : tpRank < mpu.tpSize) {place' : Place} (hne : ¬(ppRank = dstPpRank ∧ place' = place)) :
    param (ranks' ppRank tpRank) place' = param (ranks ppRank tpRank) place' := by
  rw [h.param_eq ppRank tpRank htp place', if_neg hne]

omit hdiv hle hweights in
theorem Scattered.holds
    (h : Scattered mpu dstPpRank place (t.pieceAlong (p.size cfg mpu) p.dim) ranks ranks') :
    Holds cfg mpu ranks' dstPpRank place p t := by
  intro tpRank htp
  rw [h.param_eq dstPpRank tpRank htp place, if_pos ⟨rfl, rfl⟩]

/-- The ranks of a layer have a parameter of it, in its shape. -/
def ParamShaped (cfg : Config) (mpu : ParallelState) (layer : Nat) (ranks : Ranks α) (p : Param) :
    Prop :=
  ∀ tpRank < mpu.tpSize, ∃ old,
    param (ranks (layerPlace cfg mpu layer).1 tpRank) (layerParam cfg mpu layer p) = .ok old ∧
      old.shape = p.shape cfg mpu

omit hdiv hle hweights in
theorem layerParam_injective
    (h : layerParam cfg mpu layer p = layerParam cfg mpu layer p') : p = p' := by
  cases h
  rfl

omit hdiv hle hweights in
theorem ParamShaped.of_scattered (h : ParamShaped cfg mpu layer ranks p)
    (hscattered : Scattered mpu (layerPlace cfg mpu layer).1 (layerParam cfg mpu layer p') piece ranks ranks')
    (hne : p ≠ p') : ParamShaped cfg mpu layer ranks' p := by
  intro tpRank htp
  rw [hscattered.frame htp fun heq => hne (layerParam_injective heq.2)]
  exact h tpRank htp

omit hdiv hle hweights in
theorem Holds.of_scattered {ppRank : Nat}
    (h : Holds cfg mpu ranks ppRank (layerParam cfg mpu layer p) p t)
    (hscattered : Scattered mpu (layerPlace cfg mpu layer).1 (layerParam cfg mpu layer p') piece ranks ranks')
    (hne : p ≠ p') :
    Holds cfg mpu ranks' ppRank (layerParam cfg mpu layer p) p t := by
  intro tpRank htp
  rw [hscattered.frame htp fun heq => hne (layerParam_injective heq.2), h tpRank htp]

theorem exists_loadLayer (a : α) {layerMap : KVMap Nat (Nat × Nat × Nat)}
    (hmap : layerMap.lookup layer = some (layerPlace cfg mpu layer))
    (hlayer : layer < cfg.numHiddenLayers)
    (hparam : ∀ p : Param, ParamShaped cfg mpu layer ranks p) :
    ∃ ranks', loadLayer cfg mpu a stateDict layerMap ranks layer = .ok ranks' ∧
      LayerStep cfg mpu stateDict layer ranks ranks' := by
  obtain ⟨o, ho, -⟩ := hweights.weight layer hlayer .oProj
  obtain ⟨down, hdown, -⟩ := hweights.weight layer hlayer .downProj
  have hproj : Fused cfg mpu stateDict layer .linearProj o := ho
  have hfc2 : Fused cfg mpu stateDict layer .linearFc2 down := hdown
  have hprojShape := Fused.shape_eq hdiv hle hweights hlayer hproj
  have hfc2Shape := Fused.shape_eq hdiv hle hweights hlayer hfc2
  obtain ⟨qkv, ranks₁, hqkv, hload₁, hscattered₁⟩ :=
    exists_broadcastTpShardTensorQkv hdiv hle hweights a hlayer (hparam .linearQkv)
  have hparam₁ := (hparam .linearProj).of_scattered hscattered₁ (by decide)
  obtain ⟨ranks₂, hload₂, hscattered₂⟩ :=
    exists_broadcastTpShardTensor hdiv ho hprojShape hparam₁
  have hparam₂ := ((hparam .linearFc1).of_scattered hscattered₁ (by decide)).of_scattered
    hscattered₂ (by decide)
  obtain ⟨gateUp, ranks₃, hgateUp, hload₃, hscattered₃⟩ :=
    exists_broadcastTpShardTensorGateUp hdiv hle hweights a hlayer hparam₂
  have hparam₃ := (((hparam .linearFc2).of_scattered hscattered₁ (by decide)).of_scattered
    hscattered₂ (by decide)).of_scattered hscattered₃ (by decide)
  obtain ⟨ranks₄, hload₄, hscattered₄⟩ :=
    exists_broadcastTpShardTensor hdiv hdown hfc2Shape hparam₃
  have hholds₁ : Holds cfg mpu ranks₁ _ (layerParam cfg mpu layer .linearQkv) .linearQkv qkv :=
    hscattered₁.holds
  have hholds₂ := hscattered₂.holds
  have hholds₃ : Holds cfg mpu ranks₃ _ (layerParam cfg mpu layer .linearFc1) .linearFc1 gateUp :=
    hscattered₃.holds
  refine ⟨ranks₄, ?_, ?_, ?_, ?_⟩
  · unfold loadLayer getLayerPlace
    rw [hmap, ok_bind]
    exact bind_eq_ok.2 ⟨ranks₁, hload₁, bind_eq_ok.2 ⟨ranks₂, hload₂,
      bind_eq_ok.2 ⟨ranks₃, hload₃, hload₄⟩⟩⟩
  · intro p
    cases p with
    | linearQkv =>
      exact ⟨qkv, hqkv, ((hholds₁.of_scattered hscattered₂ (by decide)).of_scattered hscattered₃
        (by decide)).of_scattered hscattered₄ (by decide)⟩
    | linearProj =>
      exact ⟨o, hproj, (hholds₂.of_scattered hscattered₃ (by decide)).of_scattered hscattered₄
        (by decide)⟩
    | linearFc1 => exact ⟨gateUp, hgateUp, hholds₃.of_scattered hscattered₄ (by decide)⟩
    | linearFc2 => exact ⟨down, hfc2, hscattered₄.holds⟩
  · intro ppRank tpRank
    rw [hscattered₄.layerCounts_eq, hscattered₃.layerCounts_eq, hscattered₂.layerCounts_eq,
      hscattered₁.layerCounts_eq]
  · intro ppRank tpRank htp place hne
    rw [hscattered₄.frame htp (hne .linearFc2), hscattered₃.frame htp (hne .linearFc1),
      hscattered₂.frame htp (hne .linearProj), hscattered₁.frame htp (hne .linearQkv)]

omit hdiv hle hweights in
theorem ShapedLayers.paramShaped (h : ShapedLayers cfg mpu ranks)
    (hdvd : mpu.ppSize * mpu.virtualPpSize ∣ cfg.numHiddenLayers)
    (hlayer : layer < cfg.numHiddenLayers) (p : Param) : ParamShaped cfg mpu layer ranks p := by
  obtain ⟨hpp, hv, hidx⟩ := layerPlace_lt hdvd hlayer
  exact fun tpRank htp => h _ hpp tpRank htp _ hv _ hidx p

theorem LayerStep.shaped (hlayer : layer < cfg.numHiddenLayers)
    (hstep : LayerStep cfg mpu stateDict layer ranks ranks')
    (h : ShapedLayers cfg mpu ranks) : ShapedLayers cfg mpu ranks' := by
  intro ppRank hpp tpRank htp v hv idx hidx p
  by_cases hplace : (ppRank, v, idx) = layerPlace cfg mpu layer
  · obtain ⟨t, hfused, hholds⟩ := hstep.loaded p
    have hparam := hholds tpRank htp
    unfold layerParam at hparam
    rw [← hplace] at hparam
    exact ⟨_, hparam, shape_pieceAlong (Fused.shape_eq hdiv hle hweights hlayer hfused) htp⟩
  · rw [hstep.frame ppRank tpRank htp]
    · exact h ppRank hpp tpRank htp v hv idx hidx p
    · rintro p' ⟨rfl, heq⟩
      cases heq
      exact hplace rfl

omit hdiv hle hweights in
theorem LayerStep.loaded_of_ne {layer' : Nat}
    (hstep : LayerStep cfg mpu stateDict layer ranks ranks') (hne : layer' ≠ layer)
    (h : LayerLoaded cfg mpu stateDict ranks layer') :
    LayerLoaded cfg mpu stateDict ranks' layer' := by
  intro p
  obtain ⟨t, hfused, hholds⟩ := h p
  refine ⟨t, hfused, ?_⟩
  intro tpRank htp
  rw [hstep.frame _ tpRank htp]
  · exact hholds tpRank htp
  · rintro p' ⟨hpp, heq⟩
    injection heq with hv hidx
    exact hne (layerPlace_injective (Prod.ext hpp (Prod.ext hv hidx)))

omit hle in
theorem exists_loadLayers (a : α)
    (hle : 0 < cfg.numHiddenLayers → mpu.tpSize ≤ cfg.numKeyValueHeads) {layerMap : KVMap Nat (Nat × Nat × Nat)}
    (hmap : ∀ layer < cfg.numHiddenLayers, layerMap.lookup layer = some (layerPlace cfg mpu layer))
    (hdvd : mpu.ppSize * mpu.virtualPpSize ∣ cfg.numHiddenLayers)
    (hshaped : ShapedLayers cfg mpu ranks) {k : Nat} (hk : k ≤ cfg.numHiddenLayers) :
    ∃ ranks', (range k).foldlM (loadLayer cfg mpu a stateDict layerMap) ranks = .ok ranks' ∧
      (∀ layer < k, LayerLoaded cfg mpu stateDict ranks' layer) ∧ ShapedLayers cfg mpu ranks' ∧
      (∀ ppRank tpRank, layerCounts (ranks' ppRank tpRank) = layerCounts (ranks ppRank tpRank)) ∧
      ∀ tpRank < mpu.tpSize,
        param (ranks' 0 tpRank) .wordEmbeddings = param (ranks 0 tpRank) .wordEmbeddings := by
  induction k with
  | zero => exact ⟨ranks, rfl, fun _ h => absurd h (Nat.not_lt_zero _), hshaped, fun _ _ => rfl,
      fun _ _ => rfl⟩
  | succ k ih =>
    obtain ⟨ranks₁, hload, hloaded, hshaped₁, hcounts, hembedding⟩ := ih (by omega)
    have hle := hle (by omega)
    obtain ⟨ranks₂, hstep, hlayer⟩ := exists_loadLayer hdiv hle hweights a (hmap k hk) hk
      (hshaped₁.paramShaped hdvd hk)
    refine ⟨ranks₂, ?_, ?_, hlayer.shaped hdiv hle hweights hk hshaped₁, ?_, ?_⟩
    · rw [range_succ, foldlM_append, hload, ok_bind, foldlM_cons, hstep]
      rfl
    · intro layer hlt
      by_cases heq : layer = k
      · rw [heq]
        exact hlayer.loaded
      · exact hlayer.loaded_of_ne heq (hloaded layer (by omega))
    · intro ppRank tpRank
      rw [hlayer.layerCounts_eq, hcounts]
    · intro tpRank htp
      rw [hlayer.frame 0 tpRank htp _ (by rintro p ⟨-, heq⟩; cases heq), hembedding tpRank htp]

omit hle in
/-- What the ranks hold after the load. -/
theorem exists_loadStateDict (a : α)
    (hle : 0 < cfg.numHiddenLayers → mpu.tpSize ≤ cfg.numKeyValueHeads)
    (hdvd : mpu.ppSize * mpu.virtualPpSize ∣ cfg.numHiddenLayers) (hbuilt : Built cfg mpu ranks) :
    ∃ loaded, loadStateDict cfg mpu a stateDict ranks = .ok loaded ∧
      EmbeddingLoaded cfg mpu stateDict loaded ∧
      (∀ layer < cfg.numHiddenLayers, LayerLoaded cfg mpu stateDict loaded layer) ∧
      ∀ ppRank tpRank, layerCounts (loaded ppRank tpRank) = layerCounts (ranks ppRank tpRank) := by
  obtain ⟨embed, hembed, hembedShape⟩ := hweights.embedTokens
  obtain ⟨layerMap, hlayerMap, hmap⟩ := exists_calcLayerMap hdvd
  have hvocab := (Nat.mul_div_cancel' hdiv.tpSize_dvd_vocabSize).symm
  have hembedShape' : embed.shape = (mpu.tpSize * (cfg.vocabSize / mpu.tpSize), cfg.hiddenSize) :=
    hembedShape.trans (Prod.ext hvocab rfl)
  have hchunk : embed.chunkAlong 0 mpu.tpSize =
      .ok ((range mpu.tpSize).map (embed.pieceAlong (cfg.vocabSize / mpu.tpSize) 0)) :=
    Tensor2.chunkAlong_mul hdiv.tpSize_pos (Tensor2.shape_eq_iff.1 hembedShape').1
  obtain ⟨ranks₁, hscatter, hscattered⟩ := exists_scatter (rankText mpu 0 embedTokensName)
    hdiv.tpSize_pos (fun i hi => Tensor2.shape_slice hembedShape' hi) hbuilt.wordEmbeddings
  have hshaped : ShapedLayers cfg mpu ranks₁ := by
    intro ppRank hpp tpRank htp v hv idx hidx p
    rw [hscattered.frame htp (by rintro ⟨-, heq⟩; cases heq)]
    exact hbuilt.layer ppRank hpp tpRank htp v hv idx hidx p
  obtain ⟨loaded, hload, hloaded, -, hcounts, hembedding⟩ :=
    exists_loadLayers hdiv hweights a hle hmap hdvd hshaped (Nat.le_refl _)
  refine ⟨loaded, ?_, ⟨embed, hembed, ?_⟩, hloaded, ?_⟩
  · unfold loadStateDict broadcastTpShardTensorVocab broadcastTpShardTensor
    rw [hbuilt.checkRanks_eq hdvd, ok_bind, hembed]
    refine bind_eq_ok.2 ⟨ranks₁, ?_, ?_⟩
    · dsimp only
      rw [hchunk]
      exact hscatter
    · rw [hlayerMap, ok_bind, hload]
  · intro tpRank htp
    rw [hembedding tpRank htp, hscattered.param_eq 0 tpRank htp]
    rfl
  · intro ppRank tpRank
    rw [hcounts, hscattered.layerCounts_eq]

end Run

end Verl.Gpt
