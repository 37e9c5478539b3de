import Verl.Models.GptModel

/-! # Merging the weights of the ranks (`models/mcore/saver.py`)

Rank 0 receives the chunk of each tensor-parallel rank of the stage that has the layer, puts them
together and undoes the interleaving.  The result is its `state_dict`.

* `exists_splitQkv`, `exists_splitGateUp`: what is cut out of the fused weights.
* `not_splitSharedHeads`: with key and value heads shared by several ranks there is no group to cut.
* `exists_mergeLayer`: the names and weights a layer adds. -/

namespace Verl.Gpt

open List

variable {α : Type} (cfg : Config) (mpu : ParallelState)

/-- `chunk_tensors` on rank 0. -/
def gatherShards (srcPpRank : Nat) (place : Place) (ranks : Ranks α) :
    Except PyErr (List (Tensor2 α)) :=
  (List.range mpu.tpSize).mapM fun i => param (ranks srcPpRank i) place

/-- `_broadcast_tp_shard_tensor`. -/
def mergeTpShardTensor (ranks : Ranks α) (place : Place) (name : String) (srcPpRank : Nat)
    (concatDim : Fin 2) (stateDict : Dict (Tensor2 α)) : Except PyErr (Dict (Tensor2 α)) := do
  let chunkTensors ← gatherShards mpu srcPpRank place ranks
  let fullTensor ← Tensor2.catAlong chunkTensors concatDim
  return stateDict.insert name fullTensor

/-! ## Gate and up -/

/-- The gate and the up rows of rank `i`. -/
def gateUpPart (fullTensor : Tensor2 α) (intermediateSizeTp i : Nat) : Tensor2 α × Tensor2 α :=
  let gateUpWeightTp := fullTensor.slice (intermediateSizeTp * 2 * i) (intermediateSizeTp * 2)
  (gateUpWeightTp.slice 0 intermediateSizeTp, gateUpWeightTp.sliceFrom intermediateSizeTp)

def splitGateUp (fullTensor : Tensor2 α) : Except PyErr (Tensor2 α × Tensor2 α) := do
  let intermediateSizeTp ← floorDiv cfg.intermediateSize mpu.tpSize
  let parts := (List.range mpu.tpSize).map (gateUpPart fullTensor intermediateSizeTp)
  let gate ← Tensor2.cat (parts.map Prod.fst)
  let up ← Tensor2.cat (parts.map Prod.snd)
  return (gate, up)

/-- `_broadcast_tp_shard_tensor_gate_up`. -/
def mergeTpShardTensorGateUp (ranks : Ranks α) (place : Place) (gateName upName : String)
    (srcPpRank : Nat) (stateDict : Dict (Tensor2 α)) : Except PyErr (Dict (Tensor2 α)) := do
  let chunkTensors ← gatherShards mpu srcPpRank place ranks
  let fullTensor ← Tensor2.cat chunkTensors
  let (gate, up) ← splitGateUp cfg mpu fullTensor
  return (stateDict.insert gateName gate).insert upName up

/-! ## Queries, keys and values -/

/-- What is cut out of one chunk of `qkv_part`. -/
structure QkvPart (α : Type) where
  q : Tensor2 α
  k : Tensor2 α
  v : Tensor2 α

def qkvPartOfChunk (qSizeChunk kvSizeChunk : Nat) (qkvPartChunk : Tensor2 α) : QkvPart α where
  q := qkvPartChunk.slice 0 qSizeChunk
  k := qkvPartChunk.slice qSizeChunk kvSizeChunk
  v := qkvPartChunk.sliceFrom (qSizeChunk + kvSizeChunk)

/-- The parts of the rows of rank `i`. -/
def splitRank (qSizeTp kvSizeTp : Nat) (fullTensor : Tensor2 α) (i : Nat) :
    Except PyErr (List (QkvPart α)) := do
  let totalSize := qSizeTp + 2 * kvSizeTp
  let numQueryGroupsPerPartition ← floorDiv cfg.numQueryGroups mpu.tpSize
  let qSizeChunk ← floorDiv qSizeTp numQueryGroupsPerPartition
  let kvSizeChunk ← floorDiv kvSizeTp numQueryGroupsPerPartition
  let chunks ← (fullTensor.slice (i * totalSize) totalSize).chunk numQueryGroupsPerPartition
  return chunks.map (qkvPartOfChunk qSizeChunk kvSizeChunk)

/-- The three `torch.cat`. -/
def catParts (parts kvParts : List (QkvPart α)) : Except PyErr (QkvPart α) := do
  let q ← Tensor2.cat (parts.map QkvPart.q)
  let k ← Tensor2.cat (kvParts.map QkvPart.k)
  let v ← Tensor2.cat (kvParts.map QkvPart.v)
  return { q := q, k := k, v := v }

/-- Key and value heads are cut over the ranks. -/
def splitCutHeads (fullTensor : Tensor2 α) (hiddenSizePerHead : Nat) :
    Except PyErr (QkvPart α) := do
  let qSizeTp ← floorDiv (hiddenSizePerHead * cfg.numAttentionHeads) mpu.tpSize
  let kvSizeTp ← floorDiv (hiddenSizePerHead * cfg.numKeyValueHeads) mpu.tpSize
  let parts ← (List.range mpu.tpSize).mapM (splitRank cfg mpu qSizeTp kvSizeTp fullTensor)
  catParts parts.flatten parts.flatten

/-- Several ranks have the same key and value head; it is taken from the first of them. -/
def splitSharedHeads (fullTensor : Tensor2 α) (hiddenSizePerHead : Nat) :
    Except PyErr (QkvPart α) := do
  let qSizeTp ← floorDiv (hiddenSizePerHead * cfg.numAttentionHeads) mpu.tpSize
  let parts ← (List.range mpu.tpSize).mapM (splitRank cfg mpu qSizeTp hiddenSizePerHead fullTensor)
  let kvParts := ((List.range mpu.tpSize).zip parts).filter fun part =>
    part.1 * cfg.numKeyValueHeads % mpu.tpSize == 0
  catParts parts.flatten (kvParts.map Prod.snd).flatten

def splitQkv (fullTensor : Tensor2 α) : Except PyErr (QkvPart α) := do
  let hiddenSizePerHead ← hiddenSizePerHead cfg
  if mpu.tpSize ≤ cfg.numKeyValueHeads then splitCutHeads cfg mpu fullTensor hiddenSizePerHead
  else splitSharedHeads cfg mpu fullTensor hiddenSizePerHead

/-- `_broadcast_tp_shard_tensor_qkv`. -/
def mergeTpShardTensorQkv (ranks : Ranks α) (place : Place) (qName kName vName : String)
    (srcPpRank : Nat) (stateDict : Dict (Tensor2 α)) : Except PyErr (Dict (Tensor2 α)) := do
  let chunkTensors ← gatherShards mpu srcPpRank place ranks
  let fullTensor ← Tensor2.cat chunkTensors
  let weights ← splitQkv cfg mpu fullTensor
  return ((stateDict.insert qName weights.q).insert kName weights.k).insert vName weights.v

/-! ## The merge -/

def mergeLayer (ranks : Ranks α) (layerMap : KVMap Nat (Nat × Nat × Nat))
    (stateDict : Dict (Tensor2 α)) (layer : Nat) : Except PyErr (Dict (Tensor2 α)) := do
  let (srcPpRank, srcVirtualPpRank, srcLayerIdx) ← getLayerPlace layerMap layer
  let syncLayer := Place.layer srcVirtualPpRank srcLayerIdx
  let stateDict ← mergeTpShardTensorQkv cfg mpu ranks (syncLayer .linearQkv)
    (Weight.qProj.name layer) (Weight.kProj.name layer) (Weight.vProj.name layer) srcPpRank
    stateDict
  let stateDict ← mergeTpShardTensor mpu ranks (syncLayer .linearProj) (Weight.oProj.name layer)
    srcPpRank 1 stateDict
  let stateDict ← mergeTpShardTensorGateUp cfg mpu ranks (syncLayer .linearFc1)
    (Weight.gateProj.name layer) (Weight.upProj.name layer) srcPpRank stateDict
  mergeTpShardTensor mpu ranks (syncLayer .linearFc2) (Weight.downProj.name layer) srcPpRank 1
    stateDict

def layersText (count : Nat) : String :=
  let perModel := numLayersPerModel cfg mpu
  s!"len model layers {count} not equal to num_layers_per_model {perModel}"

/-- `merge_megatron_ckpt_gptmodel`. -/
def mergeMegatronCkpt (ranks : Ranks α) : Except PyErr (Dict (Tensor2 α)) := do
  checkRanks cfg mpu (layersText cfg mpu) ranks
  let stateDict ← mergeTpShardTensor mpu ranks .wordEmbeddings embedTokensName 0 0 Dict.empty
  let layerMap ← calcLayerMap cfg mpu
  (List.range cfg.numHiddenLayers).foldlM (mergeLayer cfg mpu ranks layerMap) stateDict

/-! ## What is cut out -/

variable {cfg mpu}

theorem exists_splitGateUp (t : Tensor2 α) {s : Nat} (htp : 0 < mpu.tpSize)
    (hs : cfg.intermediateSize = mpu.tpSize * s) :
    ∃ gate up, splitGateUp cfg mpu t = .ok (gate, up) ∧ gate.cols = t.cols ∧ up.cols = t.cols ∧
      gate.rows = strided mpu.tpSize (s + s) 0 s t.rows ∧
      up.rows = strided mpu.tpSize (s + s) s s t.rows := by
  obtain ⟨gate, hgate, hgateCols, hgateRows⟩ := Tensor2.exists_cat_map_range htp fun i _ =>
    (show (gateUpPart t s i).1.cols = t.cols from rfl)
  obtain ⟨up, hup, hupCols, hupRows⟩ := Tensor2.exists_cat_map_range htp fun i _ =>
    (show (gateUpPart t s i).2.cols = t.cols from rfl)
  refine ⟨gate, up, ?_, hgateCols, hupCols, ?_, ?_⟩
  · unfold splitGateUp
    rw [floorDiv_of_pos _ htp, hs, Nat.mul_div_cancel_left _ htp, ok_bind]
    dsimp only
    rw [map_map, map_map]
    exact (congrArg (· >>= _) hgate).trans ((ok_bind ..).trans
      ((congrArg (· >>= _) hup).trans (ok_bind ..)))
  · rw [hgateRows]
    congr 1
    apply map_congr_left
    intro i _
    show getSlice (getSlice t.rows (s * 2 * i) (s * 2)) 0 s = _
    rw [getSlice_getSlice _ (by omega), Nat.mul_comm (s * 2), Nat.mul_two]
  · rw [hupRows]
    congr 1
    apply map_congr_left
    intro i _
    show (getSlice t.rows (s * 2 * i) (s * 2)).drop s = _
    rw [drop_getSlice, Nat.mul_comm (s * 2), Nat.mul_two, Nat.add_sub_cancel]

theorem exists_cat_parts {m g per offset size : Nat} (t : Tensor2 α)
    (part : Nat → Nat → QkvPart α) (proj : QkvPart α → Tensor2 α) (hm : 0 < m) (hg : 0 < g) (h : offset + size ≤ per)
    (hcols : ∀ i j, (proj (part i j)).cols = t.cols)
    (hrows : ∀ i j, (proj (part i j)).rows =
      getSlice (getSlice t.rows (i * (g * per)) (g * per)) (j * per + offset) size) :
    ∃ r, Tensor2.cat ((((range m).map fun i =>
        (range g).map (part i)).flatten).map proj) = .ok r ∧ r.cols = t.cols ∧
      r.rows = strided (m * g) per offset size t.rows := by
  have hne : (((range m).map fun i => (range g).map (part i)).flatten).map proj ≠ [] := by
    obtain ⟨m, rfl⟩ : ∃ n, m = n + 1 := ⟨m - 1, by omega⟩
    obtain ⟨g, rfl⟩ : ∃ n, g = n + 1 := ⟨g - 1, by omega⟩
    rw [range_succ_eq_map, range_succ_eq_map]
    exact cons_ne_nil _ _
  have hall : ∀ r ∈ (((range m).map fun i => (range g).map (part i)).flatten).map proj,
      r.cols = t.cols := by grind
  obtain ⟨r, hcat, hrcols, hrrows⟩ := Tensor2.exists_cat hne hall
  refine ⟨r, hcat, hrcols, ?_⟩
  rw [hrrows, strided_mul m g t.rows h, flatMap_def, map_map, map_flatten,
    flatten_flatten, map_map, map_map]
  congr 1
  apply map_congr_left
  intro i _
  show (((range g).map (part i)).map _).flatten = _
  rw [map_map]
  congr 1
  exact map_congr_left fun j _ => hrows i j

/-- Chunk `j` of the rows of rank `i`, of `g` chunks of `per` rows. -/
def groupChunk (t : Tensor2 α) (g per i j : Nat) : Tensor2 α :=
  (t.slice (i * (g * per)) (g * per)).slice (j * per) per

theorem splitRank_eq {hd g sq : Nat} (h : CutSizes cfg mpu hd g sq) {t : Tensor2 α}
    (hlen : t.rows.length = mpu.tpSize * (g * (sq + 2 * hd))) {i : Nat} (hi : i < mpu.tpSize) :
    splitRank cfg mpu (g * sq) (g * hd) t i =
      .ok ((range g).map fun j => qkvPartOfChunk sq hd (groupChunk t g (sq + 2 * hd) i j)) := by
  have htotal : g * sq + 2 * (g * hd) = g * (sq + 2 * hd) := by ring
  have hle := mul_add_le hi (g * (sq + 2 * hd))
  unfold splitRank
  rw [floorDiv_of_pos _ h.tp_pos, h.groups_eq, ok_bind, floorDiv_of_pos _ h.groups_pos,
    floorDiv_of_pos _ h.groups_pos, Nat.mul_div_cancel_left _ h.groups_pos,
    Nat.mul_div_cancel_left _ h.groups_pos, ok_bind, ok_bind, htotal,
    Tensor2.chunk_mul h.groups_pos (length_getSlice (by omega)), ok_bind, map_map]
  rfl

theorem rows_qkvPartOfChunk (t : Tensor2 α) (g sq sk i j : Nat) :
    let part := qkvPartOfChunk sq sk (groupChunk t g (sq + 2 * sk) i j)
    let rankRows := getSlice t.rows (i * (g * (sq + 2 * sk))) (g * (sq + 2 * sk))
    part.q.rows = getSlice rankRows (j * (sq + 2 * sk) + 0) sq ∧
      part.k.rows = getSlice rankRows (j * (sq + 2 * sk) + sq) sk ∧
      part.v.rows = getSlice rankRows (j * (sq + 2 * sk) + (sq + sk)) sk := by
  refine ⟨getSlice_getSlice _ (by omega), getSlice_getSlice _ (by omega),
    (drop_getSlice _ _ _ (sq + sk)).trans ?_⟩
  rw [show sq + 2 * sk - (sq + sk) = sk by omega]
  rfl

theorem exists_splitCutHeads {hd g sq : Nat} (h : CutSizes cfg mpu hd g sq) {t : Tensor2 α}
    (hlen : t.rows.length = mpu.tpSize * (g * (sq + 2 * hd))) :
    ∃ w, splitCutHeads cfg mpu t hd = .ok w ∧
      w.q.cols = t.cols ∧ w.k.cols = t.cols ∧ w.v.cols = t.cols ∧
      w.q.rows = queries (mpu.tpSize * g) sq hd t.rows ∧
      w.k.rows = keys (mpu.tpSize * g) sq hd t.rows ∧
      w.v.rows = values (mpu.tpSize * g) sq hd t.rows := by
  have hparts := mapM_eq_ok_map _ _ (range mpu.tpSize) fun i hi =>
    splitRank_eq h hlen (mem_range.1 hi)
  have hrows := rows_qkvPartOfChunk t g sq hd
  let part (i j : Nat) := qkvPartOfChunk sq hd (groupChunk t g (sq + 2 * hd) i j)
  obtain ⟨q, hq, hqCols, hqRows⟩ := exists_cat_parts t part QkvPart.q h.tp_pos h.groups_pos
    (show 0 + sq ≤ sq + 2 * hd by omega) (fun _ _ => rfl) fun i j => (hrows i j).1
  obtain ⟨k, hk, hkCols, hkRows⟩ := exists_cat_parts t part QkvPart.k h.tp_pos h.groups_pos
    (show sq + hd ≤ sq + 2 * hd by omega) (fun _ _ => rfl) fun i j => (hrows i j).2.1
  obtain ⟨v, hv, hvCols, hvRows⟩ := exists_cat_parts t part QkvPart.v h.tp_pos h.groups_pos
    (show sq + hd + hd ≤ sq + 2 * hd by omega) (fun _ _ => rfl) fun i j => (hrows i j).2.2
  refine ⟨{ q := q, k := k, v := v }, ?_, hqCols, hkCols, hvCols, hqRows, hkRows, hvRows⟩
  unfold splitCutHeads
  rw [floorDiv_of_pos _ h.tp_pos, floorDiv_of_pos _ h.tp_pos, h.queries_eq, h.keys_eq,
    Nat.mul_div_cancel_left _ h.tp_pos, Nat.mul_div_cancel_left _ h.tp_pos, ok_bind,
    ok_bind, hparts, ok_bind]
  unfold catParts
  rw [hq, hk, hv]
  rfl

theorem not_splitSharedHeads {t : Tensor2 α} {hd : Nat} (htp : 0 < mpu.tpSize)
    (hlt : cfg.numQueryGroups < mpu.tpSize) (w : QkvPart α) :
    splitSharedHeads cfg mpu t hd ≠ .ok w := by
  intro h
  obtain ⟨qSizeTp, -, h⟩ := bind_eq_ok.1 h
  obtain ⟨parts, hparts, -⟩ := bind_eq_ok.1 h
  obtain ⟨part, hpart⟩ := exists_of_mapM hparts (mem_range.2 htp)
  unfold splitRank at hpart
  rw [floorDiv_of_pos _ htp, Nat.div_eq_of_lt hlt] at hpart
  cases hpart

end Verl.Gpt
