import Verl.Lib.Dict
import Verl.Lib.PyStr
import Verl.Lib.Tensor

/-! # Converters of fused weights (`utils/megatron_utils.py`, `model_merger/megatron_model_merger.py`)

Three functions that cut Megatron's fused weights into those of HuggingFace:

* `defaultTpConcatFn` gets the shards of the tensor-parallel ranks (weight sync to the rollout),
* `convertMegatronModelToTransformersModel` their concatenation,
* `splitTensors` the weight of a checkpoint, which is loaded without tensor parallelism.

A tensor is its list of rows, so that a weight and a bias are cut alike.

    the weight          q0 k0 v0  q1 k1 v1  q2 k2 v2  q3 k3 v3        gate0 gate1  up0 up1
    two shards          q0 k0 v0  q1 k1 v1 | q2 k2 v2  q3 k3 v3       gate0 up0 | gate1 up1

`converters_agree`: they give the same queries, keys and values, and the same gate and up. -/

namespace Verl.FusedWeights

open List

variable {ρ : Type}

/-- What the converters read of the HuggingFace config. -/
structure HfConfig where
  numAttentionHeads : Nat
  numKeyValueHeads : Nat
  hiddenSize : Nat
  intermediateSize : Nat
  /-- The attribute, where the config has it. -/
  headDim : Option Nat
  /-- `vision_config.num_heads`, of a model with a vision part. -/
  visionNumHeads : Option Nat

/-- A parameter, or the parts it was cut into. -/
inductive Param (ρ : Type) where
  | tensor (rows : List ρ)
  | list (parts : List (List ρ))
deriving DecidableEq

structure Qkv (ρ : Type) where
  q : List ρ
  k : List ρ
  v : List ρ
deriving DecidableEq

def Qkv.toList (w : Qkv ρ) : List (List ρ) := [w.q, w.k, w.v]

/-- The three `torch.cat` of the lists of parts. -/
def catQkv (qParts kvParts : List (Qkv ρ)) : Except PyErr (Qkv ρ) := do
  let q ← torchCat (qParts.map Qkv.q)
  let k ← torchCat (kvParts.map Qkv.k)
  let v ← torchCat (kvParts.map Qkv.v)
  return { q := q, k := k, v := v }

/-- `q, k, v = ..`. -/
def unpackQkv : List (List ρ) → Except PyErr (Qkv ρ)
  | [q, k, v] => .ok { q := q, k := k, v := v }
  | _ => .error (.valueError "not enough values to unpack (expected 3)")

/-- `gate, up = ..`. -/
def unpackPair : List (List ρ) → Except PyErr (List ρ × List ρ)
  | [gate, up] => .ok (gate, up)
  | _ => .error (.valueError "not enough values to unpack (expected 2)")

/-- `for chunk in tensor.chunk(groups)`, where `kv_size` rows of keys and `num_q_per_kv` times as
many of queries are cut over the groups. -/
def splitGroups (kvSize numQPerKv groups : Nat) (tensor : List ρ) :
    Except PyErr (List (Qkv ρ)) := do
  let chunks ← torchChunk tensor groups
  let splitSize := [kvSize * numQPerKv / groups, kvSize / groups, kvSize / groups]
  chunks.mapM fun chunk => do unpackQkv (← torchSplit chunk splitSize)

/-! ## The shards of the ranks -/

structure LayerNameMapping where
  qkvLayerName : List Char
  gateProjLayerName : List Char

/-- `layer_name_mapping` of the Megatron engine. -/
def engineLayerNames : LayerNameMapping where
  qkvLayerName := "self_attention.linear_qkv.".toList
  gateProjLayerName := "linear_fc1.".toList

/-- The numbers of heads; the vision part has as many key and value heads as heads. -/
def headsOf (cfg : HfConfig) (name : List Char) : Except PyErr (Nat × Nat) :=
  if pyIn "vision_model".toList name then
    match cfg.visionNumHeads with
    | some n => .ok (n, n)
    | none => .error (.attributeError "vision_config")
  else .ok (cfg.numAttentionHeads, cfg.numKeyValueHeads)

/-- `assert num_attention_heads % num_key_value_heads == 0`, and the quotient. -/
def queriesPerKv (numAttentionHeads numKeyValueHeads : Nat) : Except PyErr Nat := do
  let numQPerKv ← floorDiv numAttentionHeads numKeyValueHeads
  pyAssert (numAttentionHeads % numKeyValueHeads == 0) ""
  return numQPerKv

section

-- `str(tensor.shape)`, for the messages
variable (shapeText : List ρ → String)

def concatQkv (name : List Char) (inferParams : List (List ρ)) (cfg : HfConfig)
    (trainTpSize : Nat) : Except PyErr (Qkv ρ) := do
  let (numAttentionHeads, numKeyValueHeads) ← headsOf cfg name
  let numQPerKv ← queriesPerKv numAttentionHeads numKeyValueHeads
  let first ← pyGetItem inferParams 0
  let perKv := numQPerKv + 2
  pyAssert (first.length % perKv == 0)
    ("param '" ++ String.ofList name ++ "' shape '" ++ shapeText first ++
      s!"' dim0 is not divisible by {perKv}")
  let kvSizePerTp := first.length / perKv
  let parts ← inferParams.mapM fun inferParam => do
    let numQueryGroupsPerPartition ← floorDiv numKeyValueHeads trainTpSize
    splitGroups kvSizePerTp numQPerKv numQueryGroupsPerPartition inferParam
  catQkv parts.flatten parts.flatten

def concatGateUp (inferParams : List (List ρ)) : Except PyErr (List ρ × List ρ) := do
  let parts ← inferParams.mapM fun inferParam => do unpackPair (← torchChunk inferParam 2)
  let gate ← torchCat (parts.map Prod.fst)
  let up ← torchCat (parts.map Prod.snd)
  return (gate, up)

/-- `infer_params`, in one tensor or apart. -/
def joinParts (parts : List (List ρ)) (simpleSplit : Bool) : Param ρ :=
  if simpleSplit then .list parts else .tensor parts.flatten

/-- `default_tp_concat_fn`.  `catAlong dim` is `torch.cat` along a dimension, for the weights that
are not fused; `partitionDim` is the dimension along which the parameter is cut. -/
def defaultTpConcatFn (catAlong : Nat → List (List ρ) → Except PyErr (List ρ))
    (partitionDim : Nat) (layerNameMapping : LayerNameMapping) (name : List Char)
    (inferParams : List (List ρ)) (cfg : HfConfig) (trainTpSize : Nat) (simpleSplit : Bool) :
    Except PyErr (Param ρ) :=
  if pyIn layerNameMapping.qkvLayerName name && !pyIn "layer_norm".toList name then do
    let w ← concatQkv shapeText name inferParams cfg trainTpSize
    return joinParts w.toList simpleSplit
  else if pyIn layerNameMapping.gateProjLayerName name && !pyIn "layer_norm".toList name &&
      !pyIn "vision_model.projection".toList name then do
    let (gate, up) ← concatGateUp inferParams
    return joinParts [gate, up] simpleSplit
  else if pyIn "mlp.experts.linear_fc2.weight".toList name then
    (catAlong 1 inferParams).map .tensor
  else (catAlong partitionDim inferParams).map .tensor

/-! ## The weight of a checkpoint -/

/-- `MegatronModelMerger._split_tensors`. -/
def splitTensors (key : List Char) (tensor : List ρ) (cfg : HfConfig) :
    Except PyErr (List (List ρ)) :=
  if pyIn "linear_fc1.weight".toList key then do
    let (gate, up) ← unpackPair (← torchChunk tensor 2)
    let gate ← torchCat [gate]
    let up ← torchCat [up]
    return [gate, up]
  else if pyIn "self_attention.linear_qkv.".toList key && !pyIn "layer_norm".toList key then do
    let numQPerKv ← queriesPerKv cfg.numAttentionHeads cfg.numKeyValueHeads
    let perKv := numQPerKv + 2
    pyAssert (tensor.length % perKv == 0)
      ("Tensor shape " ++ shapeText tensor ++ s!" is not divisible by {perKv}")
    let kvSize := tensor.length / perKv
    let parts ← splitGroups kvSize numQPerKv cfg.numKeyValueHeads tensor
    let w ← catQkv parts parts
    return w.toList
  else .ok [tensor]

end

/-! ## The concatenation of the shards -/

/-- The parts of the rows of rank `i`. -/
def convertRank (tpSize numQueryGroups qSizeTp kvSizeTp : Nat) (fullTensor : List ρ) (i : Nat) :
    Except PyErr (List (Qkv ρ)) := do
  let totalSize := qSizeTp + 2 * kvSizeTp
  let numQueryGroupsPerPartition ← floorDiv numQueryGroups tpSize
  let qSizeChunk ← floorDiv qSizeTp numQueryGroupsPerPartition
  let kvSizeChunk ← floorDiv kvSizeTp numQueryGroupsPerPartition
  let chunks ← torchChunk (getSlice fullTensor (i * totalSize) totalSize) numQueryGroupsPerPartition
  return chunks.map fun chunk => {
    q := getSlice chunk 0 qSizeChunk
    k := getSlice chunk qSizeChunk kvSizeChunk
    v := chunk.drop (qSizeChunk + kvSizeChunk) }

/-- `convert_qkv_shard`. -/
def convertQkvShard (cfg : HfConfig) (tpSize numQueryGroups : Nat) (fullTensor : List ρ) :
    Except PyErr (Qkv ρ) := do
  let defaultSize ← floorDiv cfg.hiddenSize cfg.numAttentionHeads
  let hiddenSizePerHead := cfg.headDim.getD defaultSize
  let qSizeTp ← floorDiv (hiddenSizePerHead * cfg.numAttentionHeads) tpSize
  if tpSize ≤ cfg.numKeyValueHeads then
    let kvSizeTp ← floorDiv (hiddenSizePerHead * cfg.numKeyValueHeads) tpSize
    let parts ← (List.range tpSize).mapM
      (convertRank tpSize numQueryGroups qSizeTp kvSizeTp fullTensor)
    catQkv parts.flatten parts.flatten
  else
    let parts ← (List.range tpSize).mapM
      (convertRank tpSize numQueryGroups qSizeTp hiddenSizePerHead fullTensor)
    let kvParts := ((List.range tpSize).zip parts).filter fun part =>
      part.1 * cfg.numKeyValueHeads % tpSize == 0
    catQkv parts.flatten (kvParts.map Prod.snd).flatten

/-- `convert_gate_up_shard`. -/
def convertGateUpShard (cfg : HfConfig) (tpSize : Nat) (fullTensor : List ρ) :
    Except PyErr (List ρ × List ρ) := do
  let intermediateSizeTp ← floorDiv cfg.intermediateSize tpSize
  let parts := (List.range tpSize).map fun i =>
    let gateUpWeightTp := getSlice fullTensor (intermediateSizeTp * 2 * i) (intermediateSizeTp * 2)
    (gateUpWeightTp.take intermediateSizeTp, gateUpWeightTp.drop intermediateSizeTp)
  let gate ← torchCat (parts.map Prod.fst)
  let up ← torchCat (parts.map Prod.snd)
  return (gate, up)

/-- `model.layers.{layer_number}.{block}.{weight}`. -/
def layerKey (layerNumber block weight : List Char) : String :=
  String.ofList ("model.layers.".toList ++ layerNumber ++ '.' :: (block ++ '.' :: weight))

def qkvKeys (layerNumber paramType : List Char) : List String :=
  ["q_proj.".toList, "k_proj.".toList, "v_proj.".toList].map fun proj =>
    layerKey layerNumber "self_attn".toList (proj ++ paramType)

def gateUpKeys (layerNumber : List Char) : List String :=
  ["gate_proj.weight".toList, "up_proj.weight".toList].map fun proj =>
    layerKey layerNumber "mlp".toList proj

/-- Assignments to `new_params`. -/
def newParams (keys : List String) (params : List (List ρ)) : Dict (Param ρ) :=
  Dict.ofItems ((keys.zip params).map fun item => (item.1, .tensor item.2))

def newParam (key : String) (param : Param ρ) : Dict (Param ρ) := Dict.ofItems [(key, param)]

/-- `param_type == "weight" or param_type == "bias"`. -/
def isWeightOrBias (paramType : List Char) : Bool :=
  paramType == "weight".toList || paramType == "bias".toList

section Convert

variable (cfg : HfConfig) (tpSize numQueryGroups : Nat) (trunkConcat : Bool)

def convertQkvTensor (layerNumber paramType : List Char) (param : List ρ) :
    Except PyErr (Dict (Param ρ)) :=
  if paramType = "layer_norm_weight".toList then
    .ok (newParam (layerKey layerNumber "input_layernorm".toList "weight".toList) (.tensor param))
  else if trunkConcat then do
    let w ← convertQkvShard cfg tpSize numQueryGroups param
    return newParams (qkvKeys layerNumber paramType) w.toList
  else
    .ok (newParam (layerKey layerNumber "self_attn".toList ("qkv_proj.".toList ++ paramType))
      (.tensor param))

/-- The components beside the projections. -/
def convertAttentionRest (layerNumber component paramType : List Char) (param : Param ρ) :
    Except PyErr (Dict (Param ρ)) :=
  if component = "q_layernorm".toList then
    .ok (newParam (layerKey layerNumber "self_attn".toList "q_norm.weight".toList) param)
  else if component = "k_layernorm".toList then
    .ok (newParam (layerKey layerNumber "self_attn".toList "k_norm.weight".toList) param)
  else
    match param with
    | .tensor _ => .error (.assertionError "")
    | .list parts => do
      pyAssert (parts.length == 3) ""
      pyAssert (isWeightOrBias paramType) ""
      return newParams (qkvKeys layerNumber paramType) parts

def convertAttention (layerNumber component paramType : List Char) (param : Param ρ) :
    Except PyErr (Dict (Param ρ)) :=
  if component = "linear_proj".toList then
    .ok (newParam (layerKey layerNumber "self_attn".toList "o_proj.weight".toList) param)
  else
    match param with
    | .tensor rows =>
      if component = "linear_qkv".toList then
        convertQkvTensor cfg tpSize numQueryGroups trunkConcat layerNumber paramType rows
      else convertAttentionRest layerNumber component paramType (.tensor rows)
    | .list parts => convertAttentionRest layerNumber component paramType (.list parts)

def convertFc1Tensor (layerNumber paramType : List Char) (param : List ρ) :
    Except PyErr (Dict (Param ρ)) :=
  if paramType = "layer_norm_weight".toList then
    .ok (newParam (layerKey layerNumber "post_attention_layernorm".toList "weight".toList)
      (.tensor param))
  else if paramType = "weight".toList then
    if trunkConcat then do
      let (gate, up) ← convertGateUpShard cfg tpSize param
      return newParams (gateUpKeys layerNumber) [gate, up]
    else
      .ok (newParam (layerKey layerNumber "mlp".toList "gate_up_proj.weight".toList)
        (.tensor param))
  else .ok Dict.empty

def convertMlp (layerNumber component paramType : List Char) (param : Param ρ) :
    Except PyErr (Dict (Param ρ)) :=
  if component = "linear_fc1".toList then
    match param with
    | .tensor rows => convertFc1Tensor cfg tpSize trunkConcat layerNumber paramType rows
    | .list parts => do
      pyAssert (parts.length == 2) ""
      pyAssert (isWeightOrBias paramType) ""
      return newParams (gateUpKeys layerNumber) parts
  else if component = "linear_fc2".toList then
    .ok (newParam (layerKey layerNumber "mlp".toList "down_proj.weight".toList) param)
  else .ok Dict.empty

/-- `convert_megatron_model_to_transformers_model`. -/
def convertMegatronModelToTransformersModel (name : List Char) (param : Param ρ) :
    Except PyErr (Dict (Param ρ)) :=
  let splittedName := name.splitOn '.'
  if name = "embedding.word_embeddings.weight".toList then
    .ok (newParam "model.embed_tokens.weight" param)
  else if pyIn "self_attention".toList name then do
    let layerNumber ← pyGetItem splittedName 2
    let component ← pyGetItem splittedName 4
    let paramType ← pyGetItem splittedName 5
    convertAttention cfg tpSize numQueryGroups trunkConcat layerNumber component paramType param
  else if pyIn "mlp".toList name then do
    let layerNumber ← pyGetItem splittedName 2
    let component ← pyGetItem splittedName 4
    let paramType ← pyGetItem splittedName 5
    convertMlp cfg tpSize trunkConcat layerNumber component paramType param
  else if name = "decoder.final_layernorm.weight".toList then
    .ok (newParam "model.norm.weight" param)
  else if name = "output_layer.weight".toList then .ok (newParam "lm_head.weight" param)
  else .error (.valueError ("Unknown param name: " ++ String.ofList name))

end Convert

/-! ## The groups of a tensor -/

/-- What each converter cuts out of group `j`. -/
def groupQkv (sq sk : Nat) (rows : List ρ) (j : Nat) : Qkv ρ where
  q := getSlice rows (j * (sq + 2 * sk) + 0) sq
  k := getSlice rows (j * (sq + 2 * sk) + sq) sk
  v := getSlice rows (j * (sq + 2 * sk) + (sq + sk)) sk

/-- Queries, keys and values of `n` groups. -/
def qkvOf (n sq sk : Nat) (rows : List ρ) : Qkv ρ where
  q := queries n sq sk rows
  k := keys n sq sk rows
  v := values n sq sk rows

theorem catQkv_groups {n sq sk : Nat} (hn : 0 < n) (rows : List ρ) :
    catQkv ((range n).map (groupQkv sq sk rows)) ((range n).map (groupQkv sq sk rows)) =
      .ok (qkvOf n sq sk rows) := by
  unfold catQkv
  rw [map_map, map_map, map_map, torchCat_map_range hn, torchCat_map_range hn,
    torchCat_map_range hn]
  rfl

theorem flatten_groups (m n sq sk : Nat) (rows : List ρ) : ((range m).map fun i => (range n).map
        (groupQkv sq sk (getSlice rows (i * (n * (sq + 2 * sk))) (n * (sq + 2 * sk))))).flatten =
      (range (m * n)).map (groupQkv sq sk rows) := by
  have hsingle : ∀ (k : Nat) (f : Nat → Qkv ρ),
      (range k).map f = ((range k).map fun j => [f j]).flatten := by
    intro k f
    induction k with
    | zero => rfl
    | succ k ih => simp [range_succ, ih]
  rw [hsingle (m * n), flatten_map_range_mul]
  congr 1
  apply map_congr_left
  intro i _
  rw [hsingle n]
  congr 1
  apply map_congr_left
  intro j hj
  have hle := mul_add_le (mem_range.1 hj) (sq + 2 * sk)
  unfold groupQkv
  rw [getSlice_getSlice _ (by omega), getSlice_getSlice _ (by omega),
    getSlice_getSlice _ (by omega)]
  simp only [Nat.add_mul, Nat.mul_assoc, Nat.add_assoc]

/-- What is cut out of one chunk. -/
def chunkQkv (sq sk : Nat) (chunk : List ρ) : Qkv ρ where
  q := getSlice chunk 0 sq
  k := getSlice chunk sq sk
  v := getSlice chunk (sq + sk) sk

theorem chunkQkv_getSlice (rows : List ρ) (sq sk start : Nat) :
    chunkQkv sq sk (getSlice rows start (sq + 2 * sk)) =
      { q := getSlice rows (start + 0) sq
        k := getSlice rows (start + sq) sk
        v := getSlice rows (start + (sq + sk)) sk } := by
  unfold chunkQkv
  rw [getSlice_getSlice _ (by omega), getSlice_getSlice _ (by omega),
    getSlice_getSlice _ (by omega)]

theorem torchSplit_qkv {chunk : List ρ} {sq sk : Nat} (hlen : chunk.length = sq + 2 * sk) :
    (do unpackQkv (← torchSplit chunk [sq, sk, sk])) = .ok (chunkQkv sq sk chunk) := by
  have hsum : [sq, sk, sk].sum = chunk.length := by grind
  unfold torchSplit
  rw [if_pos hsum]
  show Except.ok _ = _
  unfold chunkQkv getSlice
  rw [drop_zero, ← drop_drop]

theorem splitGroups_eq {n numQPerKv sk : Nat} (hn : 0 < n) {rows : List ρ}
    (hlen : rows.length = n * (numQPerKv * sk + 2 * sk)) :
    splitGroups (n * sk) numQPerKv n rows =
      .ok ((range n).map (groupQkv (numQPerKv * sk) sk rows)) := by
  have hqueries : n * sk * numQPerKv / n = numQPerKv * sk := by
    rw [Nat.mul_assoc, Nat.mul_div_cancel_left _ hn, Nat.mul_comm]
  unfold splitGroups
  rw [torchChunk_mul hn hlen, ok_bind]
  rw [hqueries, Nat.mul_div_cancel_left _ hn,
    mapM_eq_ok_map _ (chunkQkv (numQPerKv * sk) sk) _ fun chunk hchunk => ?_, map_map]
  · congr 1
    apply map_congr_left
    intro j _
    exact chunkQkv_getSlice rows _ _ _
  · obtain ⟨j, hj, rfl⟩ := mem_map.1 hchunk
    have hle := mul_add_le (mem_range.1 hj) (numQPerKv * sk + 2 * sk)
    exact torchSplit_qkv (length_getSlice (by omega))

theorem convertRank_eq {tpSize groups g sq sk : Nat} (htp : 0 < tpSize) (hg : 0 < g)
    (hgroups : groups / tpSize = g) {rows : List ρ}
    (hlen : rows.length = tpSize * (g * (sq + 2 * sk))) {i : Nat} (hi : i < tpSize) :
    convertRank tpSize groups (g * sq) (g * sk) rows i = .ok ((range g).map
      (groupQkv sq sk (getSlice rows (i * (g * (sq + 2 * sk))) (g * (sq + 2 * sk))))) := by
  have htotal : g * sq + 2 * (g * sk) = g * (sq + 2 * sk) := by ring
  have hle := mul_add_le hi (g * (sq + 2 * sk))
  unfold convertRank
  rw [floorDiv_of_pos _ htp, hgroups, ok_bind, floorDiv_of_pos _ hg, floorDiv_of_pos _ hg,
    Nat.mul_div_cancel_left _ hg, Nat.mul_div_cancel_left _ hg, ok_bind, ok_bind,
    htotal, torchChunk_mul hg (length_getSlice (by omega)), ok_bind, map_map]
  refine congrArg Except.ok (map_congr_left fun j _ => ?_)
  have hvalues : ∀ part : List ρ, (getSlice part (j * (sq + 2 * sk)) (sq + 2 * sk)).drop (sq + sk) =
      getSlice (getSlice part (j * (sq + 2 * sk)) (sq + 2 * sk)) (sq + sk) sk := by
    intro part
    rw [drop_getSlice, getSlice_getSlice _ (by omega)]
    congr 1
    omega
  show Qkv.mk _ _ (List.drop _ _) = _
  rw [hvalues]
  exact chunkQkv_getSlice _ sq sk _

/-! ## The three conversions -/

/-- The rows of each rank, of a weight cut along its first dimension. -/
def tpShards (tpSize : Nat) (rows : List ρ) : List (List ρ) :=
  (List.range tpSize).map fun i =>
    getSlice rows (i * (rows.length / tpSize)) (rows.length / tpSize)

/-- The rows of each rank, of gate and up: its part of the one, then its part of the other. -/
def gateUpShards (tpSize : Nat) (gate up : List ρ) : List (List ρ) :=
  (List.range tpSize).map (pairRows (gate.length / tpSize) gate up)

/-- The heads of the config: `r` query heads for each key and value head, `g` of which a rank has;
`hd` is the size of a head. -/
structure Heads (cfg : HfConfig) (tpSize g r hd : Nat) : Prop where
  tpSize_pos : 0 < tpSize
  groups_pos : 0 < g
  queries_pos : 0 < r
  kvHeads_eq : cfg.numKeyValueHeads = tpSize * g
  heads_eq : cfg.numAttentionHeads = tpSize * g * r
  headSize_eq : cfg.headDim.getD (cfg.hiddenSize / cfg.numAttentionHeads) = hd

section Heads

variable {cfg : HfConfig} {tpSize g r hd : Nat} (h : Heads cfg tpSize g r hd)
include h

theorem Heads.queriesPerKv_eq :
    queriesPerKv cfg.numAttentionHeads cfg.numKeyValueHeads = .ok r := by
  have hpos := Nat.mul_pos h.tpSize_pos h.groups_pos
  unfold queriesPerKv
  rw [h.heads_eq, h.kvHeads_eq, floorDiv_of_pos _ hpos, Nat.mul_div_cancel_left _ hpos, Nat.mul_mod_right]
  rfl

theorem concatQkv_eq (shapeText : List ρ → String) {name : List Char}
    (hname : pyIn "vision_model".toList name = false) {rows : List ρ}
    (hlen : rows.length = cfg.numKeyValueHeads * (r * hd + 2 * hd)) :
    concatQkv shapeText name (tpShards tpSize rows) cfg tpSize =
      .ok (qkvOf cfg.numKeyValueHeads (r * hd) hd rows) := by
  have hshard : rows.length / tpSize = g * (r * hd + 2 * hd) := by
    rw [hlen, h.kvHeads_eq, Nat.mul_assoc, Nat.mul_div_cancel_left _ h.tpSize_pos]
  have hrows : rows.length = tpSize * (g * (r * hd + 2 * hd)) := by
    rw [hlen, h.kvHeads_eq, Nat.mul_assoc]
  have hlenShard : ∀ i < tpSize, (getSlice rows (i * (g * (r * hd + 2 * hd)))
      (g * (r * hd + 2 * hd))).length = g * (r * hd + 2 * hd) := by
    intro i hi
    have hle := mul_add_le hi (g * (r * hd + 2 * hd))
    exact length_getSlice (by omega)
  have hper : g * (r * hd + 2 * hd) = (r + 2) * (g * hd) := by ring
  have hfirst : pyGetItem (tpShards tpSize rows) 0 =
      .ok (getSlice rows (0 * (g * (r * hd + 2 * hd))) (g * (r * hd + 2 * hd))) := by
    unfold tpShards
    rw [hshard, pyGetItem_eq_ok, getElem?_map, getElem?_range h.tpSize_pos]
    rfl
  have hgroups : cfg.numKeyValueHeads / tpSize = g := by
    rw [h.kvHeads_eq, Nat.mul_div_cancel_left _ h.tpSize_pos]
  unfold concatQkv headsOf
  rw [hname, if_neg Bool.false_ne_true, ok_bind]
  dsimp only
  rw [h.queriesPerKv_eq, ok_bind, hfirst, ok_bind, hlenShard 0 h.tpSize_pos, hper,
    Nat.mul_mod_right, beq_self_eq_true, pyAssert_true, ok_bind,
    Nat.mul_div_cancel_left _ (by omega)]
  unfold tpShards
  rw [hshard, mapM_eq_ok_map _ (fun shard => (range g).map (groupQkv (r * hd) hd shard)),
    ok_bind, map_map]
  · have hpos := Nat.mul_pos h.tpSize_pos h.groups_pos
    have hflatten := flatten_groups tpSize g (r * hd) hd rows
    unfold Function.comp
    rw [hflatten, catQkv_groups hpos, h.kvHeads_eq]
  · intro shard hmem
    obtain ⟨i, hi, rfl⟩ := mem_map.1 hmem
    rw [floorDiv_of_pos _ h.tpSize_pos, hgroups]
    exact splitGroups_eq h.groups_pos (hlenShard i (mem_range.1 hi))

theorem splitTensors_qkv (shapeText : List ρ → String) {key : List Char}
    (hfc1 : pyIn "linear_fc1.weight".toList key = false)
    (hqkv : pyIn "self_attention.linear_qkv.".toList key = true)
    (hnorm : pyIn "layer_norm".toList key = false) {rows : List ρ}
    (hlen : rows.length = cfg.numKeyValueHeads * (r * hd + 2 * hd)) :
    splitTensors shapeText key rows cfg =
      .ok (qkvOf cfg.numKeyValueHeads (r * hd) hd rows).toList := by
  have hpos : 0 < cfg.numKeyValueHeads := by
    rw [h.kvHeads_eq]
    exact Nat.mul_pos h.tpSize_pos h.groups_pos
  have hper : rows.length = (r + 2) * (cfg.numKeyValueHeads * hd) := by
    rw [hlen]
    ring
  unfold splitTensors
  rw [hfc1, hqkv, hnorm, h.queriesPerKv_eq,
    ok_bind]
  dsimp only
  rw [hper, Nat.mul_mod_right, beq_self_eq_true, pyAssert_true, ok_bind,
    Nat.mul_div_cancel_left _ (by omega), splitGroups_eq hpos hlen, ok_bind,
    catQkv_groups hpos]
  rfl

theorem convertQkvShard_eq {rows : List ρ}
    (hlen : rows.length = cfg.numKeyValueHeads * (r * hd + 2 * hd)) :
    convertQkvShard cfg tpSize cfg.numKeyValueHeads rows =
      .ok (qkvOf cfg.numKeyValueHeads (r * hd) hd rows) := by
  have hpos := Nat.mul_pos h.tpSize_pos h.groups_pos
  have hle : tpSize ≤ cfg.numKeyValueHeads := by
    rw [h.kvHeads_eq]
    exact Nat.le_mul_of_pos_right tpSize h.groups_pos
  have hheads : 0 < cfg.numAttentionHeads := by
    rw [h.heads_eq]
    exact Nat.mul_pos hpos h.queries_pos
  have hgroups : cfg.numKeyValueHeads / tpSize = g := by
    rw [h.kvHeads_eq, Nat.mul_div_cancel_left _ h.tpSize_pos]
  have hqueries : hd * cfg.numAttentionHeads = tpSize * (g * (r * hd)) := by
    rw [h.heads_eq]
    ring
  have hkeys : hd * cfg.numKeyValueHeads = tpSize * (g * hd) := by
    rw [h.kvHeads_eq]
    ring
  have hrows : rows.length = tpSize * (g * (r * hd + 2 * hd)) := by
    rw [hlen, h.kvHeads_eq, Nat.mul_assoc]
  unfold convertQkvShard
  rw [floorDiv_of_pos _ hheads, ok_bind]
  dsimp only
  rw [h.headSize_eq, floorDiv_of_pos _ h.tpSize_pos, hqueries,
    Nat.mul_div_cancel_left _ h.tpSize_pos, ok_bind, if_pos hle,
    floorDiv_of_pos _ h.tpSize_pos, hkeys, Nat.mul_div_cancel_left _ h.tpSize_pos, ok_bind,
    mapM_eq_ok_map _ _ _ fun i hi => convertRank_eq h.tpSize_pos h.groups_pos hgroups hrows
      (mem_range.1 hi), ok_bind, flatten_groups, catQkv_groups hpos, h.kvHeads_eq]

end Heads

/-! ## Gate and up -/

section GateUp

variable {tpSize s : Nat} {gate up : List ρ}
  (hgate : gate.length = tpSize * s) (hup : up.length = tpSize * s)
include hgate hup

theorem chunk_pairRows {i : Nat} (hi : i < tpSize) :
    (do unpackPair (← torchChunk (pairRows s gate up i) 2)) =
      .ok (getSlice gate (i * s) s, getSlice up (i * s) s) := by
  have hle := mul_add_le hi s
  have hfirst : (getSlice gate (i * s) s).length = s := length_getSlice (by omega)
  have hsecond : (getSlice up (i * s) s).length = s := length_getSlice (by omega)
  have hlen : (pairRows s gate up i).length = 2 * s := by
    rw [length_pairRows hgate hup hi]
    omega
  rw [torchChunk_mul Nat.two_pos hlen]
  show Except.ok (getSlice (_ ++ _) (0 * s) s, getSlice (_ ++ _) (1 * s) s) = _
  unfold getSlice at hfirst hsecond ⊢
  rw [Nat.zero_mul, drop_zero, take_left' hfirst, Nat.one_mul, drop_left' hfirst,
    take_of_length_le (Nat.le_of_eq hsecond)]

theorem concatGateUp_eq (hpos : 0 < tpSize) :
    concatGateUp (gateUpShards tpSize gate up) = .ok (gate, up) := by
  have hsize : gate.length / tpSize = s := by
    rw [hgate, Nat.mul_div_cancel_left _ hpos]
  have hparts : (gateUpShards tpSize gate up).mapM
        (fun inferParam => do unpackPair (← torchChunk inferParam 2)) =
      .ok ((range tpSize).map fun i => (getSlice gate (i * s) s, getSlice up (i * s) s)) := by
    unfold gateUpShards
    rw [hsize, mapM_map]
    exact mapM_eq_ok_map _ _ _ fun i hi => chunk_pairRows hgate hup (mem_range.1 hi)
  unfold concatGateUp
  rw [hparts, ok_bind, map_map, map_map, torchCat_map_range hpos,
    torchCat_map_range hpos]
  show Except.ok (((range tpSize).map fun i => getSlice gate (i * s) s).flatten,
    ((range tpSize).map fun i => getSlice up (i * s) s).flatten) = _
  rw [flatten_getSlice, flatten_getSlice, getSlice_zero _ (Nat.le_of_eq hgate),
    getSlice_zero _ (Nat.le_of_eq hup)]

theorem convertGateUpShard_eq {cfg : HfConfig} (hpos : 0 < tpSize)
    (hsize : cfg.intermediateSize = tpSize * s) :
    convertGateUpShard cfg tpSize (gateUpShards tpSize gate up).flatten = .ok (gate, up) := by
  have hflatten : (gateUpShards tpSize gate up).flatten = interleavePairs tpSize s gate up := by
    unfold gateUpShards
    rw [hgate, Nat.mul_div_cancel_left _ hpos]
    rfl
  have hfirsts := firsts_interleavePairs hgate hup
  have hseconds := seconds_interleavePairs hgate hup
  have hparts : (range tpSize).map (fun i =>
        ((getSlice (interleavePairs tpSize s gate up) (s * 2 * i) (s * 2)).take s,
          (getSlice (interleavePairs tpSize s gate up) (s * 2 * i) (s * 2)).drop s)) =
      (range tpSize).map fun i =>
        (getSlice (interleavePairs tpSize s gate up) (i * (s + s) + 0) s,
          getSlice (interleavePairs tpSize s gate up) (i * (s + s) + s) s) := by
    apply map_congr_left
    intro i _
    have hstart : s * 2 * i = i * (s + s) := by ring
    have hwidth : s * 2 - s = s := by omega
    rw [hstart, drop_getSlice, hwidth]
    refine congrArg (Prod.mk · _) ?_
    show getSlice (getSlice _ _ _) 0 s = _
    rw [getSlice_getSlice _ (by omega)]
  unfold convertGateUpShard
  rw [hsize, floorDiv_of_pos _ hpos, Nat.mul_div_cancel_left _ hpos, ok_bind, hflatten]
  dsimp only
  rw [hparts, map_map, map_map, torchCat_map_range hpos, torchCat_map_range hpos]
  exact congrArg Except.ok (Prod.ext hfirsts hseconds)

theorem splitTensors_gateUp (shapeText : List ρ → String) (cfg : HfConfig) {key : List Char}
    (hfc1 : pyIn "linear_fc1.weight".toList key = true) :
    splitTensors shapeText key (gate ++ up) cfg = .ok [gate, up] := by
  have hlen : (gate ++ up).length = 2 * (tpSize * s) := by grind
  unfold splitTensors
  rw [hfc1, torchChunk_mul Nat.two_pos hlen]
  show Except.ok [(getSlice (gate ++ up) (0 * (tpSize * s)) (tpSize * s)) ++ [],
    (getSlice (gate ++ up) (1 * (tpSize * s)) (tpSize * s)) ++ []] = _
  unfold getSlice
  rw [append_nil, append_nil, Nat.zero_mul, drop_zero, take_left' hgate,
    Nat.one_mul, drop_left' hgate, take_of_length_le (Nat.le_of_eq hup)]

end GateUp

/-! ## Names of layers -/

/-- `decoder.layers.{n}.{block}.{component}.{param_type}`. -/
def layerName (n : Nat) (block component paramType : List Char) : List Char :=
  ['.'].intercalate ["decoder".toList, "layers".toList, Nat.toDigits 10 n, block, component,
    paramType]

theorem layerName_eq (n : Nat) (block component paramType : List Char) :
    layerName n block component paramType = ("decoder.layers.".toList ++ Nat.toDigits 10 n ++
      ['.']) ++ (block ++ '.' :: (component ++ '.' :: paramType)) := by
  unfold layerName
  simp [List.intercalate]

theorem pyIn_layerName {sub : List Char} {c : Char} (hdot : '.' ∉ sub) (hc : c ∈ sub)
    (hdigit : c.isDigit = false) (n : Nat) (block component paramType : List Char) :
    pyIn sub (layerName n block component paramType) =
      ["decoder".toList, "layers".toList, block, component, paramType].any (pyIn sub) := by
  unfold layerName
  rw [pyIn_intercalate hdot (cons_ne_nil _ _)]
  simp only [any_cons, pyIn_eq_false_of_mem hc (not_mem_toDigits hdigit n), Bool.false_or]

theorem splitOn_layerName (n : Nat) {block component paramType : List Char} (hblock : '.' ∉ block)
    (hcomponent : '.' ∉ component) (htype : '.' ∉ paramType) :
    (layerName n block component paramType).splitOn '.' =
      ["decoder".toList, "layers".toList, Nat.toDigits 10 n, block, component, paramType] := by
  refine splitOn_intercalate '.' ?_ (cons_ne_nil _ _)
  intro part hpart
  simp only [mem_cons, not_mem_nil, or_false] at hpart
  rcases hpart with rfl | rfl | rfl | rfl | rfl | rfl
  · decide
  · decide
  · exact not_mem_toDigits rfl n
  · exact hblock
  · exact hcomponent
  · exact htype

theorem pyGetItem_parts (a b c d e f : List Char) :
    pyGetItem [a, b, c, d, e, f] 2 = .ok c ∧ pyGetItem [a, b, c, d, e, f] 4 = .ok e ∧
      pyGetItem [a, b, c, d, e, f] 5 = .ok f :=
  ⟨rfl, rfl, rfl⟩

section Names

variable (n : Nat) {paramType : List Char} (htype : isWeightOrBias paramType = true)

def qkvName (n : Nat) (paramType : List Char) : List Char :=
  layerName n "self_attention".toList "linear_qkv".toList paramType

def gateUpName (n : Nat) : List Char :=
  layerName n "mlp".toList "linear_fc1".toList "weight".toList

theorem eq_of_isWeightOrBias {paramType : List Char} (h : isWeightOrBias paramType = true) :
    paramType = "weight".toList ∨ paramType = "bias".toList := by
  unfold isWeightOrBias at h
  rwa [Bool.or_eq_true, beq_iff_eq, beq_iff_eq] at h

theorem linearQkv_in_qkvName (paramType : List Char) :
    pyIn "self_attention.linear_qkv.".toList (qkvName n paramType) = true := by
  rw [pyIn_eq_true]
  unfold qkvName
  rw [layerName_eq]
  refine ⟨"decoder.layers.".toList ++ Nat.toDigits 10 n ++ ['.'], paramType, ?_⟩
  rw [append_assoc]
  exact congrArg _ rfl

include htype

theorem layerNorm_notIn_qkvName : pyIn "layer_norm".toList (qkvName n paramType) = false := by
  refine (pyIn_layerName (c := 'l') (by decide) (by decide) rfl n _ _ _).trans ?_
  rcases eq_of_isWeightOrBias htype with rfl | rfl <;> decide

theorem visionModel_notIn_qkvName : pyIn "vision_model".toList (qkvName n paramType) = false := by
  refine (pyIn_layerName (c := 'v') (by decide) (by decide) rfl n _ _ _).trans ?_
  rcases eq_of_isWeightOrBias htype with rfl | rfl <;> decide

theorem linearFc1_notIn_qkvName :
    pyIn "linear_fc1.weight".toList (qkvName n paramType) = false := by
  apply pyIn_eq_false_of_infix "linear_fc1".toList
  · exact ⟨[], ".weight".toList, by decide⟩
  · refine (pyIn_layerName (c := 'l') (by decide) (by decide) rfl n _ _ _).trans ?_
    rcases eq_of_isWeightOrBias htype with rfl | rfl <;> decide

theorem convert_qkvName {cfg : HfConfig} {tpSize numQueryGroups : Nat} {fullTensor : List ρ}
    {w : Qkv ρ} (hw : convertQkvShard cfg tpSize numQueryGroups fullTensor = .ok w) :
    convertMegatronModelToTransformersModel cfg tpSize numQueryGroups true (qkvName n paramType)
        (.tensor fullTensor) =
      .ok (newParams (qkvKeys (Nat.toDigits 10 n) paramType) w.toList) := by
  have hattention : pyIn "self_attention".toList (qkvName n paramType) = true := by
    refine (pyIn_layerName (c := 's') (by decide) (by decide) rfl n _ _ _).trans ?_
    rcases eq_of_isWeightOrBias htype with rfl | rfl <;> decide
  have hembedding : qkvName n paramType ≠ "embedding.word_embeddings.weight".toList := by
    intro heq
    rw [heq] at hattention
    exact absurd hattention (by decide)
  have hdot : '.' ∉ paramType := by
    rcases eq_of_isWeightOrBias htype with rfl | rfl <;> decide
  have hnorm : paramType ≠ "layer_norm_weight".toList := by
    rcases eq_of_isWeightOrBias htype with rfl | rfl <;> decide
  have hsplit : (qkvName n paramType).splitOn '.' = ["decoder".toList, "layers".toList,
      Nat.toDigits 10 n, "self_attention".toList, "linear_qkv".toList, paramType] :=
    splitOn_layerName n (by decide) (by decide) hdot
  obtain ⟨hlayer, hcomponent, hparamType⟩ := pyGetItem_parts "decoder".toList "layers".toList
    (Nat.toDigits 10 n) "self_attention".toList "linear_qkv".toList paramType
  unfold convertMegatronModelToTransformersModel
  rw [if_neg hembedding, if_pos hattention, hsplit, hlayer, ok_bind, hcomponent,
    ok_bind, hparamType, ok_bind]
  unfold convertAttention
  dsimp only
  unfold convertQkvTensor
  rw [if_neg hnorm, hw]
  rfl

end Names

section GateUpName

variable (n : Nat)

theorem selfAttention_notIn_gateUpName : pyIn "self_attention".toList (gateUpName n) = false :=
  (pyIn_layerName (c := 's') (by decide) (by decide) rfl n _ _ _).trans (by decide)

theorem linearFc1_in_gateUpName : pyIn "linear_fc1.weight".toList (gateUpName n) = true := by
  rw [pyIn_eq_true]
  unfold gateUpName
  rw [layerName_eq]
  refine ⟨"decoder.layers.".toList ++ Nat.toDigits 10 n ++ ['.'] ++ "mlp.".toList, [], ?_⟩
  rw [append_nil, append_assoc]
  exact congrArg _ (by decide)

theorem convert_gateUpName {cfg : HfConfig} {tpSize : Nat} (numQueryGroups : Nat)
    {fullTensor gate up : List ρ} (h : convertGateUpShard cfg tpSize fullTensor = .ok (gate, up)) :
    convertMegatronModelToTransformersModel cfg tpSize numQueryGroups true (gateUpName n)
        (.tensor fullTensor) =
      .ok (newParams (gateUpKeys (Nat.toDigits 10 n)) [gate, up]) := by
  have hmlp : pyIn "mlp".toList (gateUpName n) = true :=
    (pyIn_layerName (c := 'm') (by decide) (by decide) rfl n _ _ _).trans (by decide)
  have hembedding : gateUpName n ≠ "embedding.word_embeddings.weight".toList := by
    intro heq
    rw [heq] at hmlp
    exact absurd hmlp (by decide)
  have hsplit : (gateUpName n).splitOn '.' = ["decoder".toList, "layers".toList,
      Nat.toDigits 10 n, "mlp".toList, "linear_fc1".toList, "weight".toList] :=
    splitOn_layerName n (by decide) (by decide) (by decide)
  obtain ⟨hlayer, hcomponent, hparamType⟩ := pyGetItem_parts "decoder".toList "layers".toList
    (Nat.toDigits 10 n) "mlp".toList "linear_fc1".toList "weight".toList
  unfold convertMegatronModelToTransformersModel
  rw [if_neg hembedding, selfAttention_notIn_gateUpName, if_neg Bool.false_ne_true, if_pos hmlp,
    hsplit, hlayer, ok_bind, hcomponent, ok_bind, hparamType, ok_bind]
  unfold convertMlp
  rw [if_pos rfl]
  dsimp only
  unfold convertFc1Tensor
  rw [h]
  rfl

end GateUpName

/-! ## Agreement -/

section Agreement

variable {cfg : HfConfig} {tpSize : Nat} (shapeText : List ρ → String)
  (catAlong : Nat → List (List ρ) → Except PyErr (List ρ)) (partitionDim : Nat)

theorem defaultTpConcatFn_qkv {g r hd : Nat} (h : Heads cfg tpSize g r hd) (n : Nat)
    {paramType : List Char} (htype : isWeightOrBias paramType = true) {rows : List ρ}
    (hlen : rows.length = cfg.numKeyValueHeads * (r * hd + 2 * hd)) (simpleSplit : Bool) :
    defaultTpConcatFn shapeText catAlong partitionDim engineLayerNames (qkvName n paramType)
        (tpShards tpSize rows) cfg tpSize simpleSplit =
      .ok (joinParts (qkvOf cfg.numKeyValueHeads (r * hd) hd rows).toList simpleSplit) := by
  show (if (pyIn "self_attention.linear_qkv.".toList _ && !pyIn _ _) = true then _ else _) = _
  rw [linearQkv_in_qkvName, layerNorm_notIn_qkvName n htype,
    concatQkv_eq h shapeText (visionModel_notIn_qkvName n htype) hlen]
  rfl

theorem defaultTpConcatFn_gateUp (n : Nat) {s : Nat} {gate up : List ρ} (hpos : 0 < tpSize)
    (hgate : gate.length = tpSize * s) (hup : up.length = tpSize * s) (simpleSplit : Bool) :
    defaultTpConcatFn shapeText catAlong partitionDim engineLayerNames (gateUpName n)
        (gateUpShards tpSize gate up) cfg tpSize simpleSplit =
      .ok (joinParts [gate, up] simpleSplit) := by
  have hqkv : pyIn "self_attention.linear_qkv.".toList (gateUpName n) = false :=
    pyIn_eq_false_of_infix "self_attention".toList ⟨[], ".linear_qkv.".toList, by decide⟩
      (selfAttention_notIn_gateUpName n)
  have hgateUp : pyIn "linear_fc1.".toList (gateUpName n) = true := by
    have hweight := linearFc1_in_gateUpName n
    rw [pyIn_eq_true] at hweight ⊢
    have hinfix : "linear_fc1.".toList <:+: "linear_fc1.weight".toList :=
      ⟨[], "weight".toList, by decide⟩
    exact hinfix.trans hweight
  have hnorm : pyIn "layer_norm".toList (gateUpName n) = false :=
    (pyIn_layerName (c := 'l') (by decide) (by decide) rfl n _ _ _).trans (by decide)
  have hvision : pyIn "vision_model.projection".toList (gateUpName n) = false :=
    pyIn_eq_false_of_infix "vision_model".toList ⟨[], ".projection".toList, by decide⟩
      ((pyIn_layerName (c := 'v') (by decide) (by decide) rfl n _ _ _).trans (by decide))
  unfold defaultTpConcatFn
  show (if (pyIn "self_attention.linear_qkv.".toList _ && !pyIn _ _) = true then _ else
    if (pyIn "linear_fc1.".toList _ && !pyIn _ _ && !pyIn _ _) = true then _ else _) = _
  rw [hqkv, hgateUp, hnorm, hvision,
    concatGateUp_eq hgate hup hpos]
  rfl

end Agreement

theorem heads_of_dvd {cfg : HfConfig} {tpSize : Nat} (hheads : 0 < cfg.numAttentionHeads)
    (htp : 0 < tpSize) (hgroups : cfg.numKeyValueHeads ∣ cfg.numAttentionHeads)
    (hdvd : tpSize ∣ cfg.numKeyValueHeads) :
    Heads cfg tpSize (cfg.numKeyValueHeads / tpSize)
      (cfg.numAttentionHeads / cfg.numKeyValueHeads)
      (cfg.headDim.getD (cfg.hiddenSize / cfg.numAttentionHeads)) := by
  have hkv : 0 < cfg.numKeyValueHeads := Nat.pos_of_dvd_of_pos hgroups hheads
  have hmul : tpSize * (cfg.numKeyValueHeads / tpSize) = cfg.numKeyValueHeads :=
    Nat.mul_div_cancel' hdvd
  exact {
    tpSize_pos := htp
    groups_pos := Nat.div_pos (Nat.le_of_dvd hkv hdvd) htp
    queries_pos := Nat.div_pos (Nat.le_of_dvd hheads hgroups) hkv
    kvHeads_eq := hmul.symm
    heads_eq := by rw [hmul, Nat.mul_div_cancel' hgroups]
    headSize_eq := rfl }

/-- The fused weight of a layer. -/
def fusedQkv (cfg : HfConfig) (hd : Nat) (w : Qkv ρ) : List ρ :=
  interleave cfg.numKeyValueHeads (cfg.numAttentionHeads / cfg.numKeyValueHeads * hd) hd w.q w.k w.v

/-- Weights of the heads of the config. -/
structure Qkv.Fits (w : Qkv ρ) (cfg : HfConfig) (hd : Nat) : Prop where
  q_length : w.q.length = cfg.numAttentionHeads * hd
  k_length : w.k.length = cfg.numKeyValueHeads * hd
  v_length : w.v.length = cfg.numKeyValueHeads * hd

theorem Qkv.Fits.fusedQkv_spec {w : Qkv ρ} {cfg : HfConfig} {hd : Nat} (h : w.Fits cfg hd)
    (hgroups : cfg.numKeyValueHeads ∣ cfg.numAttentionHeads) :
    (fusedQkv cfg hd w).length = cfg.numKeyValueHeads *
        (cfg.numAttentionHeads / cfg.numKeyValueHeads * hd + 2 * hd) ∧
      qkvOf cfg.numKeyValueHeads (cfg.numAttentionHeads / cfg.numKeyValueHeads * hd) hd
        (fusedQkv cfg hd w) = w := by
  have hq : w.q.length =
      cfg.numKeyValueHeads * (cfg.numAttentionHeads / cfg.numKeyValueHeads * hd) := by
    rw [h.q_length, ← Nat.mul_assoc, Nat.mul_div_cancel' hgroups]
  refine ⟨length_interleave hq h.k_length h.v_length, ?_⟩
  unfold qkvOf fusedQkv
  rw [queries_interleave hq h.k_length h.v_length, keys_interleave hq h.k_length h.v_length,
    values_interleave hq h.k_length h.v_length]

theorem flatten_tpShards {tpSize : Nat} {rows : List ρ} (h : tpSize ∣ rows.length) :
    (tpShards tpSize rows).flatten = rows := by
  unfold tpShards
  rw [flatten_getSlice, Nat.mul_div_cancel' h, getSlice_zero _ le_rfl]

/-- Weight sync, the conversion of the concatenated shards and the merge of a checkpoint give the
weights that were fused. -/
theorem converters_agree (shapeText : List ρ → String)
    (catAlong : Nat → List (List ρ) → Except PyErr (List ρ)) (partitionDim : Nat) (cfg : HfConfig)
    (tpSize : Nat) (hheads : 0 < cfg.numAttentionHeads) (htp : 0 < tpSize)
    (hgroups : cfg.numKeyValueHeads ∣ cfg.numAttentionHeads)
    (hdvd : tpSize ∣ cfg.numKeyValueHeads) (hsize : tpSize ∣ cfg.intermediateSize) :
    (∀ n paramType, isWeightOrBias paramType = true → ∀ w : Qkv ρ,
      w.Fits cfg (cfg.headDim.getD (cfg.hiddenSize / cfg.numAttentionHeads)) →
      let rows := fusedQkv cfg (cfg.headDim.getD (cfg.hiddenSize / cfg.numAttentionHeads)) w
      (∀ simpleSplit, defaultTpConcatFn shapeText catAlong partitionDim engineLayerNames
        (qkvName n paramType) (tpShards tpSize rows) cfg tpSize simpleSplit =
          .ok (joinParts [w.q, w.k, w.v] simpleSplit)) ∧
      convertMegatronModelToTransformersModel cfg tpSize cfg.numKeyValueHeads true
        (qkvName n paramType) (.tensor (tpShards tpSize rows).flatten) =
          .ok (newParams (qkvKeys (Nat.toDigits 10 n) paramType) [w.q, w.k, w.v]) ∧
      splitTensors shapeText (qkvName n paramType) rows cfg = .ok [w.q, w.k, w.v]) ∧
    (∀ n, ∀ gate up : List ρ, gate.length = cfg.intermediateSize →
      up.length = cfg.intermediateSize →
      (∀ simpleSplit, defaultTpConcatFn shapeText catAlong partitionDim engineLayerNames
        (gateUpName n) (gateUpShards tpSize gate up) cfg tpSize simpleSplit =
          .ok (joinParts [gate, up] simpleSplit)) ∧
      convertMegatronModelToTransformersModel cfg tpSize cfg.numKeyValueHeads true
        (gateUpName n) (.tensor (gateUpShards tpSize gate up).flatten) =
          .ok (newParams (gateUpKeys (Nat.toDigits 10 n)) [gate, up]) ∧
      splitTensors shapeText (gateUpName n) (gate ++ up) cfg = .ok [gate, up]) := by
  have hcfg := heads_of_dvd hheads htp hgroups hdvd
  constructor
  · intro n paramType htype w hfits rows
    obtain ⟨hlen, hqkv⟩ := hfits.fusedQkv_spec hgroups
    have hshards : tpSize ∣ rows.length := hlen ▸ Dvd.dvd.mul_right hdvd _
    refine ⟨fun simpleSplit => ?_, ?_, ?_⟩
    · rw [defaultTpConcatFn_qkv shapeText catAlong partitionDim hcfg n htype hlen, hqkv]
      rfl
    · rw [flatten_tpShards hshards]
      exact convert_qkvName n htype ((convertQkvShard_eq hcfg hlen).trans (congrArg _ hqkv))
    · have hkey : pyIn "self_attention.linear_qkv.".toList (qkvName n paramType) = true :=
        linearQkv_in_qkvName n paramType
      rw [splitTensors_qkv hcfg shapeText (linearFc1_notIn_qkvName n htype) hkey
        (layerNorm_notIn_qkvName n htype) hlen, hqkv]
      rfl
  · intro n gate up hgate hup
    have hmul : cfg.intermediateSize = tpSize * (cfg.intermediateSize / tpSize) :=
      (Nat.mul_div_cancel' hsize).symm
    rw [hmul] at hgate hup
    refine ⟨fun simpleSplit => ?_, ?_, ?_⟩
    · exact defaultTpConcatFn_gateUp shapeText catAlong partitionDim n htp hgate hup simpleSplit
    · exact convert_gateUpName n cfg.numKeyValueHeads (convertGateUpShard_eq hgate hup htp hmul)
    · exact splitTensors_gateUp hgate hup shapeText cfg (linearFc1_in_gateUpName n)

def groupedConfig : HfConfig where
  numAttentionHeads := 4
  numKeyValueHeads := 2
  hiddenSize := 4
  intermediateSize := 2
  headDim := none
  visionNumHeads := none

/-- Two ranks, each with one group. -/
theorem converters_agree_twoRanks :
    let w : Qkv Nat := { q := [0, 1, 2, 3], k := [4, 5], v := [6, 7] }
    let name := qkvName 3 "weight".toList
    fusedQkv groupedConfig 1 w = [0, 1, 4, 6, 2, 3, 5, 7] ∧
      defaultTpConcatFn (fun _ => "") (fun _ ts => torchCat ts) 0 engineLayerNames name
        [[0, 1, 4, 6], [2, 3, 5, 7]] groupedConfig 2 true = .ok (.list [w.q, w.k, w.v]) ∧
      splitTensors (fun _ => "") name [0, 1, 4, 6, 2, 3, 5, 7] groupedConfig =
        .ok [w.q, w.k, w.v] ∧
      defaultTpConcatFn (fun _ => "") (fun _ ts => torchCat ts) 0 engineLayerNames (gateUpName 3)
        [[0, 2], [1, 3]] groupedConfig 2 true = .ok (.list [[0, 1], [2, 3]]) := by
  intro w name
  obtain ⟨hqkv, hgateUp⟩ := converters_agree (fun _ => "") (fun _ ts => torchCat ts) 0
    groupedConfig 2 (by decide) (by decide) ⟨2, rfl⟩ ⟨1, rfl⟩ ⟨1, rfl⟩
  obtain ⟨hsync, -, hmerge⟩ := hqkv 3 "weight".toList (by decide) w ⟨rfl, rfl, rfl⟩
  obtain ⟨hsync', -, -⟩ := hgateUp 3 [0, 1] [2, 3] rfl rfl
  have hrows : tpShards 2 (fusedQkv groupedConfig 1 w) = [[0, 1, 4, 6], [2, 3, 5, 7]] := by decide
  have hgate : gateUpShards 2 [0, 1] [2, 3] = [[0, 2], [1, 3]] := by decide
  refine ⟨by decide, ?_, hmerge, ?_⟩
  · rw [← hrows]
    exact hsync true
  · rw [← hgate]
    exact hsync' true

end Verl.FusedWeights
