import Verl.Lib.Dict
import Verl.Lib.KeyValue
import Verl.Lib.Tensor

/-! # Weights of a GPT model on its ranks (`models/mcore/loader.py`, `models/mcore/saver.py`)

What the loader and the saver share: the sizes they read, the modules that hold the weights of a
rank, the names of the weights in a HuggingFace checkpoint and `_megatron_calc_layer_map`, which
both files define.

The ranks are those of one model-parallel group, `ranks ppRank tpRank`; the data-parallel and the
context-parallel rank are 0.  Left out are the weights that are not cut (the norms), the biases and
the head.

* `param_setParam`: a parameter, after one was assigned.
* `exists_calcLayerMap`: the place of every layer.
* `layerPlace_injective`: no place has two layers. -/

namespace Verl.Gpt

open List

variable {α : Type}

/-- What the two functions read of the configs. -/
structure Config where
  numHiddenLayers : Nat
  numAttentionHeads : Nat
  numKeyValueHeads : Nat
  hiddenSize : Nat
  intermediateSize : Nat
  vocabSize : Nat
  /-- The attribute, where the config has it. -/
  headDim : Option Nat
  /-- Of the config of the Megatron model. -/
  numQueryGroups : Nat

/-- The sizes `mpu` gives. -/
structure ParallelState where
  tpSize : Nat
  ppSize : Nat
  dpSize : Nat
  cpSize : Nat
  virtualPipelineSize : Option Nat

/-- `get_virtual_pipeline_model_parallel_world_size() or 1`. -/
def ParallelState.virtualPpSize (mpu : ParallelState) : Nat :=
  match mpu.virtualPipelineSize with
  | none => 1
  | some n => if n = 0 then 1 else n

theorem ParallelState.virtualPpSize_pos (mpu : ParallelState) : 0 < mpu.virtualPpSize := by
  unfold virtualPpSize
  split
  · omega
  · split <;> omega

/-- `_megatron_calc_global_rank`, for the data-parallel and the context-parallel rank 0. -/
def ParallelState.globalRank (mpu : ParallelState) (tpRank ppRank : Nat) : Nat :=
  (ppRank * mpu.dpSize) * mpu.cpSize * mpu.tpSize + tpRank

/-- `getattr(config, "head_dim", config.hidden_size // config.num_attention_heads)`; the default
is computed in any case. -/
def hiddenSizePerHead (cfg : Config) : Except PyErr Nat :=
  (floorDiv cfg.hiddenSize cfg.numAttentionHeads).map fun size => cfg.headDim.getD size

/-- The sizes, where the key and value heads are cut: `g` groups a rank, `sq` and `sk` rows of
queries and of keys for each. -/
structure CutSizes (cfg : Config) (mpu : ParallelState) (hd g sq : Nat) : Prop where
  tp_pos : 0 < mpu.tpSize
  groups_pos : 0 < g
  queries_eq : hd * cfg.numAttentionHeads = mpu.tpSize * (g * sq)
  keys_eq : hd * cfg.numKeyValueHeads = mpu.tpSize * (g * hd)
  groups_eq : cfg.numQueryGroups / mpu.tpSize = g

/-! ## Names -/

/-- The weights of a decoder layer that are cut, as HuggingFace has them. -/
inductive Weight where
  | qProj
  | kProj
  | vProj
  | oProj
  | gateProj
  | upProj
  | downProj
deriving DecidableEq, Repr

def Weight.all : List Weight := [.qProj, .kProj, .vProj, .oProj, .gateProj, .upProj, .downProj]

theorem Weight.mem_all (w : Weight) : w ∈ all := by
  cases w <;> decide

def layerName (layer : Nat) : String := s!"model.layers.{layer}"

def Weight.name (layer : Nat) : Weight → String
  | qProj => layerName layer ++ ".self_attn.q_proj.weight"
  | kProj => layerName layer ++ ".self_attn.k_proj.weight"
  | vProj => layerName layer ++ ".self_attn.v_proj.weight"
  | oProj => layerName layer ++ ".self_attn.o_proj.weight"
  | gateProj => layerName layer ++ ".mlp.gate_proj.weight"
  | upProj => layerName layer ++ ".mlp.up_proj.weight"
  | downProj => layerName layer ++ ".mlp.down_proj.weight"

def embedTokensName : String := "model.embed_tokens.weight"

/-! ## Modules -/

/-- The weights of a decoder layer that are cut, as Megatron has them. -/
inductive Param where
  | linearQkv
  | linearProj
  | linearFc1
  | linearFc2
deriving DecidableEq, Repr

structure DecoderLayer (α : Type) where
  linearQkv : Tensor2 α
  linearProj : Tensor2 α
  linearFc1 : Tensor2 α
  linearFc2 : Tensor2 α

def DecoderLayer.param (l : DecoderLayer α) : Param → Tensor2 α
  | .linearQkv => l.linearQkv
  | .linearProj => l.linearProj
  | .linearFc1 => l.linearFc1
  | .linearFc2 => l.linearFc2

def DecoderLayer.setParam (l : DecoderLayer α) (t : Tensor2 α) : Param → DecoderLayer α
  | .linearQkv => { l with linearQkv := t }
  | .linearProj => { l with linearProj := t }
  | .linearFc1 => { l with linearFc1 := t }
  | .linearFc2 => { l with linearFc2 := t }

@[simp] theorem DecoderLayer.param_setParam (l : DecoderLayer α) (t : Tensor2 α) (p q : Param) :
    (l.setParam t p).param q = if q = p then t else l.param q := by
  cases p <;> cases q <;> rfl

/-- A chunk of the pipeline; only the first one of the first stage has the embedding. -/
structure GptModel (α : Type) where
  wordEmbeddings : Option (Tensor2 α)
  layers : List (DecoderLayer α)

/-- `embedding.word_embeddings.weight`. -/
def GptModel.embedding (m : GptModel α) : Except PyErr (Tensor2 α) :=
  match m.wordEmbeddings with
  | some t => .ok t
  | none => .error (.attributeError "embedding")

/-- The place of a parameter among the models of a rank. -/
inductive Place where
  | wordEmbeddings
  | layer (virtualPpRank layerIdx : Nat) (param : Param)
deriving DecidableEq

def param (models : List (GptModel α)) : Place → Except PyErr (Tensor2 α)
  | .wordEmbeddings => do
    let gptModelModule ← pyGetItem models 0
    gptModelModule.embedding
  | .layer virtualPpRank layerIdx p => do
    let gptModelModule ← pyGetItem models virtualPpRank
    let syncLayer ← pyGetItem gptModelModule.layers layerIdx
    return syncLayer.param p

def setParam (models : List (GptModel α)) (t : Tensor2 α) : Place → List (GptModel α)
  | .wordEmbeddings => models.modify 0 fun m => { m with wordEmbeddings := some t }
  | .layer virtualPpRank layerIdx p =>
    models.modify virtualPpRank fun m =>
      { m with layers := m.layers.modify layerIdx fun l => l.setParam t p }

/-- The models of the ranks of a model-parallel group. -/
abbrev Ranks (α : Type) := Nat → Nat → List (GptModel α)

def layerCounts (models : List (GptModel α)) : List Nat := models.map fun m => m.layers.length

theorem layerCounts_setParam (models : List (GptModel α)) (t : Tensor2 α) (place : Place) :
    layerCounts (setParam models t place) = layerCounts models := by
  unfold layerCounts
  cases place with
  | wordEmbeddings =>
    apply ext_getElem?
    intro i
    show ((models.modify 0 _).map _)[i]? = _
    rw [getElem?_map, getElem?_map, getElem?_modify]
    cases models[i]? with
    | none => rfl
    | some m => by_cases h : 0 = i <;> simp [h]
  | layer v idx p =>
    apply ext_getElem?
    intro i
    show ((models.modify v _).map _)[i]? = _
    rw [getElem?_map, getElem?_map, getElem?_modify]
    cases models[i]? with
    | none => rfl
    | some m => by_cases h : v = i <;> simp [h]

section

variable {models : List (GptModel α)}

theorem param_layer_eq_ok {v idx : Nat} {p : Param} {t : Tensor2 α} :
    param models (.layer v idx p) = .ok t ↔
      ∃ m, models[v]? = some m ∧ ∃ l, m.layers[idx]? = some l ∧ l.param p = t := by
  show (pyGetItem models v >>= fun m => pyGetItem m.layers idx >>= fun l => .ok (l.param p)) = _ ↔ _
  simp only [pyGetItem_eq_ok, bind_eq_ok, Except.ok.injEq]

theorem param_wordEmbeddings_eq_ok {t : Tensor2 α} : param models .wordEmbeddings = .ok t ↔
      ∃ m, models[0]? = some m ∧ m.wordEmbeddings = some t := by
  show (pyGetItem models 0 >>= GptModel.embedding) = _ ↔ _
  rw [bind_eq_ok]
  simp only [pyGetItem_eq_ok]
  constructor
  · rintro ⟨m, hm, h⟩
    refine ⟨m, hm, ?_⟩
    unfold GptModel.embedding at h
    split at h
    · grind
    · cases h
  · rintro ⟨m, hm, h⟩
    refine ⟨m, hm, ?_⟩
    unfold GptModel.embedding
    rw [h]

theorem param_setParam {place : Place} {old : Tensor2 α}
    (h : param models place = .ok old) (t : Tensor2 α) (place' : Place) :
    param (setParam models t place) place' =
      if place' = place then .ok t else param models place' := by
  cases place with
  | wordEmbeddings =>
    cases place' with
    | wordEmbeddings =>
      obtain ⟨m, hm, -⟩ := param_wordEmbeddings_eq_ok.1 h
      rw [if_pos rfl, param_wordEmbeddings_eq_ok]
      refine ⟨{ m with wordEmbeddings := some t }, ?_, rfl⟩
      show (models.modify 0 _)[0]? = _
      rw [getElem?_modify, hm]
      rfl
    | layer v idx p =>
      show (pyGetItem (models.modify 0 _) v >>= _) = (pyGetItem models v >>= _)
      rw [pyGetItem_modify]
      cases pyGetItem models v with
      | error e => rfl
      | ok m => by_cases hv : 0 = v <;> simp [hv, Except.map]
  | layer v idx p =>
    obtain ⟨m, hm, l, hl, -⟩ := param_layer_eq_ok.1 h
    cases place' with
    | wordEmbeddings =>
      show (pyGetItem (models.modify v _) 0 >>= _) = (pyGetItem models 0 >>= _)
      rw [pyGetItem_modify]
      cases pyGetItem models 0 with
      | error e => rfl
      | ok m => by_cases hv : v = 0 <;> simp [hv, Except.map, GptModel.embedding]
    | layer v' idx' p' =>
      show (pyGetItem (models.modify v _) v' >>= _) = _
      rw [pyGetItem_modify]
      by_cases hv : v = v'
      · subst hv
        rw [pyGetItem_eq_ok.2 hm]
        simp only [if_true]
        show (pyGetItem (m.layers.modify idx _) idx' >>= _) = _
        rw [pyGetItem_modify]
        by_cases hidx : idx = idx'
        · subst hidx
          rw [pyGetItem_eq_ok.2 hl]
          by_cases hp : p' = p
          · subst hp
            simp [Except.map]
          · rw [param_layer_eq_ok.2 ⟨m, hm, l, hl, rfl⟩]
            simp [Except.map, hp]
        · rw [if_neg (by rintro ⟨⟩; exact hidx rfl)]
          show _ = (pyGetItem models v >>= _)
          rw [pyGetItem_eq_ok.2 hm]
          show _ = (pyGetItem m.layers idx' >>= _)
          cases pyGetItem m.layers idx' with
          | error e => rfl
          | ok l' => simp [Except.map, hidx]
      · rw [if_neg (by rintro ⟨⟩; exact hv rfl)]
        show _ = (pyGetItem models v' >>= _)
        cases pyGetItem models v' with
        | error e => rfl
        | ok m' => simp [Except.map, hv]

end

/-! ## The layer map -/

variable (cfg : Config) (mpu : ParallelState)

def numLayersPerModel : Nat := cfg.numHiddenLayers / mpu.ppSize / mpu.virtualPpSize

/-- The assignments `layer_map[layer_offset + layer_idx] = ..`, in their order. -/
def layerMapItems : List (Nat × Nat × Nat × Nat) :=
  (List.range mpu.ppSize).flatMap fun ppRankIdx =>
    (List.range mpu.virtualPpSize).flatMap fun virtualPpRankIdx =>
      let layerOffset := virtualPpRankIdx * (cfg.numHiddenLayers / mpu.virtualPpSize) +
        ppRankIdx * numLayersPerModel cfg mpu
      (List.range (numLayersPerModel cfg mpu)).map fun layerIdx =>
        (layerOffset + layerIdx, ppRankIdx, virtualPpRankIdx, layerIdx)

/-- `assert num_layers_per_model * pp_size * virtual_pp_size == config.num_hidden_layers`. -/
def assertLayersDivided : Except PyErr Unit :=
  pyAssert (numLayersPerModel cfg mpu * mpu.ppSize * mpu.virtualPpSize == cfg.numHiddenLayers) ""

/-- `_megatron_calc_layer_map`. -/
def calcLayerMap : Except PyErr (KVMap Nat (Nat × Nat × Nat)) := do
  assertLayersDivided cfg mpu
  return (layerMapItems cfg mpu).foldl (fun layerMap e => layerMap.insert e.1 e.2) ∅

/-- What every rank asserts of its models. -/
def checkModels (layersText : Nat → String) (models : List (GptModel α)) : Except PyErr Unit := do
  pyAssert (models.length == mpu.virtualPpSize) ""
  assertLayersDivided cfg mpu
  (layerCounts models).forM fun count =>
    pyAssert (count == numLayersPerModel cfg mpu) (layersText count)

def checkRanks (layersText : Nat → String) (ranks : Ranks α) : Except PyErr Unit :=
  (List.range mpu.ppSize).forM fun ppRank =>
    (List.range mpu.tpSize).forM fun tpRank => checkModels cfg mpu layersText (ranks ppRank tpRank)

/-- `layer_map[layer]`. -/
def getLayerPlace (layerMap : KVMap Nat (Nat × Nat × Nat)) (layer : Nat) :
    Except PyErr (Nat × Nat × Nat) :=
  match layerMap.lookup layer with
  | some place => .ok place
  | none => .error (.keyError (toString layer))

/-- The stage of a layer, its virtual stage there and its number in that model. -/
def layerPlace (layer : Nat) : Nat × Nat × Nat :=
  let n := numLayersPerModel cfg mpu
  (layer / n % mpu.ppSize, layer / n / mpu.ppSize, layer % n)

variable {cfg mpu}

theorem assertLayersDivided_eq_ok : assertLayersDivided cfg mpu = .ok () ↔
      mpu.ppSize * mpu.virtualPpSize ∣ cfg.numHiddenLayers := by
  unfold assertLayersDivided numLayersPerModel
  rw [pyAssert_eq_ok, beq_iff_eq, Nat.div_div_eq_div_mul, Nat.mul_assoc]
  exact Nat.dvd_iff_div_mul_eq .. |>.symm

theorem mem_layerMapItems {e : Nat × Nat × Nat × Nat} : e ∈ layerMapItems cfg mpu ↔
      e.2.1 < mpu.ppSize ∧ e.2.2.1 < mpu.virtualPpSize ∧ e.2.2.2 < numLayersPerModel cfg mpu ∧
        e.1 = e.2.2.1 * (cfg.numHiddenLayers / mpu.virtualPpSize) +
          e.2.1 * numLayersPerModel cfg mpu + e.2.2.2 := by
  obtain ⟨layer, pp, v, idx⟩ := e
  unfold layerMapItems
  simp only [mem_flatMap, mem_map, mem_range, Prod.mk.injEq]
  constructor
  · grind
  · rintro ⟨hpp, hv, hidx, rfl⟩
    exact ⟨pp, hpp, v, hv, idx, hidx, rfl, rfl, rfl, rfl⟩

theorem numLayers_div_virtualPpSize (hdvd : mpu.ppSize * mpu.virtualPpSize ∣ cfg.numHiddenLayers) :
    cfg.numHiddenLayers / mpu.virtualPpSize = mpu.ppSize * numLayersPerModel cfg mpu := by
  obtain ⟨n, hn⟩ := hdvd
  have hv := mpu.virtualPpSize_pos
  unfold numLayersPerModel
  rw [hn, Nat.div_div_eq_div_mul]
  by_cases hpp : mpu.ppSize = 0
  · rw [hpp, Nat.zero_mul, Nat.zero_mul, Nat.zero_div]
  · rw [Nat.mul_div_cancel_left n (Nat.mul_pos (Nat.pos_of_ne_zero hpp) hv), Nat.mul_right_comm,
      Nat.mul_div_cancel _ hv]

theorem layerPlace_key (layer : Nat) :
    ((layerPlace cfg mpu layer).2.1 * mpu.ppSize + (layerPlace cfg mpu layer).1) *
      numLayersPerModel cfg mpu + (layerPlace cfg mpu layer).2.2 = layer := by
  show (layer / _ / mpu.ppSize * mpu.ppSize + layer / _ % mpu.ppSize) * _ + layer % _ = layer
  rw [Nat.div_add_mod', Nat.div_add_mod']

theorem layerPlace_injective : (layerPlace cfg mpu).Injective := by
  intro layer layer' h
  rw [← layerPlace_key layer, h, layerPlace_key]

section

variable (hdvd : mpu.ppSize * mpu.virtualPpSize ∣ cfg.numHiddenLayers)
include hdvd

theorem layerPlace_lt {layer : Nat} (h : layer < cfg.numHiddenLayers) :
    (layerPlace cfg mpu layer).1 < mpu.ppSize ∧
      (layerPlace cfg mpu layer).2.1 < mpu.virtualPpSize ∧
      (layerPlace cfg mpu layer).2.2 < numLayersPerModel cfg mpu := by
  have hlayers : cfg.numHiddenLayers =
      numLayersPerModel cfg mpu * (mpu.ppSize * mpu.virtualPpSize) := by
    unfold numLayersPerModel
    rw [Nat.div_div_eq_div_mul, Nat.div_mul_cancel hdvd]
  rw [hlayers] at h
  have hpos : 0 < numLayersPerModel cfg mpu * (mpu.ppSize * mpu.virtualPpSize) := by omega
  have hn : 0 < numLayersPerModel cfg mpu := Nat.pos_of_mul_pos_right hpos
  have hstages : 0 < mpu.ppSize * mpu.virtualPpSize := Nat.pos_of_mul_pos_left hpos
  have hpp : 0 < mpu.ppSize := Nat.pos_of_mul_pos_right hstages
  refine ⟨Nat.mod_lt _ hpp, ?_, Nat.mod_lt _ hn⟩
  show layer / _ / mpu.ppSize < _
  rw [Nat.div_lt_iff_lt_mul hpp, Nat.div_lt_iff_lt_mul hn, Nat.mul_comm mpu.virtualPpSize,
    Nat.mul_comm _ (numLayersPerModel cfg mpu)]
  exact h

theorem layerMapItems_key {e : Nat × Nat × Nat × Nat} (he : e ∈ layerMapItems cfg mpu) :
    e.1 = (e.2.2.1 * mpu.ppSize + e.2.1) * numLayersPerModel cfg mpu + e.2.2.2 := by
  obtain ⟨-, -, -, hkey⟩ := mem_layerMapItems.1 he
  rw [hkey, numLayers_div_virtualPpSize hdvd, Nat.add_mul, Nat.mul_assoc]

theorem layerPlace_eq {e : Nat × Nat × Nat × Nat} (he : e ∈ layerMapItems cfg mpu) :
    e.2 = layerPlace cfg mpu e.1 := by
  obtain ⟨hpp, -, hidx, -⟩ := mem_layerMapItems.1 he
  have hn : 0 < numLayersPerModel cfg mpu := by omega
  have hdiv : e.1 / numLayersPerModel cfg mpu = e.2.2.1 * mpu.ppSize + e.2.1 := by
    rw [layerMapItems_key hdvd he, Nat.mul_comm, Nat.mul_add_div hn, Nat.div_eq_of_lt hidx,
      Nat.add_zero]
  have hmod : e.1 % numLayersPerModel cfg mpu = e.2.2.2 := by
    rw [layerMapItems_key hdvd he, Nat.mul_comm, Nat.mul_add_mod, Nat.mod_eq_of_lt hidx]
  unfold layerPlace
  dsimp only
  rw [hdiv, hmod, Nat.mul_comm, Nat.mul_add_mod, Nat.mod_eq_of_lt hpp, Nat.mul_add_div (by omega),
    Nat.div_eq_of_lt hpp, Nat.add_zero]

theorem exists_calcLayerMap : ∃ layerMap, calcLayerMap cfg mpu = .ok layerMap ∧
      ∀ layer < cfg.numHiddenLayers, layerMap.lookup layer = some (layerPlace cfg mpu layer) := by
  have hassert := assertLayersDivided_eq_ok.2 hdvd
  refine ⟨_, by unfold calcLayerMap; rw [hassert]; rfl, ?_⟩
  intro layer hlayer
  have hplace := layerPlace_lt hdvd hlayer
  apply KVMap.lookup_foldl_insert
  · intro e he hkey
    rw [← hkey]
    exact layerPlace_eq hdvd he
  · refine .inl ⟨(layer, layerPlace cfg mpu layer), mem_layerMapItems.2 ⟨hplace.1, hplace.2.1,
      hplace.2.2, ?_⟩, rfl⟩
    rw [numLayers_div_virtualPpSize hdvd, ← Nat.mul_assoc, ← Nat.add_mul]
    exact (layerPlace_key layer).symm

end

/-! ## Configurations and weights -/

variable (cfg mpu)

/-- What is divided by what. -/
structure Divides : Prop where
  tpSize_pos : 0 < mpu.tpSize
  ppSize_pos : 0 < mpu.ppSize
  heads_pos : 0 < cfg.numAttentionHeads
  kvHeads_dvd_heads : cfg.numKeyValueHeads ∣ cfg.numAttentionHeads
  tpSize_dvd_heads : mpu.tpSize ∣ cfg.numAttentionHeads
  tpSize_dvd_intermediateSize : mpu.tpSize ∣ cfg.intermediateSize
  tpSize_dvd_vocabSize : mpu.tpSize ∣ cfg.vocabSize
  tpSize_kvHeads : mpu.tpSize ∣ cfg.numKeyValueHeads ∨ cfg.numKeyValueHeads ∣ mpu.tpSize
  numQueryGroups_eq : cfg.numQueryGroups = cfg.numKeyValueHeads

/-- The value of `hidden_size_per_head`. -/
def headSize : Nat := cfg.headDim.getD (cfg.hiddenSize / cfg.numAttentionHeads)

/-- Rows of queries of a query group. -/
def groupQueries : Nat := cfg.numAttentionHeads / cfg.numKeyValueHeads * headSize cfg

variable {cfg mpu}

theorem Divides.hiddenSizePerHead_eq (h : Divides cfg mpu) :
    hiddenSizePerHead cfg = .ok (headSize cfg) := by
  unfold hiddenSizePerHead
  rw [floorDiv_of_pos _ h.heads_pos]
  rfl

theorem Divides.groupQueries_mul (h : Divides cfg mpu) :
    cfg.numKeyValueHeads * groupQueries cfg = headSize cfg * cfg.numAttentionHeads := by
  unfold groupQueries
  rw [← Nat.mul_assoc, Nat.mul_div_cancel' h.kvHeads_dvd_heads, Nat.mul_comm]

theorem Divides.tpSize_dvd_kvHeads (h : Divides cfg mpu) (hle : mpu.tpSize ≤ cfg.numKeyValueHeads) :
    mpu.tpSize ∣ cfg.numKeyValueHeads := by
  rcases h.tpSize_kvHeads with hdvd | hdvd
  · exact hdvd
  · have heq := Nat.le_antisymm hle (Nat.le_of_dvd h.tpSize_pos hdvd)
    exact ⟨1, by rw [heq, Nat.mul_one]⟩

theorem Divides.cutSizes (h : Divides cfg mpu) (hle : mpu.tpSize ≤ cfg.numKeyValueHeads) :
    CutSizes cfg mpu (headSize cfg) (cfg.numKeyValueHeads / mpu.tpSize) (groupQueries cfg) := by
  have hkv := h.tpSize_dvd_kvHeads hle
  refine ⟨h.tpSize_pos, Nat.div_pos hle h.tpSize_pos, ?_, ?_, by rw [h.numQueryGroups_eq]⟩
  · rw [← Nat.mul_assoc, Nat.mul_div_cancel' hkv, h.groupQueries_mul]
  · rw [← Nat.mul_assoc, Nat.mul_div_cancel' hkv, Nat.mul_comm]

variable (cfg mpu)

def Weight.shape : Weight → Nat × Nat
  | qProj => (headSize cfg * cfg.numAttentionHeads, cfg.hiddenSize)
  | kProj | vProj => (headSize cfg * cfg.numKeyValueHeads, cfg.hiddenSize)
  | oProj => (cfg.hiddenSize, headSize cfg * cfg.numAttentionHeads)
  | gateProj | upProj => (cfg.intermediateSize, cfg.hiddenSize)
  | downProj => (cfg.hiddenSize, cfg.intermediateSize)

/-- A state dict with all the weights of the model. -/
structure FullWeights (stateDict : Dict (Tensor2 α)) : Prop where
  embedTokens : ∃ t, stateDict.get? embedTokensName = some t ∧
    t.shape = (cfg.vocabSize, cfg.hiddenSize)
  weight : ∀ layer < cfg.numHiddenLayers, ∀ w : Weight, ∃ t,
    stateDict.get? (w.name layer) = some t ∧ t.shape = w.shape cfg

/-- The dimension along which a parameter is cut over the ranks. -/
def Param.dim : Param → Fin 2
  | linearQkv | linearFc1 => 0
  | linearProj | linearFc2 => 1

/-- What a rank has of it along that dimension. -/
def Param.size : Param → Nat
  | linearQkv => headSize cfg * cfg.numAttentionHeads / mpu.tpSize +
      2 * (if mpu.tpSize ≤ cfg.numKeyValueHeads then
        headSize cfg * cfg.numKeyValueHeads / mpu.tpSize else headSize cfg)
  | linearProj => headSize cfg * cfg.numAttentionHeads / mpu.tpSize
  | linearFc1 => cfg.intermediateSize / mpu.tpSize + cfg.intermediateSize / mpu.tpSize
  | linearFc2 => cfg.intermediateSize / mpu.tpSize

def Param.shape (p : Param) : Nat × Nat :=
  match p.dim with
  | 0 => (p.size cfg mpu, cfg.hiddenSize)
  | 1 => (cfg.hiddenSize, p.size cfg mpu)

/-- Every layer has its parameters, of the shape they have on a rank. -/
def ShapedLayers (ranks : Ranks α) : Prop :=
  ∀ ppRank < mpu.ppSize, ∀ tpRank < mpu.tpSize, ∀ v < mpu.virtualPpSize,
    ∀ idx < numLayersPerModel cfg mpu, ∀ p : Param, ∃ t,
      param (ranks ppRank tpRank) (.layer v idx p) = .ok t ∧ t.shape = p.shape cfg mpu

/-- The models as Megatron builds them for these sizes, with any weights. -/
structure Built (ranks : Ranks α) : Prop where
  layerCounts_eq : ∀ ppRank < mpu.ppSize, ∀ tpRank < mpu.tpSize,
    layerCounts (ranks ppRank tpRank) =
      List.replicate mpu.virtualPpSize (numLayersPerModel cfg mpu)
  wordEmbeddings : ∀ tpRank < mpu.tpSize, ∃ t,
    param (ranks 0 tpRank) .wordEmbeddings = .ok t ∧
      t.shape = (cfg.vocabSize / mpu.tpSize, cfg.hiddenSize)
  layer : ShapedLayers cfg mpu ranks

variable {cfg mpu}

theorem Built.checkRanks_eq {ranks : Ranks α} (h : Built cfg mpu ranks)
    (hdvd : mpu.ppSize * mpu.virtualPpSize ∣ cfg.numHiddenLayers) (layersText : Nat → String) :
    checkRanks cfg mpu layersText ranks = .ok () := by
  apply forM_eq_ok
  intro ppRank hpp
  apply forM_eq_ok
  intro tpRank htp
  have hcounts := h.layerCounts_eq ppRank (mem_range.1 hpp) tpRank (mem_range.1 htp)
  have hlen : (ranks ppRank tpRank).length = mpu.virtualPpSize := by
    have := congrArg length hcounts
    unfold layerCounts at this
    rwa [length_map, length_replicate] at this
  unfold checkModels
  rw [hlen, beq_self_eq_true, assertLayersDivided_eq_ok.2 hdvd, hcounts]
  apply forM_eq_ok
  intro count hcount
  rw [eq_of_mem_replicate hcount, beq_self_eq_true, pyAssert_true]

theorem checkRanks_congr {ranks ranks' : Ranks α}
    (h : ∀ ppRank tpRank, layerCounts (ranks' ppRank tpRank) = layerCounts (ranks ppRank tpRank))
    {layersText : Nat → String} :
    checkRanks cfg mpu layersText ranks' = checkRanks cfg mpu layersText ranks := by
  unfold checkRanks checkModels
  have hlen : ∀ ppRank tpRank, (ranks' ppRank tpRank).length = (ranks ppRank tpRank).length := by
    intro ppRank tpRank
    have := congrArg length (h ppRank tpRank)
    unfold layerCounts at this
    rwa [length_map, length_map] at this
  simp only [h, hlen]

end Verl.Gpt
