import Verl.Models.Loader
import Verl.Models.Saver

/-! # Load and merge (`models/mcore/loader.py`, `models/mcore/saver.py`)

A HuggingFace state dict, loaded into the ranks of a Megatron model and merged back.

* `roundTrips_iff`: the configurations that get their weights back, which are those with a key and
  value head for every tensor-parallel rank; with fewer heads the merge divides by zero. -/

namespace Verl.Gpt

open List

variable {α : Type} {cfg : Config} {mpu : ParallelState}

def layerWeightNames (layer : Nat) : List String := Weight.all.map fun w => w.name layer

/-- The names of the weights that are cut over the ranks. -/
def weightNames (cfg : Config) : List String :=
  embedTokensName :: ((List.range cfg.numHiddenLayers).map layerWeightNames).flatten

/-- The merge of what was loaded has the weights of the state dict under their names, and no
others. -/
def RoundTrips (cfg : Config) (mpu : ParallelState) (a : α) (stateDict : Dict (Tensor2 α))
    (ranks : Ranks α) : Prop :=
  ∃ loaded merged, loadStateDict cfg mpu a stateDict ranks = .ok loaded ∧
    mergeMegatronCkpt cfg mpu loaded = .ok merged ∧
    ∀ name, merged.get? name =
      if name ∈ weightNames cfg then stateDict.get? name else none

/-! ## Names and weights -/

/-- `d'` has the weights `stateDict` has under `names`, and those of `d` under other names. -/
def Adds (stateDict : Dict (Tensor2 α)) (names : List String) (d d' : Dict (Tensor2 α)) : Prop :=
  ∀ name, d'.get? name = if name ∈ names then stateDict.get? name else d.get? name

theorem Adds.insert {stateDict : Dict (Tensor2 α)} {name : String} {t : Tensor2 α}
    (h : stateDict.get? name = some t) (d : Dict (Tensor2 α)) :
    Adds stateDict [name] d (d.insert name t) := by
  intro key
  rw [Dict.get?_insert]
  by_cases hkey : key = name
  · grind
  · grind

theorem Adds.trans {stateDict : Dict (Tensor2 α)} {names names' : List String}
    {d d' d'' : Dict (Tensor2 α)} (h : Adds stateDict names d d')
    (h' : Adds stateDict names' d' d'') : Adds stateDict (names ++ names') d d'' := by
  intro key
  rw [h' key, h key]
  by_cases hkey : key ∈ names'
  · grind
  · grind

/-! ## The merge of what was loaded -/

section Merge

variable (hdiv : Divides cfg mpu) (hle : mpu.tpSize ≤ cfg.numKeyValueHeads)
  {stateDict : Dict (Tensor2 α)} (hweights : FullWeights cfg stateDict)
include hdiv hle hweights

omit hdiv hle hweights in
theorem gatherShards_eq {ranks : Ranks α} {ppRank : Nat} {place : Place} {p : Param}
    {t : Tensor2 α} (h : Holds cfg mpu ranks ppRank place p t) :
    gatherShards mpu ppRank place ranks =
      .ok ((range mpu.tpSize).map (t.pieceAlong (p.size cfg mpu) p.dim)) :=
  mapM_eq_ok_map _ _ _ fun i hi => h i (mem_range.1 hi)

theorem splitQkv_fused {layer : Nat} (hlayer : layer < cfg.numHiddenLayers) {t : Tensor2 α}
    (h : Fused cfg mpu stateDict layer .linearQkv t) :
    ∃ w, splitQkv cfg mpu t = .ok w ∧ stateDict.get? (Weight.qProj.name layer) = some w.q ∧
      stateDict.get? (Weight.kProj.name layer) = some w.k ∧
      stateDict.get? (Weight.vProj.name layer) = some w.v := by
  obtain ⟨q, k, v, hq, hk, hv, hcols, hrows⟩ := h
  obtain ⟨q', hq', hqShape⟩ := hweights.weight layer hlayer .qProj
  obtain ⟨k', hk', hkShape⟩ := hweights.weight layer hlayer .kProj
  obtain ⟨v', hv', hvShape⟩ := hweights.weight layer hlayer .vProj
  cases hq'.symm.trans hq
  cases hk'.symm.trans hk
  cases hv'.symm.trans hv
  obtain ⟨hqLen, hqCols⟩ := Tensor2.shape_eq_iff.1 hqShape
  obtain ⟨hkLen, hkCols⟩ := Tensor2.shape_eq_iff.1 hkShape
  obtain ⟨hvLen, hvCols⟩ := Tensor2.shape_eq_iff.1 hvShape
  rw [← hdiv.groupQueries_mul] at hqLen
  rw [Nat.mul_comm] at hkLen hvLen
  have hgroups := Nat.mul_div_cancel' (hdiv.tpSize_dvd_kvHeads hle)
  have hlen : t.rows.length = mpu.tpSize * (cfg.numKeyValueHeads / mpu.tpSize *
      (groupQueries cfg + 2 * headSize cfg)) := by
    rw [hrows, length_interleave hqLen hkLen hvLen, ← Nat.mul_assoc, hgroups]
  obtain ⟨w, hsplit, hwq, hwk, hwv, hrowsq, hrowsk, hrowsv⟩ :=
    exists_splitCutHeads (hdiv.cutSizes hle) hlen
  rw [hgroups, hrows] at hrowsq hrowsk hrowsv
  rw [queries_interleave hqLen hkLen hvLen] at hrowsq
  rw [keys_interleave hqLen hkLen hvLen] at hrowsk
  rw [values_interleave hqLen hkLen hvLen] at hrowsv
  refine ⟨w, ?_, ?_, ?_, ?_⟩
  · unfold splitQkv
    rw [hdiv.hiddenSizePerHead_eq, ok_bind, if_pos hle, hsplit]
  · rw [hq, Tensor2.ext (hqCols.trans (hcols.symm.trans hwq.symm)) hrowsq.symm]
  · rw [hk, Tensor2.ext (hkCols.trans (hcols.symm.trans hwk.symm)) hrowsk.symm]
  · rw [hv, Tensor2.ext (hvCols.trans (hcols.symm.trans hwv.symm)) hrowsv.symm]

omit hle in
theorem splitGateUp_fused {layer : Nat} (hlayer : layer < cfg.numHiddenLayers) {t : Tensor2 α}
    (h : Fused cfg mpu stateDict layer .linearFc1 t) :
    ∃ gate up, splitGateUp cfg mpu t = .ok (gate, up) ∧
      stateDict.get? (Weight.gateProj.name layer) = some gate ∧
      stateDict.get? (Weight.upProj.name layer) = some up := by
  obtain ⟨gate, up, hgate, hup, hcols, hrows⟩ := h
  obtain ⟨gate', hgate', hgateShape⟩ := hweights.weight layer hlayer .gateProj
  obtain ⟨up', hup', hupShape⟩ := hweights.weight layer hlayer .upProj
  cases hgate'.symm.trans hgate
  cases hup'.symm.trans hup
  obtain ⟨hgateLen, hgateCols⟩ := Tensor2.shape_eq_iff.1 hgateShape
  obtain ⟨hupLen, hupCols⟩ := Tensor2.shape_eq_iff.1 hupShape
  have hinter := (Nat.mul_div_cancel' hdiv.tpSize_dvd_intermediateSize).symm
  obtain ⟨g, u, hsplit, hgCols, huCols, hgRows, huRows⟩ :=
    exists_splitGateUp t hdiv.tpSize_pos hinter
  rw [hrows, firsts_interleavePairs (hgateLen.trans hinter) (hupLen.trans hinter)] at hgRows
  rw [hrows, seconds_interleavePairs (hgateLen.trans hinter) (hupLen.trans hinter)] at huRows
  refine ⟨g, u, hsplit, ?_, ?_⟩
  · rw [hgate, Tensor2.ext (hgateCols.trans (hcols.symm.trans hgCols.symm)) hgRows.symm]
  · rw [hup, Tensor2.ext (hupCols.trans (hcols.symm.trans huCols.symm)) huRows.symm]

/-- The pieces of a fused weight, put together. -/
theorem catAlong_fused {layer : Nat} (hlayer : layer < cfg.numHiddenLayers) {p : Param}
    {t : Tensor2 α} (h : Fused cfg mpu stateDict layer p t) :
    Tensor2.catAlong ((range mpu.tpSize).map (t.pieceAlong (p.size cfg mpu) p.dim)) p.dim =
      .ok t := by
  have hshape := Fused.shape_eq hdiv hle hweights hlayer h
  apply Tensor2.catAlong_pieces hdiv.tpSize_pos
  cases p with
  | linearQkv | linearFc1 => exact (Tensor2.shape_eq_iff.1 hshape).1
  | linearProj | linearFc2 => exact (Tensor2.shape_eq_iff.1 hshape).2

section Layer

variable {layer : Nat} (hlayer : layer < cfg.numHiddenLayers) {ranks : Ranks α} {ppRank : Nat}
  {place : Place} {t : Tensor2 α}
include hlayer

theorem exists_mergeTpShardTensor {p : Param} {name : String}
    (hfused : Fused cfg mpu stateDict layer p t) (hholds : Holds cfg mpu ranks ppRank place p t)
    (hname : stateDict.get? name = some t) (d : Dict (Tensor2 α)) :
    ∃ d', mergeTpShardTensor mpu ranks place name ppRank p.dim d = .ok d' ∧
      Adds stateDict [name] d d' := by
  refine ⟨_, ?_, Adds.insert hname d⟩
  unfold mergeTpShardTensor
  rw [gatherShards_eq hholds, ok_bind, catAlong_fused hdiv hle hweights hlayer hfused]
  rfl

theorem exists_mergeTpShardTensorQkv (hfused : Fused cfg mpu stateDict layer .linearQkv t)
    (hholds : Holds cfg mpu ranks ppRank place .linearQkv t) (d : Dict (Tensor2 α)) :
    ∃ d', mergeTpShardTensorQkv cfg mpu ranks place (Weight.qProj.name layer)
        (Weight.kProj.name layer) (Weight.vProj.name layer) ppRank d = .ok d' ∧
      Adds stateDict (([Weight.qProj.name layer] ++ [Weight.kProj.name layer]) ++
        [Weight.vProj.name layer]) d d' := by
  obtain ⟨w, hsplit, hq, hk, hv⟩ := splitQkv_fused hdiv hle hweights hlayer hfused
  refine ⟨_, ?_, ((Adds.insert hq d).trans (Adds.insert hk _)).trans (Adds.insert hv _)⟩
  have hcat : Tensor2.cat _ = _ := catAlong_fused hdiv hle hweights hlayer hfused
  unfold mergeTpShardTensorQkv
  rw [gatherShards_eq hholds, ok_bind, hcat, ok_bind, hsplit]
  rfl

theorem exists_mergeTpShardTensorGateUp (hfused : Fused cfg mpu stateDict layer .linearFc1 t)
    (hholds : Holds cfg mpu ranks ppRank place .linearFc1 t) (d : Dict (Tensor2 α)) :
    ∃ d', mergeTpShardTensorGateUp cfg mpu ranks place (Weight.gateProj.name layer)
        (Weight.upProj.name layer) ppRank d = .ok d' ∧
      Adds stateDict ([Weight.gateProj.name layer] ++ [Weight.upProj.name layer]) d d' := by
  obtain ⟨gate, up, hsplit, hgate, hup⟩ := splitGateUp_fused hdiv hweights hlayer hfused
  refine ⟨_, ?_, (Adds.insert hgate d).trans (Adds.insert hup _)⟩
  have hcat : Tensor2.cat _ = _ := catAlong_fused hdiv hle hweights hlayer hfused
  unfold mergeTpShardTensorGateUp
  rw [gatherShards_eq hholds, ok_bind, hcat, ok_bind, hsplit]
  rfl

theorem exists_mergeLayer {layerMap : KVMap Nat (Nat × Nat × Nat)}
    (hmap : layerMap.lookup layer = some (layerPlace cfg mpu layer))
    (hloaded : LayerLoaded cfg mpu stateDict ranks layer) (d : Dict (Tensor2 α)) :
    ∃ d', mergeLayer cfg mpu ranks layerMap d layer = .ok d' ∧
      Adds stateDict (layerWeightNames layer) d d' := by
  obtain ⟨qkv, hqkv, hqkvHolds⟩ := hloaded .linearQkv
  obtain ⟨o, ho, hoHolds⟩ := hloaded .linearProj
  obtain ⟨gateUp, hgateUp, hgateUpHolds⟩ := hloaded .linearFc1
  obtain ⟨down, hdown, hdownHolds⟩ := hloaded .linearFc2
  obtain ⟨d₁, hmerge₁, hadds₁⟩ :=
    exists_mergeTpShardTensorQkv hdiv hle hweights hlayer hqkv hqkvHolds d
  obtain ⟨d₂, hmerge₂, hadds₂⟩ :=
    exists_mergeTpShardTensor hdiv hle hweights hlayer ho hoHolds ho d₁
  obtain ⟨d₃, hmerge₃, hadds₃⟩ :=
    exists_mergeTpShardTensorGateUp hdiv hle hweights hlayer hgateUp hgateUpHolds d₂
  obtain ⟨d₄, hmerge₄, hadds₄⟩ :=
    exists_mergeTpShardTensor hdiv hle hweights hlayer hdown hdownHolds hdown d₃
  refine ⟨d₄, ?_, ((hadds₁.trans hadds₂).trans hadds₃).trans hadds₄⟩
  unfold mergeLayer getLayerPlace
  rw [hmap, ok_bind]
  exact bind_eq_ok.2 ⟨d₁, hmerge₁, bind_eq_ok.2 ⟨d₂, hmerge₂,
    bind_eq_ok.2 ⟨d₃, hmerge₃, hmerge₄⟩⟩⟩

end Layer

omit hle in
theorem exists_mergeLayers
    (hle : 0 < cfg.numHiddenLayers → mpu.tpSize ≤ cfg.numKeyValueHeads) {layerMap : KVMap Nat (Nat × Nat × Nat)}
    (hmap : ∀ layer < cfg.numHiddenLayers, layerMap.lookup layer = some (layerPlace cfg mpu layer))
    {ranks : Ranks α}
    (hloaded : ∀ layer < cfg.numHiddenLayers, LayerLoaded cfg mpu stateDict ranks layer)
    (d : Dict (Tensor2 α)) {k : Nat} (hk : k ≤ cfg.numHiddenLayers) :
    ∃ d', (range k).foldlM (mergeLayer cfg mpu ranks layerMap) d = .ok d' ∧
      Adds stateDict ((range k).map layerWeightNames).flatten d d' := by
  induction k with
  | zero => exact ⟨d, rfl, fun _ => rfl⟩
  | succ k ih =>
    obtain ⟨d₁, hfold, hadds⟩ := ih (by omega)
    obtain ⟨d₂, hstep, hadds'⟩ :=
      exists_mergeLayer hdiv (hle (by omega)) hweights hk (hmap k hk) (hloaded k hk) d₁
    refine ⟨d₂, ?_, ?_⟩
    · rw [range_succ, foldlM_append, hfold, ok_bind, foldlM_cons, hstep]
      rfl
    · rw [range_succ, map_append, flatten_append]
      exact hadds.trans hadds'

omit hle in
/-- With a key and value head for every rank, the weights come back. -/
theorem roundTrips_of_le (a : α) (hle : 0 < cfg.numHiddenLayers → mpu.tpSize ≤ cfg.numKeyValueHeads)
    (hdvd : mpu.ppSize * mpu.virtualPpSize ∣ cfg.numHiddenLayers) {ranks : Ranks α}
    (hbuilt : Built cfg mpu ranks) : RoundTrips cfg mpu a stateDict ranks := by
  obtain ⟨loaded, hload, ⟨embed, hembed, hshards⟩, hlayers, hcounts⟩ :=
    exists_loadStateDict hdiv hweights a hle hdvd hbuilt
  obtain ⟨embed', hembed', hshape⟩ := hweights.embedTokens
  cases hembed'.symm.trans hembed
  obtain ⟨layerMap, hlayerMap, hmap⟩ := exists_calcLayerMap hdvd
  obtain ⟨merged, hmerge, hadds⟩ := exists_mergeLayers hdiv hweights hle hmap hlayers
    (Dict.empty.insert embedTokensName embed) (Nat.le_refl _)
  refine ⟨loaded, merged, hload, ?_, ?_⟩
  · have hcat : Tensor2.cat ((range mpu.tpSize).map
        (embed.pieceAlong (cfg.vocabSize / mpu.tpSize) 0)) = .ok embed := by
      apply Tensor2.cat_slices hdiv.tpSize_pos
      rw [Nat.mul_div_cancel' hdiv.tpSize_dvd_vocabSize]
      exact (Tensor2.shape_eq_iff.1 hshape).1
    have hgather : gatherShards mpu 0 .wordEmbeddings loaded =
        .ok ((range mpu.tpSize).map (embed.pieceAlong (cfg.vocabSize / mpu.tpSize) 0)) :=
      mapM_eq_ok_map _ _ _ fun i hi => hshards i (mem_range.1 hi)
    unfold mergeMegatronCkpt mergeTpShardTensor
    rw [checkRanks_congr hcounts, hbuilt.checkRanks_eq hdvd, hgather, hlayerMap]
    show (Tensor2.cat _ >>= _) >>= _ = _
    rw [hcat]
    exact hmerge
  · intro name
    have hembedAdds := Adds.insert hembed Dict.empty
    rw [(hembedAdds.trans hadds) name]
    rfl

end Merge

/-- The ranks share key and value heads: nothing can be merged. -/
theorem not_mergeMegatronCkpt (htp : 0 < mpu.tpSize) (hlt : cfg.numKeyValueHeads < mpu.tpSize)
    (hgroups : cfg.numQueryGroups = cfg.numKeyValueHeads) (hlayers : 0 < cfg.numHiddenLayers)
    (ranks : Ranks α) (merged : Dict (Tensor2 α)) :
    mergeMegatronCkpt cfg mpu ranks ≠ .ok merged := by
  intro h
  obtain ⟨_, -, h⟩ := bind_eq_ok.1 h
  obtain ⟨_, -, h⟩ := bind_eq_ok.1 h
  obtain ⟨_, -, h⟩ := bind_eq_ok.1 h
  obtain ⟨d, d', hlayer⟩ := exists_of_foldlM h (mem_range.2 hlayers)
  obtain ⟨_, -, hlayer⟩ := bind_eq_ok.1 hlayer
  obtain ⟨_, hqkv, -⟩ := bind_eq_ok.1 hlayer
  obtain ⟨_, -, hqkv⟩ := bind_eq_ok.1 hqkv
  obtain ⟨_, -, hqkv⟩ := bind_eq_ok.1 hqkv
  obtain ⟨w, hsplit, -⟩ := bind_eq_ok.1 hqkv
  obtain ⟨hd, -, hsplit⟩ := bind_eq_ok.1 hsplit
  rw [if_neg (Nat.not_le_of_lt hlt)] at hsplit
  exact not_splitSharedHeads htp (hgroups ▸ hlt) w hsplit

theorem dvd_of_loadStateDict {a : α} {stateDict : Dict (Tensor2 α)} {ranks loaded : Ranks α}
    (h : loadStateDict cfg mpu a stateDict ranks = .ok loaded) :
    mpu.ppSize * mpu.virtualPpSize ∣ cfg.numHiddenLayers := by
  obtain ⟨_, -, h⟩ := bind_eq_ok.1 h
  obtain ⟨_, -, h⟩ := bind_eq_ok.1 h
  obtain ⟨_, hmap, -⟩ := bind_eq_ok.1 h
  obtain ⟨_, hassert, -⟩ := bind_eq_ok.1 hmap
  exact assertLayersDivided_eq_ok.1 hassert

/-- Loading and merging gives a full state dict back exactly when the stages divide the layers, as
both functions assert, and every tensor-parallel rank has a key and value head of its own. -/
theorem roundTrips_iff (hdiv : Divides cfg mpu) (a : α) {stateDict : Dict (Tensor2 α)}
    (hweights : FullWeights cfg stateDict) {ranks : Ranks α} (hbuilt : Built cfg mpu ranks) :
    RoundTrips cfg mpu a stateDict ranks ↔
      mpu.ppSize * mpu.virtualPpSize ∣ cfg.numHiddenLayers ∧
        (cfg.numHiddenLayers = 0 ∨ mpu.tpSize ≤ cfg.numKeyValueHeads) := by
  constructor
  · rintro ⟨loaded, merged, hload, hmerge, -⟩
    refine ⟨dvd_of_loadStateDict hload, ?_⟩
    by_contra hnot
    exact not_mergeMegatronCkpt hdiv.tpSize_pos (by omega) hdiv.numQueryGroups_eq (by omega) loaded
      merged hmerge
  · rintro ⟨hdvd, hle⟩
    exact roundTrips_of_le hdiv hweights a (fun hpos => by omega) hdvd hbuilt

/-! ## Two ranks -/

def zeroItems (cfg : Config) : List (String × Tensor2 Nat) :=
  (embedTokensName, Tensor2.full cfg.vocabSize cfg.hiddenSize 0) ::
    Weight.all.map fun w => (w.name 0, Tensor2.full (w.shape cfg).1 (w.shape cfg).2 0)

/-- The weights of a model of one layer, all entries of which are 0. -/
def zeroWeights (cfg : Config) : Dict (Tensor2 Nat) := Dict.ofItems (zeroItems cfg)

/-- The models of every rank, all entries of which are 0. -/
def zeroRanks (cfg : Config) (mpu : ParallelState) : Ranks Nat := fun _ _ =>
  let zero (p : Param) := Tensor2.full (p.shape cfg mpu).1 (p.shape cfg mpu).2 0
  List.replicate mpu.virtualPpSize {
    wordEmbeddings := some (Tensor2.full (cfg.vocabSize / mpu.tpSize) cfg.hiddenSize 0)
    layers := List.replicate (numLayersPerModel cfg mpu) {
      linearQkv := zero .linearQkv
      linearProj := zero .linearProj
      linearFc1 := zero .linearFc1
      linearFc2 := zero .linearFc2 } }

theorem shape_full (n cols : Nat) (a : α) : (Tensor2.full n cols a).shape = (n, cols) :=
  Tensor2.shape_eq_iff.2 ⟨length_replicate, rfl⟩

theorem nodup_zeroItems : ((zeroItems cfg).map Prod.fst).Nodup := by
  have hnames : (embedTokensName :: layerWeightNames 0).Nodup := by decide
  exact hnames

theorem get?_zeroWeights {name : String} {t : Tensor2 Nat} (h : (name, t) ∈ zeroItems cfg) :
    (zeroWeights cfg).get? name = some t := by
  unfold zeroWeights
  rw [Dict.get?_ofItems nodup_zeroItems]
  exact Dict.get?_eq_some (d := { items := zeroItems cfg, nodup := nodup_zeroItems }) h

theorem fullWeights_zeroWeights (h : cfg.numHiddenLayers = 1) :
    FullWeights cfg (zeroWeights cfg) := by
  constructor
  · have hmem : (embedTokensName, Tensor2.full cfg.vocabSize cfg.hiddenSize 0) ∈ zeroItems cfg :=
      mem_cons_self
    exact ⟨_, get?_zeroWeights hmem, shape_full _ _ _⟩
  · intro layer hlayer w
    obtain rfl : layer = 0 := by omega
    have hmem : (w.name 0, Tensor2.full (w.shape cfg).1 (w.shape cfg).2 0) ∈ zeroItems cfg :=
      mem_cons_of_mem _ (mem_map.2 ⟨w, w.mem_all, rfl⟩)
    exact ⟨_, get?_zeroWeights hmem, shape_full _ _ _⟩

theorem built_zeroRanks (cfg : Config) (mpu : ParallelState) :
    Built cfg mpu (zeroRanks cfg mpu) := by
  have hmodel : ∀ v < mpu.virtualPpSize, ∀ m : GptModel Nat,
      (replicate mpu.virtualPpSize m)[v]? = some m := fun v hv m => by
    rw [getElem?_replicate, if_pos hv]
  refine ⟨?_, ?_, ?_⟩
  · intro ppRank _ tpRank _
    unfold layerCounts zeroRanks
    rw [map_replicate, length_replicate]
  · intro tpRank _
    exact ⟨_, param_wordEmbeddings_eq_ok.2 ⟨_, hmodel 0 mpu.virtualPpSize_pos _, rfl⟩,
      shape_full _ _ _⟩
  · intro ppRank _ tpRank _ v hv idx hidx p
    have hlayer : ∀ l : DecoderLayer Nat,
        (replicate (numLayersPerModel cfg mpu) l)[idx]? = some l := fun l => by
      rw [getElem?_replicate, if_pos hidx]
    refine ⟨_, param_layer_eq_ok.2 ⟨_, hmodel v hv _, _, hlayer _, rfl⟩, ?_⟩
    cases p <;> exact shape_full _ _ _

def twoRanks : ParallelState where
  tpSize := 2
  ppSize := 1
  dpSize := 1
  cpSize := 1
  virtualPipelineSize := none

def twoGroups : Config where
  numHiddenLayers := 1
  numAttentionHeads := 4
  numKeyValueHeads := 2
  hiddenSize := 8
  intermediateSize := 6
  vocabSize := 4
  headDim := none
  numQueryGroups := 2

theorem roundTrips_twoGroups :
    RoundTrips twoGroups twoRanks 0 (zeroWeights twoGroups) (zeroRanks twoGroups twoRanks) :=
  (roundTrips_iff ⟨by decide, by decide, by decide, by decide, by decide, by decide, by decide,
    .inl (by decide), rfl⟩ 0 (fullWeights_zeroWeights rfl) (built_zeroRanks _ _)).2
    ⟨by decide, .inr (by decide)⟩

def sharedHead : Config where
  numHiddenLayers := 1
  numAttentionHeads := 2
  numKeyValueHeads := 1
  hiddenSize := 4
  intermediateSize := 2
  vocabSize := 2
  headDim := none
  numQueryGroups := 1

/-- The two ranks share the one key and value head. -/
theorem not_roundTrips_sharedHead :
    Divides sharedHead twoRanks ∧ FullWeights sharedHead (zeroWeights sharedHead) ∧
      Built sharedHead twoRanks (zeroRanks sharedHead twoRanks) ∧
      twoRanks.ppSize * twoRanks.virtualPpSize ∣ sharedHead.numHiddenLayers ∧
        ¬RoundTrips sharedHead twoRanks 0 (zeroWeights sharedHead)
          (zeroRanks sharedHead twoRanks) := by
  refine ⟨⟨by decide, by decide, by decide, by decide, by decide, by decide, by decide,
    .inr (by decide), rfl⟩, fullWeights_zeroWeights rfl, built_zeroRanks _ _, by decide, ?_⟩
  rintro ⟨loaded, merged, -, hmerge, -⟩
  exact not_mergeMegatronCkpt (by decide) (by decide) rfl (by decide) loaded merged hmerge

end Verl.Gpt
