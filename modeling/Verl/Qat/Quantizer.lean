import Verl.Lib.Runs
import Verl.Qat.FakeQuantKernel
import Verl.Qat.FusedScales

/-! # The export of quantised weights (`verl/utils/qat/quantizer.py`)

The exporter reads the parameters in the order of the state dict.  It keeps the ones of a decoder
layer until one of another layer comes, and quantises them then, so that projections can share a
scale.

    layers.0.self_attn.q_proj.weight        weight_packed, weight_scale, weight_global_scale
    layers.0.self_attn.k_proj.weight        ...
    layers.0.input_layernorm.weight         as it is
    layers.1. ...                           layer 0 is written

* `quantizeWithFusion`: the loop.
* `quantizeWithFusion_eq`: it writes the runs of parameters of a layer, one after the other.
* `mem_processLayerGroup`: what is written for the weights that are packed. -/

namespace Verl.Qat

open List

/-! ## Algorithm -/

/-- A tensor with its shape, and its entries if it has two dimensions. -/
structure Param where
  shape : List Nat
  entry : Nat → Nat → ℚ

structure QatConfig where
  groupSize : Nat
  ignorePatterns : List String

/-- The tensors that are written. -/
inductive Exported
  | weightPacked (values : Nat → Nat → ℚ)
  | weightScale (scale : Nat → Nat → ℚ)
  | weightGlobalScale (globalScale : ℚ)
  | passed (tensor : Param)

section Blocks

variable (groupSize : Nat)

/-- `generate_gparam` of a tensor with this amax. -/
def generateGparam (amax : ℚ) : ℚ := 448 * 6 / amax

/-- The FP8 scale of a block with this largest absolute value. -/
def blockwiseScale (globalScale blockMax : ℚ) : ℚ :=
  let localScale := blockMax / 6
  let blockwiseScale := e4m3.round (min (max (globalScale * localScale) (-448)) 448)
  if blockwiseScale = 0 then 1 / 8 else blockwiseScale

/-- `compute_blockwise_scale`: the scale of block `b` of row `i`. -/
def computeBlockwiseScale (x : Nat → Nat → ℚ) (globalScale : ℚ) (i b : Nat) : ℚ :=
  blockwiseScale globalScale (blockMax groupSize x i b)

/-- A number in FP4. -/
def castToFp4 (x : ℚ) : ℚ := if 0 ≤ x then qVal |x| else -qVal |x|

/-- The values that `compress_weight` packs. -/
def compressWeight (x : Nat → Nat → ℚ) (scale : Nat → Nat → ℚ) (globalScale : ℚ) (i j : Nat) : ℚ :=
  castToFp4 (x i j * globalScale / scale i (j / groupSize))

end Blocks

/-- The entries of a matrix. -/
def matrixEntries (m n : Nat) (x : Nat → Nat → ℚ) : List ℚ :=
  (List.range m).flatMap fun i => (List.range n).map fun j => x i j

/-- `torch.amax(torch.abs(weight))`, which raises if there is no entry. -/
def torchAmax (p : Param) : Except PyErr ℚ :=
  match p.shape with
  | [m, n] =>
    if m = 0 ∨ n = 0 then .error (.runtimeError "amax(): Expected reduction dim to be specified")
    else .ok (amax (matrixEntries m n p.entry))
  | _ => .error (.runtimeError "not a matrix")

/-- `_LAYER_IDX_RE`, at the beginning of a string. -/
def layerIdxAt (s : List Char) : Option Nat :=
  let digits := (s.drop 7).takeWhile Char.isDigit
  if "layers.".toList.isPrefixOf s ∧ digits ≠ [] ∧ (s.drop (7 + digits.length)).head? = some '.'
  then some (Nat.ofDigitChars 10 digits 0)
  else none

/-- `_extract_layer_idx`. -/
def extractLayerIdx (name : String) : Option Nat := name.toList.tails.findSome? layerIdxAt

/-- `name.rsplit(".weight", 1)[0]`, of a name with this end. -/
def layerNameOf (name : String) : String := String.ofList (name.toList.take (name.toList.length - 7))

variable (reMatch : String → String → Bool)

/-- The loop over the patterns, with `re.match` as `reMatch`. -/
def ignored (patterns : List String) (name : String) : Bool :=
  patterns.any fun pattern =>
    if "re:".toList.isPrefixOf pattern.toList then
      reMatch (String.ofList (pattern.toList.drop 3)) name
    else pyIn pattern.toList name.toList

/-- `ignore_patterns or [...]`: an empty list is no list. -/
def orDefault (ignorePatterns : List String) : List String :=
  if ignorePatterns = [] then [ "lm_head", "embed_tokens", "re:.*mlp.gate$"] else ignorePatterns

variable (c : QatConfig)

/-- `QATQuantizer._should_quantize`. -/
def shouldQuantizeParam (name : String) (shape : List Nat) : Bool :=
  match shape with
  | [_, inFeatures] =>
    endsWith name ".weight" && inFeatures % c.groupSize == 0 &&
      !ignored reMatch (orDefault c.ignorePatterns) (layerNameOf name)
  | _ => false

/-- The scales of activations are not handed on. -/
def isActivationScale (name : String) : Bool :=
  pyIn "input_global_scale".toList name.toList || pyIn "input_amax".toList name.toList

/-- The parameter goes to `layer_weights`. -/
def isLayerWeight (name : String) (shape : List Nat) : Bool :=
  !isActivationScale name && shouldQuantizeParam reMatch c name shape

/-- What is written for a weight. -/
def exportWeight (layerName : String) (x : Nat → Nat → ℚ) (globalScale : ℚ) :
    List (String × Exported) :=
  let weightScale := computeBlockwiseScale c.groupSize x globalScale
  [ (layerName ++ ".weight_packed",
      .weightPacked (compressWeight c.groupSize x weightScale globalScale)),
    (layerName ++ ".weight_scale", .weightScale weightScale),
    (layerName ++ ".weight_global_scale", .weightGlobalScale globalScale)]

/-- `_process_layer_group`. -/
def processLayerGroup (layerIdx : Option Nat) (layerParams : List (String × Param)) :
    Except PyErr (List (String × Exported)) :=
  let layerWeights := (layerParams.filter fun p => isLayerWeight reMatch c p.1 p.2.shape).map
    fun p => (layerNameOf p.1, p.2)
  let layerPassthrough := (layerParams.filter fun p =>
    !isActivationScale p.1 && !shouldQuantizeParam reMatch c p.1 p.2.shape).map
      fun p => (p.1, Exported.passed p.2)
  if layerIdx = none ∧ layerWeights ≠ [] then
    .error (.runtimeError ("[QAT Quantizer] Unexpected quantizable weights outside decoder layers: "
      ++ toString (layerWeights.map Prod.fst) ++ ". These should be in ignore_patterns."))
  else if layerWeights = [] then .ok layerPassthrough
  else do
    let layerGlobalScales ← layerWeights.mapM fun p =>
      (torchAmax p.2).map fun amax => (p.1, generateGparam amax)
    let fusedGlobalScales := fuseGlobalScales (Dict.ofItems layerGlobalScales)
    let results := layerWeights.flatMap fun p =>
      -- the scale is there, `get?_fuseGlobalScales`
      exportWeight c p.1 p.2.entry ((fusedGlobalScales.get? p.1).getD 0)
    pure (results ++ layerPassthrough)

/-- The state of the loop; the names of a state dict differ, and the buffer is a list. -/
structure Stream where
  currentLayerIdx : Option (Option Nat)
  layerBuffer : List (String × Param)
  results : List (String × Exported)

/-- The body of the loop. -/
def consume (s : Stream) (p : String × Param) : Except PyErr Stream := do
  let layerIdx := extractLayerIdx p.1
  match s.currentLayerIdx with
  | some current =>
    if layerIdx ≠ current ∧ s.layerBuffer ≠ [] then do
      let flushed ← processLayerGroup reMatch c current s.layerBuffer
      pure ⟨some layerIdx, [p], s.results ++ flushed⟩
    else pure ⟨some layerIdx, s.layerBuffer ++ [p], s.results⟩
  | none => pure ⟨some layerIdx, s.layerBuffer ++ [p], s.results⟩

/-- The last layer. -/
def flushLast (s : Stream) : Except PyErr (List (String × Exported)) :=
  match s.currentLayerIdx with
  | some current =>
    if s.layerBuffer ≠ [] then do
      let flushed ← processLayerGroup reMatch c current s.layerBuffer
      pure (s.results ++ flushed)
    else pure s.results
  | none => pure s.results

/-- `quantize_with_fusion`. -/
def quantizeWithFusion (params : List (String × Param)) : Except PyErr (List (String × Exported)) :=
  do
    let s ← params.foldlM (consume reMatch c) ⟨none, [], []⟩
    flushLast reMatch c s

/-! ## The loop -/

variable {reMatch c}

/-- What is written for the runs. -/
def exportRuns (reMatch : String → String → Bool) (c : QatConfig)
    (runs : List (Option Nat × List (String × Param))) : Except PyErr (List (String × Exported)) :=
  (runs.mapM fun r => processLayerGroup reMatch c r.1 r.2).map List.flatten

theorem exportRuns_cons (r : Option Nat × List (String × Param))
    (runs : List (Option Nat × List (String × Param))) :
    exportRuns reMatch c (r :: runs) = (do
      let flushed ← processLayerGroup reMatch c r.1 r.2
      let rest ← exportRuns reMatch c runs
      pure (flushed ++ rest)) := by
  unfold exportRuns
  rw [mapM_cons]
  cases processLayerGroup reMatch c r.1 r.2 with
  | error e => rfl
  | ok flushed =>
    cases runs.mapM fun r => processLayerGroup reMatch c r.1 r.2 with
    | error e => rfl
    | ok rest => rfl

theorem foldlM_consume (current : Option Nat) {buffer : List (String × Param)} (hne : buffer ≠ [])
    (results : List (String × Exported)) (params : List (String × Param)) :
    (do
      let s ← params.foldlM (consume reMatch c) ⟨some current, buffer, results⟩
      flushLast reMatch c s) =
    (exportRuns reMatch c (keyRunsFrom (fun p => extractLayerIdx p.1) current buffer params)).map
      fun rest => results ++ rest := by
  induction params generalizing current buffer results with
  | nil =>
    rw [keyRunsFrom, exportRuns_cons]
    show flushLast reMatch c ⟨some current, buffer, results⟩ = _
    unfold flushLast
    dsimp only
    rw [if_pos hne]
    cases processLayerGroup reMatch c current buffer with
    | error e => rfl
    | ok flushed =>
      show Except.ok (results ++ flushed) = Except.ok (results ++ (flushed ++ []))
      rw [append_nil]
  | cons p params ih =>
    rw [foldlM_cons]
    unfold keyRunsFrom consume
    dsimp only
    by_cases heq : extractLayerIdx p.1 = current
    · rw [if_neg fun h => h.1 heq, if_pos heq, heq]
      exact ih current (by simp) results
    · rw [if_pos ⟨heq, hne⟩, if_neg heq, exportRuns_cons]
      cases processLayerGroup reMatch c current buffer with
      | error e => rfl
      | ok flushed =>
        have hrest := ih (extractLayerIdx p.1) (cons_ne_nil p []) (results ++ flushed)
        refine Eq.trans hrest ?_
        cases exportRuns reMatch c
            (keyRunsFrom (fun p => extractLayerIdx p.1) (extractLayerIdx p.1) [p] params) with
        | error e => rfl
        | ok rest => exact congrArg Except.ok (append_assoc results flushed rest)

theorem quantizeWithFusion_eq (params : List (String × Param)) :
    quantizeWithFusion reMatch c params =
      exportRuns reMatch c (keyRuns (fun p => extractLayerIdx p.1) params) := by
  cases params with
  | nil => rfl
  | cons p params =>
    refine (foldlM_consume (extractLayerIdx p.1) (cons_ne_nil p []) [] params).trans ?_
    unfold keyRuns
    cases exportRuns reMatch c
        (keyRunsFrom (fun p => extractLayerIdx p.1) (extractLayerIdx p.1) [p] params) <;> rfl

/-! ## A layer -/

theorem append_weight_toList (name : String) :
    (name ++ ".weight").toList = name.toList ++ ".weight".toList := String.toList_append

theorem layerNameOf_append (name : String) : layerNameOf (name ++ ".weight") = name := by
  have hlen : (name ++ ".weight").toList.length - 7 = name.toList.length := by simp
  unfold layerNameOf
  rw [hlen, append_weight_toList, take_left, String.ofList_toList]

theorem endsWith_append (name : String) : endsWith (name ++ ".weight") ".weight" = true := by
  unfold endsWith
  rw [append_weight_toList, isSuffixOf_iff_suffix]
  exact suffix_append _ _

theorem layerNameOf_weight {name : String} (h : endsWith name ".weight" = true) :
    layerNameOf name ++ ".weight" = name := by
  obtain ⟨front, hfront⟩ := isSuffixOf_iff_suffix.1 h
  have hname : name = String.ofList front ++ ".weight" := by
    apply String.toList_injective
    rw [append_weight_toList, String.toList_ofList, hfront]
  rw [hname, layerNameOf_append]

variable (reMatch c)

/-- The layers that are packed. -/
def packedNames (entries : List (String × List Nat)) : List String :=
  (entries.filter fun e => isLayerWeight reMatch c e.1 e.2).map fun e => layerNameOf e.1

/-- The parameters of these layers. -/
def layerWeightsOf (params : List (String × Param)) : List (String × Param) :=
  params.filter fun p => isLayerWeight reMatch c p.1 p.2.shape

def passthroughOf (params : List (String × Param)) : List (String × Exported) :=
  (params.filter fun p =>
    !isActivationScale p.1 && !shouldQuantizeParam reMatch c p.1 p.2.shape).map
      fun p => (p.1, Exported.passed p.2)

variable {reMatch c}

theorem isLayerWeight_iff {name : String} {shape : List Nat} :
    isLayerWeight reMatch c name shape = true ↔ isActivationScale name = false ∧
      endsWith name ".weight" = true ∧ (∃ m n, shape = [m, n] ∧ n % c.groupSize = 0) ∧
        ignored reMatch (orDefault c.ignorePatterns) (layerNameOf name) = false := by
  unfold isLayerWeight shouldQuantizeParam
  constructor
  · grind
  · grind

theorem map_layerNameOf_layerWeightsOf (params : List (String × Param)) :
    (layerWeightsOf reMatch c params).map (fun p => layerNameOf p.1) =
      packedNames reMatch c (params.map fun p => (p.1, p.2.shape)) := by
  unfold packedNames
  rw [filter_map, map_map]
  rfl

variable {entries : List (String × List Nat)}

theorem mem_packedNames {name : String} :
    name ∈ packedNames reMatch c entries ↔
      ∃ shape, (name ++ ".weight", shape) ∈ entries ∧
        isLayerWeight reMatch c (name ++ ".weight") shape = true := by
  unfold packedNames
  rw [mem_map]
  constructor
  · rintro ⟨e, he, rfl⟩
    obtain ⟨he, hweight⟩ := mem_filter.1 he
    have hends := (isLayerWeight_iff.1 hweight).2.1
    refine ⟨e.2, ?_⟩
    rw [layerNameOf_weight hends]
    exact ⟨he, hweight⟩
  · rintro ⟨shape, he, hweight⟩
    exact ⟨_, mem_filter.2 ⟨he, hweight⟩, layerNameOf_append name⟩

theorem nodup_packedNames (h : (entries.map Prod.fst).Nodup) : (packedNames reMatch c entries).Nodup := by
  refine Nodup.map_on (fun e he e' he' heq => ?_) (h.of_map.filter _)
  obtain ⟨he, hweight⟩ := mem_filter.1 he
  obtain ⟨he', hweight'⟩ := mem_filter.1 he'
  have hname := congrArg (· ++ ".weight") heq
  rw [layerNameOf_weight (isLayerWeight_iff.1 hweight).2.1,
    layerNameOf_weight (isLayerWeight_iff.1 hweight').2.1] at hname
  exact inj_on_of_nodup_map h he he' hname

/-- The weights have entries, and none is outside of the decoder layers. -/
def GroupRuns (reMatch : String → String → Bool) (c : QatConfig) (layerIdx : Option Nat)
    (entries : List (String × List Nat)) : Prop :=
  (packedNames reMatch c entries ≠ [] → layerIdx ≠ none) ∧
    ∀ e ∈ entries, isLayerWeight reMatch c e.1 e.2 = true → 0 ∉ e.2

theorem torchAmax_eq_ok {p : Param} {a : ℚ} :
    torchAmax p = .ok a ↔ ∃ m n, p.shape = [m, n] ∧ 0 ∉ p.shape ∧
      a = amax (matrixEntries m n p.entry) := by
  unfold torchAmax
  split
  case h_1 m n hshape =>
    constructor
    · grind
    · grind
  case h_2 hshape =>
    constructor
    · intro h
      cases h
    · grind

theorem get?_fuseGlobalScales_gparam {names : List String} (hnodup : names.Nodup)
    {amaxOf : String → ℚ} (hpos : ∀ n ∈ names, 0 < amaxOf n) {name : String} (hname : name ∈ names) :
    (fuseGlobalScales (Dict.ofItems (names.map fun n => (n, generateGparam (amaxOf n))))).get? name =
      some (generateGparam (largest ((fusedWith names name).map amaxOf))) := by
  have hfst : (names.map fun n => (n, generateGparam (amaxOf n))).map Prod.fst = names := by
    rw [map_map]
    exact map_id names
  have hitems_nodup : ((names.map fun n => (n, generateGparam (amaxOf n))).map Prod.fst).Nodup := by
    rw [hfst]
    exact hnodup
  have hkeys : (Dict.ofItems (names.map fun n => (n, generateGparam (amaxOf n)))).keys = names := by
    unfold Dict.keys
    rw [Dict.items_ofItems hitems_nodup, hfst]
  have hmem : name ∈ (Dict.ofItems (names.map fun n => (n, generateGparam (amaxOf n)))).keys := by
    rw [hkeys]
    exact hname
  have hscale : ∀ n ∈ fusedWith names name,
      ((Dict.ofItems (names.map fun n => (n, generateGparam (amaxOf n)))).get? n).getD 0 =
        448 * 6 / amaxOf n := by
    intro n hn
    have hget := (Dict.get?_ofItems_eq_some hitems_nodup (k := n)
      (v := generateGparam (amaxOf n))).2
        (mem_map.2 ⟨n, mem_of_mem_fusedWith hname hn, rfl⟩)
    rw [hget]
    rfl
  rw [get?_fuseGlobalScales hmem, hkeys, map_congr_left hscale]
  have hne : (fusedWith names name).map amaxOf ≠ [] := by
    rw [ne_eq, map_eq_nil_iff]
    exact ne_nil_of_mem (mem_fusedWith_self names name)
  have hpos' : ∀ a ∈ (fusedWith names name).map amaxOf, 0 < a := by
    intro a ha
    obtain ⟨n, hn, rfl⟩ := mem_map.1 ha
    exact hpos n (mem_of_mem_fusedWith hname hn)
  have hsmallest := smallest_gparam (c := 448 * 6) (by norm_num) hne hpos'
  rw [map_map] at hsmallest
  exact congrArg some hsmallest

section

variable {layerIdx : Option Nat} {params : List (String × Param)}

theorem processLayerGroup_eq (hruns : GroupRuns reMatch c layerIdx (params.map fun p => (p.1, p.2.shape)))
    (hnodup : (params.map Prod.fst).Nodup) {amaxOf : String → ℚ}
    (hamax : ∀ p ∈ layerWeightsOf reMatch c params, torchAmax p.2 = .ok (amaxOf (layerNameOf p.1)))
    (hpos : ∀ p ∈ layerWeightsOf reMatch c params, 0 < amaxOf (layerNameOf p.1)) :
    processLayerGroup reMatch c layerIdx params =
      .ok ((layerWeightsOf reMatch c params).flatMap (fun p =>
        exportWeight c (layerNameOf p.1) p.2.entry (generateGparam (largest
          ((fusedWith (packedNames reMatch c (params.map fun p => (p.1, p.2.shape)))
            (layerNameOf p.1)).map amaxOf)))) ++ passthroughOf reMatch c params) := by
  generalize hnames : packedNames reMatch c (params.map fun p => (p.1, p.2.shape)) = names
  have hstems : (layerWeightsOf reMatch c params).map (fun p => layerNameOf p.1) = names :=
    (map_layerNameOf_layerWeightsOf params).trans hnames
  have hnodup_names : names.Nodup := by
    rw [← hnames]
    refine nodup_packedNames ?_
    rw [map_map]
    exact hnodup
  have hnames_pos : ∀ n ∈ names, 0 < amaxOf n := by grind
  let weights := (layerWeightsOf reMatch c params).map fun p => (layerNameOf p.1, p.2)
  have hunfold : processLayerGroup reMatch c layerIdx params =
      if layerIdx = none ∧ weights ≠ [] then
        .error (.runtimeError
          ("[QAT Quantizer] Unexpected quantizable weights outside decoder layers: "
            ++ toString (weights.map Prod.fst) ++ ". These should be in ignore_patterns."))
      else if weights = [] then .ok (passthroughOf reMatch c params)
      else (do
        let layerGlobalScales ← weights.mapM fun p =>
          (torchAmax p.2).map fun amax => (p.1, generateGparam amax)
        let fusedGlobalScales := fuseGlobalScales (Dict.ofItems layerGlobalScales)
        pure (weights.flatMap (fun p =>
          exportWeight c p.1 p.2.entry ((fusedGlobalScales.get? p.1).getD 0)) ++
            passthroughOf reMatch c params)) := rfl
  rw [hunfold]
  by_cases hempty : layerWeightsOf reMatch c params = []
  · grind
  have hweights : weights ≠ [] := by simpa [weights] using hempty
  have hne : names ≠ [] := by
    rw [← hstems]
    simpa using hempty
  rw [if_neg fun h => hruns.1 (hnames ▸ hne) h.1, if_neg hweights]
  -- the scales of the layers
  have hscales : weights.mapM (fun p =>
      (torchAmax p.2).map fun amax => (p.1, generateGparam amax)) =
        .ok (names.map fun n => (n, generateGparam (amaxOf n))) := by
    refine (mapM_eq_ok_map _ (fun p => (p.1, generateGparam (amaxOf p.1))) weights ?_).trans ?_
    · intro p hp
      obtain ⟨q, hq, rfl⟩ := mem_map.1 hp
      rw [hamax q hq]
      rfl
    · rw [← hstems, map_map, map_map]
      rfl
  rw [hscales]
  refine congrArg (fun results => Except.ok (results ++ passthroughOf reMatch c params)) ?_
  rw [flatMap_map]
  refine flatMap_congr fun p hp => ?_
  have hp_name : layerNameOf p.1 ∈ names := hstems ▸ mem_map.2 ⟨p, hp, rfl⟩
  rw [get?_fuseGlobalScales_gparam hnodup_names hnames_pos hp_name]
  rfl

theorem groupRuns_of_eq_ok {out : List (String × Exported)} (h : processLayerGroup reMatch c layerIdx params = .ok out) :
    GroupRuns reMatch c layerIdx (params.map fun p => (p.1, p.2.shape)) := by
  unfold processLayerGroup at h
  dsimp only at h
  split at h
  case isTrue => cases h
  case isFalse hlayer =>
    constructor
    · intro hne hnone
      refine hlayer ⟨hnone, fun hnil => hne ?_⟩
      rw [← map_layerNameOf_layerWeightsOf]
      exact map_eq_nil_iff.2 (map_eq_nil_iff.1 hnil)
    · intro e he hweight
      obtain ⟨p, hp, rfl⟩ := mem_map.1 he
      have hmem : p ∈ params.filter fun p => isLayerWeight reMatch c p.1 p.2.shape :=
        mem_filter.2 ⟨hp, hweight⟩
      split at h
      case isTrue hnil =>
        rw [map_eq_nil_iff.1 hnil] at hmem
        cases hmem
      case isFalse =>
        obtain ⟨scales, hscales, -⟩ := bind_eq_ok.1 h
        obtain ⟨_, hb⟩ := exists_of_mapM hscales (mem_map_of_mem hmem)
        obtain ⟨a, ha, -⟩ := except_map_eq_ok.1 hb
        obtain ⟨m, n, -, hzero, -⟩ := torchAmax_eq_ok.1 ha
        exact hzero

end

end Verl.Qat
