import Verl.Qat.Selection

/-! # The exported weights of a model (`verl/utils/qat/quantizer.py`)

The state dict of a model is exported run by run.  A weight that is packed is in one run, and gets
the scale of the layers that it is fused with there.

* `mem_export_iff`: the tensors of a layer. -/

namespace Verl.Qat

open List

variable (reMatch : String → String → Bool) (c : QatConfig) (m : Model)
  (w : String → Nat → Nat → ℚ)

/-- A parameter with its entries. -/
def withEntries (e : String × List Nat) : String × Param :=
  (e.1, { shape := e.2, entry := w e.1 })

/-- The runs of the state dict. -/
def layerRuns : List (Option Nat × List (String × List Nat)) :=
  keyRuns (fun e => extractLayerIdx e.1) m.stateEntries

/-- The amax of the weight of a layer. -/
def weightAmax (name : String) : ℚ :=
  match m.stateEntries.lookup (name ++ ".weight") with
  | some [outFeatures, inFeatures] =>
    amax (matrixEntries outFeatures inFeatures (w (name ++ ".weight")))
  | _ => 0

/-- The largest amax over the layers that a layer of a run is fused with. -/
def fusedAmax (entries : List (String × List Nat)) (name : String) : ℚ :=
  largest ((fusedWith (packedNames reMatch c entries) name).map (weightAmax m w))

/-- What is written for a run. -/
def exportOf (entries : List (String × List Nat)) : List (String × Exported) :=
  (entries.filter fun e => isLayerWeight reMatch c e.1 e.2).flatMap (fun e =>
    exportWeight c (layerNameOf e.1) (w e.1)
      (generateGparam (fusedAmax reMatch c m w entries (layerNameOf e.1)))) ++
    passthroughOf reMatch c (entries.map (withEntries w))

variable {reMatch c m w}

theorem nodup_entries : m.stateEntries.Nodup := nodup_stateEntries.of_map

variable {run : Option Nat × List (String × List Nat)} {name : String}

theorem mem_of_mem_layerRuns (h : run ∈ layerRuns m)
    {e : String × List Nat} (he : e ∈ run.2) : e ∈ m.stateEntries :=
  (mem_iff_mem_keyRuns _).2 ⟨run, h, he⟩

theorem weightAmax_eq {outFeatures inFeatures : Nat}
    (h : (name ++ ".weight", [outFeatures, inFeatures]) ∈ m.stateEntries) :
    weightAmax m w name =
      amax (matrixEntries outFeatures inFeatures (w (name ++ ".weight"))) := by
  have hlookup : m.stateEntries.lookup (name ++ ".weight") = some [outFeatures, inFeatures] :=
    Dict.get?_eq_some (d := ⟨m.stateEntries, nodup_stateEntries⟩) h
  unfold weightAmax
  rw [hlookup]

theorem exportRuns_map {f : List (String × List Nat) → List (String × Param)}
    {g : List (String × List Nat) → List (String × Exported)}
    {runs : List (Option Nat × List (String × List Nat))}
    (h : ∀ run ∈ runs, processLayerGroup reMatch c run.1 (f run.2) = .ok (g run.2)) :
    exportRuns reMatch c (runs.map fun run => (run.1, f run.2)) =
      .ok (runs.flatMap fun run => g run.2) := by
  induction runs with
  | nil => rfl
  | cons run runs ih =>
    rw [map_cons, exportRuns_cons, h run mem_cons_self,
      ih fun run' hrun' => h run' (mem_cons_of_mem run hrun'), flatMap_cons]
    rfl

/-- The export of a model whose packed weights are not zero. -/
theorem exists_export (hruns : ∀ run ∈ layerRuns m, GroupRuns reMatch c run.1 run.2)
    (hpos : ∀ name ∈ packedNames reMatch c m.stateEntries, 0 < weightAmax m w name) :
    quantizeWithFusion reMatch c (m.stateDict w) =
      .ok ((layerRuns m).flatMap fun run => exportOf reMatch c m w run.2) := by
  have hdict : m.stateDict w = m.stateEntries.map (withEntries w) := rfl
  have hrun : ∀ run ∈ layerRuns m, processLayerGroup reMatch c run.1 (run.2.map (withEntries w)) =
      .ok (exportOf reMatch c m w run.2) := by
    intro run hrun
    have hshapes : (run.2.map (withEntries w)).map (fun p => (p.1, p.2.shape)) = run.2 := by
      rw [map_map]
      exact map_id run.2
    have hweights : layerWeightsOf reMatch c (run.2.map (withEntries w)) =
        (run.2.filter fun e => isLayerWeight reMatch c e.1 e.2).map (withEntries w) := by
      unfold layerWeightsOf
      rw [filter_map]
      rfl
    have hnodup : ((run.2.map (withEntries w)).map Prod.fst).Nodup := by
      rw [map_map]
      refine Nodup.map_on (fun e he e' he' heq => ?_)
        (nodup_of_mem_keyRuns nodup_entries hrun)
      exact inj_on_of_nodup_map nodup_stateEntries (mem_of_mem_layerRuns hrun he)
        (mem_of_mem_layerRuns hrun he') heq
    have hname : ∀ p ∈ layerWeightsOf reMatch c (run.2.map (withEntries w)),
        layerNameOf p.1 ∈ packedNames reMatch c m.stateEntries ∧
          torchAmax p.2 = .ok (weightAmax m w (layerNameOf p.1)) := by
      intro p hp
      rw [hweights] at hp
      obtain ⟨e, he, rfl⟩ := mem_map.1 hp
      obtain ⟨he, hweight⟩ := mem_filter.1 he
      have hentry := mem_of_mem_layerRuns hrun he
      obtain ⟨-, hends, ⟨a, b, hshape, -⟩, -⟩ := isLayerWeight_iff.1 hweight
      have hzero := (hruns run hrun).2 e he hweight
      refine ⟨mem_map_of_mem (mem_filter.2 ⟨hentry, hweight⟩),
        torchAmax_eq_ok.2 ⟨a, b, hshape, hzero, ?_⟩⟩
      have hkey : layerNameOf e.1 ++ ".weight" = e.1 := layerNameOf_weight hends
      show weightAmax m w (layerNameOf e.1) = amax (matrixEntries a b (w e.1))
      have hmem : (layerNameOf e.1 ++ ".weight", [a, b]) ∈ m.stateEntries := by grind
      rw [weightAmax_eq hmem, hkey]
    rw [processLayerGroup_eq (by rw [hshapes]; exact hruns run hrun) hnodup
      (fun p hp => (hname p hp).2) (fun p hp => hpos _ (hname p hp).1), hshapes, hweights,
      flatMap_map]
    rfl
  rw [quantizeWithFusion_eq, hdict, keyRuns_map]
  exact exportRuns_map hrun

/-! ## The tensors of a layer -/

/-- The three tensors of a layer are written. -/
def Exports (out : List (String × Exported)) (name : String) (values scale : Nat → Nat → ℚ)
    (globalScale : ℚ) : Prop :=
  (name ++ ".weight_packed", Exported.weightPacked values) ∈ out ∧
    (name ++ ".weight_scale", Exported.weightScale scale) ∈ out ∧
    (name ++ ".weight_global_scale", Exported.weightGlobalScale globalScale) ∈ out

theorem append_right_injective {s s' : String} (tail : String) (h : s ++ tail = s' ++ tail) :
    s = s' := by
  have hlist := congrArg String.toList h
  rw [String.toList_append, String.toList_append] at hlist
  exact String.toList_injective (append_cancel_right hlist)

/-- What is not handed on as it is, belongs to a weight of a run. -/
theorem mem_export {item : String × Exported} (hitem : ∀ p, item.2 ≠ .passed p) :
    (item ∈ (layerRuns m).flatMap fun run => exportOf reMatch c m w run.2) ↔
      ∃ run ∈ layerRuns m, ∃ e ∈ run.2, isLayerWeight reMatch c e.1 e.2 = true ∧
        item ∈ exportWeight c (layerNameOf e.1) (w e.1)
          (generateGparam (fusedAmax reMatch c m w run.2 (layerNameOf e.1))) := by
  have hpassed : ∀ params, item ∉ passthroughOf reMatch c params := by
    intro params h
    obtain ⟨p, -, rfl⟩ := mem_map.1 h
    exact hitem p.2 rfl
  rw [mem_flatMap]
  constructor
  · rintro ⟨run, hrun, h⟩
    unfold exportOf at h
    rw [mem_append, or_iff_left (hpassed _), mem_flatMap] at h
    obtain ⟨e, he, h⟩ := h
    obtain ⟨he, hweight⟩ := mem_filter.1 he
    exact ⟨run, hrun, e, he, hweight, h⟩
  · rintro ⟨run, hrun, e, he, hweight, h⟩
    refine ⟨run, hrun, ?_⟩
    unfold exportOf
    rw [mem_append, or_iff_left (hpassed _), mem_flatMap]
    exact ⟨e, mem_filter.2 ⟨he, hweight⟩, h⟩

theorem exists_weightPacked_iff :
    (∃ values, (name ++ ".weight_packed", Exported.weightPacked values) ∈
      (layerRuns m).flatMap fun run => exportOf reMatch c m w run.2) ↔
      name ∈ packedNames reMatch c m.stateEntries := by
  constructor
  · rintro ⟨values, h⟩
    obtain ⟨run, hrun, e, he, hweight, h⟩ := (mem_export fun p => by simp).1 h
    have hname : name = layerNameOf e.1 := by
      unfold exportWeight at h
      simp only [mem_cons, Prod.mk.injEq, reduceCtorEq, and_false, not_mem_nil, or_false] at h
      exact append_right_injective _ h.1
    rw [hname]
    exact mem_map_of_mem (mem_filter.2 ⟨mem_of_mem_layerRuns hrun he, hweight⟩)
  · intro h
    obtain ⟨e, he, rfl⟩ := mem_map.1 h
    obtain ⟨he, hweight⟩ := mem_filter.1 he
    obtain ⟨run, hrun, he⟩ := (mem_iff_mem_keyRuns fun e => extractLayerIdx e.1).1 he
    exact ⟨_, (mem_export fun p => by simp).2 ⟨run, hrun, e, he, hweight, mem_cons_self⟩⟩

theorem exports_iff (hrun : run ∈ layerRuns m)
    {name : String} {shape : List Nat} (he : (name ++ ".weight", shape) ∈ run.2)
    (hweight : isLayerWeight reMatch c (name ++ ".weight") shape = true)
    {values scale : Nat → Nat → ℚ} {globalScale : ℚ} :
    Exports ((layerRuns m).flatMap fun run => exportOf reMatch c m w run.2) name values scale
        globalScale ↔
      globalScale = generateGparam (fusedAmax reMatch c m w run.2 name) ∧
        scale = computeBlockwiseScale c.groupSize (w (name ++ ".weight")) globalScale ∧
        values = compressWeight c.groupSize (w (name ++ ".weight")) scale globalScale := by
  have hmem : ∀ item : String × Exported, (∀ p, item.2 ≠ .passed p) →
      (∀ n x g, item ∈ exportWeight c n x g → n = name) →
      ((item ∈ (layerRuns m).flatMap fun run => exportOf reMatch c m w run.2) ↔
        item ∈ exportWeight c name (w (name ++ ".weight"))
          (generateGparam (fusedAmax reMatch c m w run.2 name))) := by
    intro item hitem hname
    rw [mem_export hitem]
    constructor
    · rintro ⟨run', hrun', e', he', hweight', h⟩
      have hstem := hname _ _ _ h
      have hkey : e'.1 = name ++ ".weight" := by
        rw [← hstem, layerNameOf_weight (isLayerWeight_iff.1 hweight').2.1]
      have heq : e' = (name ++ ".weight", shape) :=
        inj_on_of_nodup_map nodup_stateEntries (mem_of_mem_layerRuns hrun' he')
          (mem_of_mem_layerRuns hrun he) hkey
      have hruns : run' = run := keyRuns_eq_of_mem nodup_entries hrun' hrun he' (heq ▸ he)
      rw [hkey, layerNameOf_append, hruns] at h
      exact h
    · intro h
      refine ⟨run, hrun, _, he, hweight, ?_⟩
      rw [layerNameOf_append]
      exact h
  have hpacked := hmem (name ++ ".weight_packed", .weightPacked values) (fun p => by simp) (by
    intro n x g h
    simp only [exportWeight, mem_cons, Prod.mk.injEq, reduceCtorEq, and_false,
      not_mem_nil, or_false] at h
    exact (append_right_injective _ h.1).symm)
  have hscale := hmem (name ++ ".weight_scale", .weightScale scale) (fun p => by simp) (by
    intro n x g h
    simp only [exportWeight, mem_cons, Prod.mk.injEq, reduceCtorEq, and_false,
      not_mem_nil, or_false, false_or] at h
    exact (append_right_injective _ h.1).symm)
  have hglobal := hmem (name ++ ".weight_global_scale", .weightGlobalScale globalScale)
    (fun p => by simp) (by
    intro n x g h
    simp only [exportWeight, mem_cons, Prod.mk.injEq, reduceCtorEq, and_false,
      not_mem_nil, or_false, false_or] at h
    exact (append_right_injective _ h.1).symm)
  unfold Exports
  rw [hpacked, hscale, hglobal]
  simp only [exportWeight, mem_cons, Prod.mk.injEq, reduceCtorEq, and_false, not_mem_nil,
    or_false, false_or, true_and, Exported.weightPacked.injEq, Exported.weightScale.injEq,
    Exported.weightGlobalScale.injEq]
  constructor
  · grind
  · grind

end Verl.Qat
