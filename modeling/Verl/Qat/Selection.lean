import Verl.Qat.BlockRounding

/-! # The layers that are quantised (`verl/utils/qat/core.py`)

Training picks modules, the export picks parameters:

    apply_qat              nn.Linear modules, by the name of the module
    quantize_with_fusion   matrices under a name with ".weight" at its end, by the rest of the name

* `Model`: the modules with their parameters, `Model.stateDict`.
* `applyQat`: the modules that become a `QATLinear`.
* `SelectsAlike`: the models with the same layers on both sides, `selectsAlike_iff`. -/

namespace Verl.Qat

/-! ## Models -/

/-- A linear layer, or another module with the entries of the state dict that are its own.  A linear
layer under a second name is another module, as only the first one is replaced. -/
inductive Module
  | linear (name : String) (outFeatures inFeatures : Nat) (bias : Bool)
  | other (name : String) (entries : List (String × List Nat))

namespace Module

def name : Module → String
  | linear name _ _ _ => name
  | other name _ => name

/-- The names and shapes of the parameters. -/
def entries : Module → List (String × List Nat)
  | linear _ outFeatures inFeatures bias =>
    ("weight", [outFeatures, inFeatures]) :: if bias then [("bias", [outFeatures])] else []
  | other _ entries => entries

end Module

/-- The name of a parameter in the state dict. -/
def paramKey (module param : String) : String :=
  if module = "" then param else module ++ "." ++ param

/-- `named_modules`, in its order, which is the one of the state dict; the model is no linear layer
itself. -/
structure Model where
  modules : List Module
  nodup : (modules.map Module.name).Nodup
  nodup_keys : ((modules.flatMap fun m => m.entries.map fun e =>
    (paramKey m.name e.1, e.2)).map Prod.fst).Nodup
  root : ∀ outFeatures inFeatures bias, Module.linear "" outFeatures inFeatures bias ∉ modules

/-- The names and shapes in the state dict. -/
def Model.stateEntries (m : Model) : List (String × List Nat) :=
  m.modules.flatMap fun module => module.entries.map fun e => (paramKey module.name e.1, e.2)

/-- The state dict with these weights. -/
def Model.stateDict (m : Model) (w : String → Nat → Nat → ℚ) : List (String × Param) :=
  m.stateEntries.map fun e => (e.1, { shape := e.2, entry := w e.1 })

/-! ## Algorithm -/

section Algorithm

variable (reMatch : String → String → Bool) (c : QatConfig)

/-- A `QATLinear`. -/
structure QatLinear where
  name : String
  outFeatures : Nat
  inFeatures : Nat

/-- `_should_quantize`, with the layer that is made of the module. -/
def qatLinear? : Module → Option QatLinear
  | .linear name outFeatures inFeatures _ =>
    if ignored reMatch c.ignorePatterns name then none
    else if inFeatures % c.groupSize ≠ 0 then none
    else some { name, outFeatures, inFeatures }
  | .other _ _ => none

/-- `apply_qat`. -/
def applyQat (m : Model) : List QatLinear := m.modules.filterMap (qatLinear? reMatch c)

end Algorithm

/-! ## Modules and parameters -/

variable {reMatch : String → String → Bool} {c : QatConfig} {m : Model}

variable {inFeatures outFeatures : Nat} {name : String}

theorem mem_applyQat {l : QatLinear} : l ∈ applyQat reMatch c m ↔ ∃ bias,
      Module.linear l.name l.outFeatures l.inFeatures bias ∈ m.modules ∧
        ignored reMatch c.ignorePatterns l.name = false ∧ l.inFeatures % c.groupSize = 0 := by
  unfold applyQat
  rw [List.mem_filterMap]
  constructor
  · rintro ⟨module, hmodule, h⟩
    cases module with
    | other => cases h
    | linear name outFeatures inFeatures bias =>
      unfold qatLinear? at h
      dsimp only at h
      split at h
      case isTrue => cases h
      case isFalse hkeep =>
        split at h
        case isTrue => cases h
        case isFalse hdvd =>
          cases h
          exact ⟨bias, hmodule, by simpa using hkeep, not_not.1 hdvd⟩
  · rintro ⟨bias, hmodule, hkeep, hdvd⟩
    refine ⟨_, hmodule, ?_⟩
    unfold qatLinear?
    dsimp only
    rw [hkeep, if_neg (by simp), if_neg (not_not.2 hdvd)]

theorem nodup_applyQat : ((applyQat reMatch c m).map QatLinear.name).Nodup := by
  refine List.Nodup.sublist ?_ m.nodup
  unfold applyQat
  induction m.modules with
  | nil => exact List.Sublist.refl []
  | cons module modules ih =>
    rw [List.filterMap_cons]
    cases h : qatLinear? reMatch c module with
    | none => exact ih.trans (List.sublist_cons_self _ _)
    | some l =>
      have hname : l.name = module.name := by
        cases module with
        | other => cases h
        | linear name outFeatures inFeatures bias =>
          unfold qatLinear? at h
          dsimp only at h
          split_ifs at h
          cases h
          rfl
      rw [List.map_cons, hname]
      exact ih.cons_cons _

theorem mem_stateEntries {e : String × List Nat} : e ∈ m.stateEntries ↔
      ∃ module ∈ m.modules, ∃ p ∈ module.entries, e = (paramKey module.name p.1, p.2) := by
  unfold Model.stateEntries
  constructor
  · grind
  · grind

theorem nodup_stateEntries : (m.stateEntries.map Prod.fst).Nodup := m.nodup_keys

theorem module_unique {a b : Module} (ha : a ∈ m.modules) (hb : b ∈ m.modules)
    {p q : String × List Nat} (hp : p ∈ a.entries) (hq : q ∈ b.entries)
    (h : paramKey a.name p.1 = paramKey b.name q.1) : a = b := by
  have hnodup := m.nodup_keys
  rw [List.map_flatMap, List.nodup_flatMap] at hnodup
  have hsymm : Std.Symm (Function.onFun List.Disjoint fun module : Module =>
      (module.entries.map fun e => (paramKey module.name e.1, e.2)).map Prod.fst) :=
    ⟨fun _ _ hdisjoint _ hy hy' => hdisjoint hy' hy⟩
  have hkey : ∀ {module : Module} {e : String × List Nat}, e ∈ module.entries →
      paramKey module.name e.1 ∈
        (module.entries.map fun e => (paramKey module.name e.1, e.2)).map Prod.fst := by grind
  by_contra hne
  exact hnodup.2.forall ha hb hne (hkey hp) (h ▸ hkey hq)

section

variable {bias : Bool} (h : Module.linear name outFeatures inFeatures bias ∈ m.modules)
include h

theorem paramKey_weight : paramKey name "weight" = name ++ ".weight" := by
  have hne : name ≠ "" := by
    rintro rfl
    exact m.root outFeatures inFeatures bias h
  unfold paramKey
  rw [if_neg hne, String.append_assoc]
  rfl

theorem weight_mem_stateEntries :
    (name ++ ".weight", [outFeatures, inFeatures]) ∈ m.stateEntries := by
  refine mem_stateEntries.2 ⟨_, h, ("weight", [outFeatures, inFeatures]), List.mem_cons_self, ?_⟩
  rw [← paramKey_weight h]
  rfl

end

/-! ## The same layers -/

/-- The default patterns stand in for no pattern that matters, no name has the words of an activation
scale, and no other matrix is taken for a weight. -/
structure SelectsAlike (reMatch : String → String → Bool) (c : QatConfig) (m : Model) : Prop where
  linear : ∀ l ∈ applyQat reMatch c m, ignored reMatch (orDefault c.ignorePatterns) l.name = false ∧
    isActivationScale (l.name ++ ".weight") = false
  other : ∀ name entries, Module.other name entries ∈ m.modules → ∀ e ∈ entries,
    isLayerWeight reMatch c (paramKey name e.1) e.2 = false

theorem isLayerWeight_linear :
    isLayerWeight reMatch c (name ++ ".weight") [outFeatures, inFeatures] = true ↔
      isActivationScale (name ++ ".weight") = false ∧ inFeatures % c.groupSize = 0 ∧
        ignored reMatch (orDefault c.ignorePatterns) name = false := by
  rw [isLayerWeight_iff, layerNameOf_append]
  constructor
  · grind
  · rintro ⟨hscale, hdvd, hkeep⟩
    exact ⟨hscale, endsWith_append name, ⟨_, _, rfl, hdvd⟩, hkeep⟩

theorem ignored_of_orDefault (h : ignored reMatch (orDefault c.ignorePatterns) name = false) :
    ignored reMatch c.ignorePatterns name = false := by
  unfold orDefault at h
  split at h
  case isTrue hnil =>
    rw [hnil]
    rfl
  case isFalse => exact h

theorem bias_ne_weight {name' : String} : name ++ "." ++ "bias" ≠ name' ++ ".weight" := by
  intro h
  have hlast := congrArg (fun s => s.toList.getLast?) h
  simp [String.toList_append] at hlast

theorem exists_of_mem_packedNames (h : name ∈ packedNames reMatch c m.stateEntries) :
    (∃ outFeatures inFeatures bias, Module.linear name outFeatures inFeatures bias ∈ m.modules ∧
      inFeatures % c.groupSize = 0 ∧ ignored reMatch (orDefault c.ignorePatterns) name = false) ∨
    ∃ module entries, Module.other module entries ∈ m.modules ∧ ∃ e ∈ entries,
      isLayerWeight reMatch c (paramKey module e.1) e.2 = true := by
  obtain ⟨shape, hentry, hweight⟩ := mem_packedNames.1 h
  obtain ⟨module, hmodule, p, hp, heq⟩ := mem_stateEntries.1 hentry
  rw [Prod.mk.injEq] at heq
  obtain ⟨hkey, rfl⟩ := heq
  cases module with
  | other module entries =>
    rw [hkey] at hweight
    exact Or.inr ⟨module, entries, hmodule, p, hp, hweight⟩
  | linear name' outFeatures inFeatures bias =>
    have hne : name' ≠ "" := by
      rintro rfl
      exact m.root outFeatures inFeatures bias hmodule
    unfold paramKey at hkey
    rw [if_neg (show (Module.linear name' outFeatures inFeatures bias).name ≠ "" from hne)] at hkey
    rcases List.mem_cons.1 hp with rfl | hp
    · have hname : name' = name := by
        have hstem := congrArg layerNameOf hkey
        rw [layerNameOf_append] at hstem
        rw [hstem]
        exact (layerNameOf_append name').symm.trans (by rw [String.append_assoc]; rfl)
      subst hname
      obtain ⟨-, hdvd, hkeep⟩ := isLayerWeight_linear.1 hweight
      exact Or.inl ⟨outFeatures, inFeatures, bias, hmodule, hdvd, hkeep⟩
    · -- the bias has another name
      cases bias with
      | false => cases hp
      | true =>
        rw [List.mem_singleton.1 hp] at hkey
        exact absurd hkey.symm bias_ne_weight

theorem selectsAlike_iff : (∀ name, (∃ l ∈ applyQat reMatch c m, l.name = name) ↔
      name ∈ packedNames reMatch c m.stateEntries) ↔ SelectsAlike reMatch c m := by
  constructor
  · intro h
    constructor
    · intro l hl
      obtain ⟨shape, hentry, hweight⟩ := mem_packedNames.1 ((h l.name).1 ⟨l, hl, rfl⟩)
      obtain ⟨hscale, -, -, hkeep⟩ := isLayerWeight_iff.1 hweight
      rw [layerNameOf_append] at hkeep
      exact ⟨hkeep, hscale⟩
    · intro name entries hmodule e he
      by_contra hweight
      rw [Bool.not_eq_false] at hweight
      have hends := layerNameOf_weight (isLayerWeight_iff.1 hweight).2.1
      have hentry : (paramKey name e.1, e.2) ∈ m.stateEntries :=
        mem_stateEntries.2 ⟨_, hmodule, e, he, rfl⟩
      have hpacked : layerNameOf (paramKey name e.1) ∈ packedNames reMatch c m.stateEntries := by
        refine mem_packedNames.2 ⟨e.2, ?_⟩
        rw [hends]
        exact ⟨hentry, hweight⟩
      -- a linear layer would have a parameter of the same name
      obtain ⟨l, hl, hname⟩ := (h _).2 hpacked
      obtain ⟨bias, hlinear, -⟩ := mem_applyQat.1 hl
      have hkey : paramKey name e.1 = paramKey l.name "weight" := by
        rw [← hends, ← hname, paramKey_weight hlinear]
      cases module_unique hmodule hlinear he List.mem_cons_self hkey
  · intro h name
    constructor
    · rintro ⟨l, hl, rfl⟩
      obtain ⟨bias, hmodule, -, hdvd⟩ := mem_applyQat.1 hl
      obtain ⟨hkeep, hscale⟩ := h.linear l hl
      exact mem_packedNames.2 ⟨_, weight_mem_stateEntries hmodule,
        isLayerWeight_linear.2 ⟨hscale, hdvd, hkeep⟩⟩
    · intro hname
      rcases exists_of_mem_packedNames hname with
        ⟨outFeatures, inFeatures, bias, hmodule, hdvd, hkeep⟩ | ⟨module, entries, hmodule, e, he, hweight⟩
      · exact ⟨⟨name, outFeatures, inFeatures⟩,
          mem_applyQat.2 ⟨bias, hmodule, ignored_of_orDefault hkeep, hdvd⟩, rfl⟩
      · rw [h.other module entries hmodule e he] at hweight
        cases hweight

end Verl.Qat
