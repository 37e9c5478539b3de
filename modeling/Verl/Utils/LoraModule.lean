import Verl.Lib.Dict
import Verl.Lib.PyStr

/-! # Merging LoRA layers under FSDP

`fsdp_merge_unmerge` merges all LoRA layers of a module, or unmerges them.  Under FSDP 1 it goes
through the whole module at once; under FSDP 2 through the wrapped submodules one after the other,
the root left out:

    FSDP 1:   [ root  [ layer 0  q_proj ]  [ layer 1  q_proj ]  lm_head ]   all at once
    FSDP 2:     root  [ layer 0  q_proj ]  [ layer 1  q_proj ]  lm_head     lm_head is in no bracket

* `Module`: a wrapped module by its `named_modules()`, with the parameters of each.
* `view_fsdpMergeUnmerge`: every layer that is covered is merged once, the others not at all. -/

namespace Verl.FsdpLora

open List Function

/-! ## Modules -/

inductive Version
  | fsdp1
  | fsdp2
  deriving DecidableEq, Repr

/-- The parameters of a LoRA layer: `base_layer.weight`, `lora_A` and `lora_B` of its adapter. -/
structure Lora (R : Type) where
  base : Nat
  loraA : Nat
  loraB : Nat
  scaling : R
  deriving DecidableEq, Repr

def Lora.params {R : Type} (l : Lora R) : List Nat := [l.base, l.loraA, l.loraB]

/-- An item of `named_modules()`; the path is without the wrappers of FSDP 1. -/
structure SubModule (R : Type) where
  path : List String
  isFsdp : Bool
  /-- The parameters of its own. -/
  params : List (String × Nat)
  lora : Option (Lora R)
  deriving Repr

def dotted (path : List String) : String := ".".intercalate path

/-- The path of a weight of the module at `path`. -/
def weightName (path : List String) (child : List String) : String :=
  dotted (path ++ child ++ ["weight"])

/-- `name.replace(marker, "")`. -/
def without (marker name : String) : String := String.ofList (pyRemove marker.toList name.toList)

/-- `_clean_key` of `collect_merged_lora_params`. -/
def cleanKey (key : String) : String :=
  without ".base_layer" (without "base_model.model." (without "_fsdp_wrapped_module." key))

/-- `_normalize_peft_name`. -/
def normalizePeftName (name : String) : String :=
  without ".base_layer" (without "base_model." (without "base_model.model." name))

/-- The items of a dictionary of `base_model.model`, by those of the whole. -/
def innerItems {α : Type} (items : List (String × α)) : List (String × α) :=
  items.filterMap fun p =>
    if "base_model.model.".toList.isPrefixOf p.1.toList then
      some (String.ofList (p.1.toList.drop "base_model.model.".length), p.2)
    else none

/-- What `collect_merged_lora_params` makes of the name of such an item. -/
def innerKey (name : String) : String :=
  without ".base_layer" (without "_fsdp_wrapped_module." name)

/-- `named_parameters()`. -/
def namedParameters {R : Type} (modules : List (SubModule R)) : List (String × Nat) :=
  modules.flatMap fun m => m.params.map fun p => (dotted (m.path ++ [p.1]), p.2)

/-- A module that is wrapped with FSDP.  No parameter is in two places, the weights of a LoRA
layer are where PEFT puts them, and without what PEFT adds the names are still different. -/
structure Module (R : Type) where
  version : Version
  modules : List (SubModule R)
  paths_nodup : (modules.map SubModule.path).Nodup
  names_nodup : ((namedParameters modules).map Prod.fst).Nodup
  params_nodup : ((namedParameters modules).map Prod.snd).Nodup
  lora_nodup : (modules.flatMap fun m => m.lora.toList.flatMap Lora.params).Nodup
  base_mem : ∀ m ∈ modules, ∀ l ∈ m.lora,
    (weightName m.path ["base_layer"], l.base) ∈ namedParameters modules
  loraA_mem : ∀ m ∈ modules, ∀ l ∈ m.lora,
    (weightName m.path ["lora_A", "default"], l.loraA) ∈ namedParameters modules
  loraB_mem : ∀ m ∈ modules, ∀ l ∈ m.lora,
    (weightName m.path ["lora_B", "default"], l.loraB) ∈ namedParameters modules
  lora_inner : ∀ m ∈ modules, ∀ l ∈ m.lora,
    "base_model.model.".toList <+: (weightName m.path ["base_layer"]).toList
  clean_nodup : ((namedParameters modules).map fun p => cleanKey p.1).Nodup
  inner_nodup : ((innerItems (namedParameters modules)).map fun p => innerKey p.1).Nodup

namespace Module

variable {R : Type} (M : Module R)

/-- `submodule.modules()`. -/
def subModules (path : List String) : List (SubModule R) :=
  M.modules.filter fun m => path.isPrefixOf m.path

def named : List (String × Nat) := namedParameters M.modules

end Module

/-! ## States -/

variable {R V : Type}

/-- The storages: each move of a parameter to another device gives it a new one, and what refers to
the old one keeps that. -/
@[ext] structure State (V : Type) where
  generation : Nat → Nat
  data : Nat → Nat → V
  merged : List String → Bool

namespace State

def get (s : State V) (p : Nat) : V := s.data p (s.generation p)

/-- `param.data.copy_(v)`. -/
def copy_ (s : State V) (p : Nat) (v : V) : State V :=
  { s with data := Function.update s.data p (Function.update (s.data p) (s.generation p) v) }

def setMerged (s : State V) (path : List String) (merged : Bool) : State V :=
  { s with merged := Function.update s.merged path merged }

@[simp] theorem get_copy_ (s : State V) (p q : Nat) (v : V) :
    (s.copy_ p v).get q = if q = p then v else s.get q := by
  unfold copy_ get
  dsimp only
  by_cases h : q = p
  · subst h
    rw [update_self, update_self, if_pos rfl]
  · rw [update_of_ne h, if_neg h]

@[simp] theorem generation_copy_ (s : State V) (p : Nat) (v : V) :
    (s.copy_ p v).generation = s.generation := rfl

@[simp] theorem merged_copy_ (s : State V) (p : Nat) (v : V) : (s.copy_ p v).merged = s.merged := rfl

@[simp] theorem get_setMerged (s : State V) (path : List String) (merged : Bool) (p : Nat) :
    (s.setMerged path merged).get p = s.get p := rfl

@[simp] theorem generation_setMerged (s : State V) (path : List String) (merged : Bool) :
    (s.setMerged path merged).generation = s.generation := rfl

theorem merged_setMerged (s : State V) (path q : List String) (merged : Bool) :
    (s.setMerged path merged).merged q = if q = path then merged else s.merged q := by
  unfold setMerged
  dsimp only
  rw [update_apply]

end State

/-! ## Merging -/

section Merge

variable [AddGroup V] (deltaWeight : R → V → V → V)

/-- `get_delta_weight` of PEFT, `scaling * (lora_B @ lora_A)`, of a layer. -/
def Lora.delta (l : Lora R) (s : State V) : V := deltaWeight l.scaling (s.get l.loraB) (s.get l.loraA)

/-- `merge` of PEFT. -/
def merge (path : List String) (l : Lora R) (s : State V) : State V :=
  (s.copy_ l.base (s.get l.base + l.delta deltaWeight s)).setMerged path true

/-- `unmerge` of PEFT. -/
def unmerge (path : List String) (l : Lora R) (s : State V) : State V :=
  (s.copy_ l.base (s.get l.base - l.delta deltaWeight s)).setMerged path false

/-- The body of the loop of `_merge_or_unmerge_lora_`. -/
def mergeOrUnmergeModule (doMerge : Bool) (s : State V) (m : SubModule R) : State V :=
  match m.lora with
  | none => s
  | some l =>
    if doMerge && !s.merged m.path then merge deltaWeight m.path l s
    else if !doMerge && s.merged m.path then unmerge deltaWeight m.path l s
    else s

/-- `_merge_or_unmerge_lora_`, of `module.modules()`. -/
def mergeOrUnmergeLora (modules : List (SubModule R)) (doMerge : Bool) (s : State V) : State V :=
  modules.foldl (mergeOrUnmergeModule deltaWeight doMerge) s

/-- `fsdp_merge_unmerge`; what `summon_full_params` gathers holds the same values. -/
def fsdpMergeUnmerge (M : Module R) (doMerge : Bool) (s : State V) : State V :=
  match M.version with
  | .fsdp1 => mergeOrUnmergeLora deltaWeight M.modules doMerge s
  | .fsdp2 => M.modules.foldl (fun s m =>
      if m.isFsdp && dotted m.path != "" then
        mergeOrUnmergeLora deltaWeight (M.subModules m.path) doMerge s
      else s) s

end Merge

/-! ## One layer -/

/-- What a LoRA layer is at: the weight, the adapter and the flag. -/
structure View (V : Type) where
  base : V
  loraA : V
  loraB : V
  merged : Bool

def State.view (s : State V) (path : List String) (l : Lora R) : View V where
  base := s.get l.base
  loraA := s.get l.loraA
  loraB := s.get l.loraB
  merged := s.merged path

section View

variable [AddGroup V] (deltaWeight : R → V → V → V)

def View.delta (scaling : R) (v : View V) : V := deltaWeight scaling v.loraB v.loraA

/-- A layer is merged or unmerged, unless it is so already. -/
def View.step (scaling : R) (doMerge : Bool) (v : View V) : View V :=
  if doMerge && !v.merged then { v with base := v.base + v.delta deltaWeight scaling, merged := true }
  else if !doMerge && v.merged then
    { v with base := v.base - v.delta deltaWeight scaling, merged := false }
  else v

theorem View.step_step (scaling : R) (doMerge : Bool) (v : View V) :
    (v.step deltaWeight scaling doMerge).step deltaWeight scaling doMerge =
      v.step deltaWeight scaling doMerge := by
  obtain ⟨base, loraA, loraB, merged⟩ := v
  cases doMerge <;> cases merged <;> rfl

theorem foldl_of_idempotent {σ α ν : Type} {f : σ → α → σ} (look : σ → ν) {g : ν → ν}
    (hg : ∀ v, g (g v) = g v) {hit : α → Bool} {xs : List α}
    (h : ∀ x ∈ xs, ∀ s, look (f s x) = if hit x then g (look s) else look s) (s : σ) :
    look (xs.foldl f s) = if xs.any hit then g (look s) else look s := by
  induction xs generalizing s with
  | nil => rfl
  | cons x xs ih =>
    rw [foldl_cons, ih (fun y hy => h y (mem_cons_of_mem _ hy)), h x mem_cons_self,
      any_cons]
    cases hit x with
    | false => rfl
    | true => cases xs.any hit with
      | false => rfl
      | true => exact hg _

variable {M : Module R} {m m' : SubModule R} {l : Lora R}

namespace Module

theorem eq_of_mem_params {l' : Lora R} {p : Nat} (hm : m ∈ M.modules) (hl : m.lora = some l)
    (hm' : m' ∈ M.modules) (hl' : m'.lora = some l') (hp : p ∈ l.params) (hp' : p ∈ l'.params) :
    m' = m := by
  by_contra hne
  have hpairwise := (nodup_flatMap.1 M.lora_nodup).2
  have hsymm : Std.Symm (Function.onFun Disjoint fun m : SubModule R =>
      m.lora.toList.flatMap Lora.params) := ⟨fun _ _ h _ ha hb => h hb ha⟩
  have hdisjoint := hpairwise.forall hm' hm hne
  have hmem : p ∈ m.lora.toList.flatMap Lora.params := by
    rw [hl]
    simpa using hp
  have hmem' : p ∈ m'.lora.toList.flatMap Lora.params := by
    rw [hl']
    simpa using hp'
  exact hdisjoint hmem' hmem

theorem params_nodup_of_lora (hm : m ∈ M.modules) (hl : m.lora = some l) : l.params.Nodup := by
  have h := (nodup_flatMap.1 M.lora_nodup).1 m hm
  rw [hl] at h
  simpa using h

theorem eq_of_path_eq (hm : m ∈ M.modules) (hm' : m' ∈ M.modules) (h : m'.path = m.path) : m' = m :=
  inj_on_of_nodup_map M.paths_nodup hm' hm h

end Module

theorem view_mergeOrUnmergeModule_self (hm : m ∈ M.modules) (hl : m.lora = some l) (doMerge : Bool)
    (s : State V) :
    (mergeOrUnmergeModule deltaWeight doMerge s m).view m.path l =
      (s.view m.path l).step deltaWeight l.scaling doMerge := by
  have hnodup := M.params_nodup_of_lora hm hl
  have hA : l.loraA ≠ l.base := by
    rintro h
    simp [Lora.params, h] at hnodup
  have hB : l.loraB ≠ l.base := by
    rintro h
    simp [Lora.params, h] at hnodup
  unfold mergeOrUnmergeModule View.step
  rw [hl]
  cases doMerge <;> cases hmerged : s.merged m.path <;>
    simp [State.view, merge, unmerge, Lora.delta, View.delta, State.merged_setMerged, hA, hB,
      hmerged]

variable {p : Nat} {modules : List (SubModule R)}

theorem get_mergeOrUnmergeModule (hp : ∀ l ∈ m.lora, p ≠ l.base) (doMerge : Bool)
    (s : State V) : (mergeOrUnmergeModule deltaWeight doMerge s m).get p = s.get p := by
  unfold mergeOrUnmergeModule
  split
  · rfl
  · rename_i l hl
    have hne : p ≠ l.base := hp l hl
    split
    · simp [merge, hne]
    · split
      · simp [unmerge, hne]
      · rfl

theorem merged_mergeOrUnmergeModule {path : List String} (hpath : path ≠ m.path) (doMerge : Bool)
    (s : State V) :
    (mergeOrUnmergeModule deltaWeight doMerge s m).merged path = s.merged path := by
  unfold mergeOrUnmergeModule
  split
  · rfl
  · split
    · simp [merge, State.merged_setMerged, hpath]
    · split
      · simp [unmerge, State.merged_setMerged, hpath]
      · rfl

theorem view_mergeOrUnmergeModule (hm : m ∈ M.modules) (hl : m.lora = some l)
    (hm' : m' ∈ M.modules) (doMerge : Bool) (s : State V) :
    (mergeOrUnmergeModule deltaWeight doMerge s m').view m.path l =
      if m'.path == m.path then (s.view m.path l).step deltaWeight l.scaling doMerge
      else s.view m.path l := by
  by_cases hpath : m'.path = m.path
  · obtain rfl := M.eq_of_path_eq hm hm' hpath
    rw [if_pos (beq_self_eq_true _)]
    exact view_mergeOrUnmergeModule_self deltaWeight hm hl doMerge s
  · have hother : ∀ p ∈ l.params, ∀ l' ∈ m'.lora, p ≠ l'.base := by
      rintro p hp l' hl' rfl
      have hbase : l'.base ∈ l'.params := mem_cons_self
      exact hpath (congrArg _ (M.eq_of_mem_params hm hl hm' hl' hp hbase))
    rw [if_neg (by simpa using hpath)]
    unfold State.view
    congr 1
    · exact get_mergeOrUnmergeModule deltaWeight (hother _ (by simp [Lora.params])) doMerge s
    · exact get_mergeOrUnmergeModule deltaWeight (hother _ (by simp [Lora.params])) doMerge s
    · exact get_mergeOrUnmergeModule deltaWeight (hother _ (by simp [Lora.params])) doMerge s
    · exact merged_mergeOrUnmergeModule deltaWeight (Ne.symm hpath) doMerge s

theorem view_mergeOrUnmergeLora (hsub : modules ⊆ M.modules)
    (hm : m ∈ M.modules) (hl : m.lora = some l) (doMerge : Bool) (s : State V) :
    (mergeOrUnmergeLora deltaWeight modules doMerge s).view m.path l =
      if modules.any (fun m' => m'.path == m.path) then
        (s.view m.path l).step deltaWeight l.scaling doMerge
      else s.view m.path l :=
  foldl_of_idempotent (fun s : State V => s.view m.path l)
    (View.step_step deltaWeight l.scaling doMerge)
    (fun _ hm' s => view_mergeOrUnmergeModule deltaWeight hm hl (hsub hm') doMerge s) s

/-- Under FSDP 2, there is a wrapped submodule around the layer, or it is one. -/
def Module.covered (M : Module R) (path : List String) : Bool :=
  match M.version with
  | .fsdp1 => true
  | .fsdp2 => M.modules.any fun w => w.isFsdp && dotted w.path != "" && w.path.isPrefixOf path

theorem any_subModules (hm : m ∈ M.modules) (path : List String) :
    ((M.subModules path).any fun m' => m'.path == m.path) = path.isPrefixOf m.path := by
  rw [Bool.eq_iff_iff, any_eq_true]
  constructor
  · rintro ⟨m', hmem, hpath⟩
    rw [← beq_iff_eq.1 hpath]
    exact (mem_filter.1 hmem).2
  · intro h
    exact ⟨m, mem_filter.2 ⟨hm, h⟩, beq_self_eq_true _⟩

theorem view_fsdpMergeUnmerge (hm : m ∈ M.modules) (hl : m.lora = some l) (doMerge : Bool)
    (s : State V) :
    (fsdpMergeUnmerge deltaWeight M doMerge s).view m.path l =
      if M.covered m.path then (s.view m.path l).step deltaWeight l.scaling doMerge
      else s.view m.path l := by
  unfold fsdpMergeUnmerge Module.covered
  cases M.version with
  | fsdp1 =>
    have hany : (M.modules.any fun m' => m'.path == m.path) = true :=
      any_eq_true.2 ⟨m, hm, beq_self_eq_true _⟩
    have h := view_mergeOrUnmergeLora deltaWeight (List.Subset.refl M.modules) hm hl doMerge s
    rw [hany] at h
    exact h
  | fsdp2 =>
    refine foldl_of_idempotent (fun s : State V => s.view m.path l)
      (View.step_step deltaWeight l.scaling doMerge) (fun w hw s => ?_) s
    have hsub : M.subModules w.path ⊆ M.modules := fun _ h => mem_of_mem_filter h
    cases hwrapped : (w.isFsdp && dotted w.path != "") with
    | false => rfl
    | true =>
      rw [if_pos rfl, view_mergeOrUnmergeLora deltaWeight hsub hm hl, any_subModules hm,
        Bool.true_and]

/-! ## Everything else -/

theorem get_mergeOrUnmergeLora {p : Nat}
    (hp : ∀ m ∈ modules, ∀ l ∈ m.lora, p ≠ l.base) (doMerge : Bool) (s : State V) :
    (mergeOrUnmergeLora deltaWeight modules doMerge s).get p = s.get p := by
  unfold mergeOrUnmergeLora
  induction modules generalizing s with
  | nil => rfl
  | cons m modules ih =>
    rw [foldl_cons, ih (fun m' hm' => hp m' (mem_cons_of_mem _ hm'))]
    exact get_mergeOrUnmergeModule deltaWeight (hp m mem_cons_self) doMerge s

theorem get_fsdpMergeUnmerge (hp : ∀ m ∈ M.modules, ∀ l ∈ m.lora, p ≠ l.base)
    (doMerge : Bool) (s : State V) : (fsdpMergeUnmerge deltaWeight M doMerge s).get p = s.get p := by
  unfold fsdpMergeUnmerge
  split
  · exact get_mergeOrUnmergeLora deltaWeight hp doMerge s
  · refine List.foldlRecOn (motive := fun t : State V => t.get p = s.get p) M.modules _ rfl ?_
    intro t ht w hw
    split
    · rw [get_mergeOrUnmergeLora deltaWeight _ doMerge t, ht]
      exact fun m hm => hp m (mem_of_mem_filter hm)
    · exact ht

end View

end Verl.FsdpLora
