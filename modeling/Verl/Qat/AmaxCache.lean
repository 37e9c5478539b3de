import Verl.Qat.FusionSiblings

/-! # The cached amax of QAT weights (`verl/utils/qat/linear.py`)

A `QATLinear` quantises its weight with the largest absolute value over its own and its siblings'
weights.  It is cached with the first forward, also at the siblings, and cleared after an optimizer
step.  A checkpoint load and the restore of a CPU snapshot change the weights and clear nothing.

    forward, load, forward          the second forward uses the amax of the weights before the load

* `Inv`: what is cached is the amax of the group.
* `inv_step_iff`: a step keeps this exactly if it changes no amax that is cached.
* `rightAmax_iff_keepsAmax`: so it is for runs. -/

namespace Verl.Qat

open Option

/-! ## Algorithm -/

section Algorithm

variable {K : Type} [Field K] [LinearOrder K] {n : Nat}

/-- `torch.max` of numbers that are not negative. -/
def largest (xs : List K) : K := xs.foldr max 0

/-- `weight.abs().max()`. -/
def amax (weight : List K) : K := largest (weight.map fun x => |x|)

/-- The state of a model with `QATLinear` modules, and of the worker's `cpu_saved_models`. -/
structure State (K : Type) (n : Nat) where
  weights : Fin n → List K
  cachedWeightAmax : Fin n → Option K
  cpuSavedModels : Nat → Option (Fin n → List K)

/-- A model as it was built. -/
def State.initial (weights : Fin n → List K) : State K n where
  weights := weights
  cachedWeightAmax := fun _ => none
  cpuSavedModels := fun _ => none

variable (refs : Fin n → Option (List (Fin n)))

/-- `_fake_quantize_weight`: the amax that the weight is quantised with. -/
def fakeQuantizeWeight (s : State K n) (i : Fin n) : K × State K n :=
  match s.cachedWeightAmax i with
  | some globalAmax => (globalAmax, s)
  | none =>
    match refs i with
    | some siblings =>
      match siblings.findSome? s.cachedWeightAmax with
      | some siblingAmax =>
        (siblingAmax,
          { s with cachedWeightAmax := Function.update s.cachedWeightAmax i (some siblingAmax) })
      | none =>
        let amaxes := (i :: siblings).map fun j => amax (s.weights j)
        let globalAmax := largest amaxes
        (globalAmax,
          { s with cachedWeightAmax := fun j =>
              if j ∈ i :: siblings then some globalAmax else s.cachedWeightAmax j })
    | none =>
      let globalAmax := amax (s.weights i)
      (globalAmax,
        { s with cachedWeightAmax := Function.update s.cachedWeightAmax i (some globalAmax) })

/-- `invalidate_all_scales`. -/
def invalidateAllScales (s : State K n) : State K n := { s with cachedWeightAmax := fun _ => none }

/-- A forward in training, in evaluation or at a recomputation; a step of the optimizer, with the
weights after it unless it is skipped; and what is done to the weights as a whole. -/
inductive Op (K : Type) (n : Nat)
  | forward (i : Fin n)
  | optimizerStep (updated : Option (Fin n → List K))
  | loadCheckpoint (weights : Fin n → List K)
  | saveModelToCpu (key : Nat)
  | restoreModelFromCpu (key : Nat)
  | clearCpuModel (key : Nat)

def step (s : State K n) : Op K n → State K n
  | .forward i => (fakeQuantizeWeight refs s i).2
  | .optimizerStep none => invalidateAllScales s
  | .optimizerStep (some updated) => invalidateAllScales { s with weights := updated }
  | .loadCheckpoint weights => { s with weights := weights }
  | .saveModelToCpu key =>
    { s with cpuSavedModels := Function.update s.cpuSavedModels key (some s.weights) }
  | .restoreModelFromCpu key =>
    match s.cpuSavedModels key with
    | some weights => { s with weights := weights }
    | none => s
  | .clearCpuModel key => { s with cpuSavedModels := Function.update s.cpuSavedModels key none }

def run (s : State K n) (ops : List (Op K n)) : State K n := ops.foldl (step refs) s

end Algorithm

/-! ## Property -/

section Property

variable {K : Type} [Field K] [LinearOrder K] {n : Nat} (refs : Fin n → Option (List (Fin n)))

/-- The largest absolute value over the weights of a module and its siblings. -/
def groupAmax (weights : Fin n → List K) (i : Fin n) : K :=
  amax ((i :: (refs i).getD []).flatMap weights)

/-- A forward of any module would use the amax of the weights as they are. -/
def RightAmax (s : State K n) : Prop :=
  ∀ i, (fakeQuantizeWeight refs s i).1 = groupAmax refs s.weights i

/-- The weights have the amax of the state where it is cached. -/
def KeepsCached (s : State K n) (weights : Fin n → List K) : Prop :=
  ∀ i, s.cachedWeightAmax i ≠ none → groupAmax refs weights i = groupAmax refs s.weights i

/-- A load or a restore changes no amax that is cached. -/
def KeepsAmax (s : State K n) : Op K n → Prop
  | .loadCheckpoint weights => KeepsCached refs s weights
  | .restoreModelFromCpu key => ∀ weights, s.cpuSavedModels key = some weights →
      KeepsCached refs s weights
  | _ => True

end Property

/-! ## The amax of a group -/

section Amax

variable {K : Type} [Field K] [LinearOrder K] {n : Nat}

theorem largest_nonneg (xs : List K) : 0 ≤ largest xs := by
  induction xs with
  | nil => exact le_refl 0
  | cons x xs ih => exact le_max_of_le_right ih

theorem largest_append (xs ys : List K) : largest (xs ++ ys) = max (largest xs) (largest ys) := by
  induction xs with
  | nil => exact (max_eq_right (largest_nonneg ys)).symm
  | cons x xs ih =>
    show max x (largest (xs ++ ys)) = max (max x (largest xs)) (largest ys)
    rw [ih, max_assoc]

theorem largest_perm {xs ys : List K} (h : xs.Perm ys) : largest xs = largest ys :=
  h.foldr_eq 0

theorem amax_flatMap (weights : Fin n → List K) (modules : List (Fin n)) :
    amax (modules.flatMap weights) = largest (modules.map fun j => amax (weights j)) := by
  unfold amax
  rw [List.map_flatMap]
  induction modules with
  | nil => rfl
  | cons i modules ih =>
    rw [List.flatMap_cons, largest_append, ih]
    rfl

/-- Siblings are what `setup_fusion_siblings` makes of them. -/
def Grouped (refs : Fin n → Option (List (Fin n))) : Prop :=
  ∀ i siblings, refs i = some siblings →
    ∃ modules, FusionGroup refs modules ∧ i ∈ modules ∧ siblings = modules.erase i

variable {refs : Fin n → Option (List (Fin n))}

theorem groupAmax_of_mem {modules : List (Fin n)}
    (h : FusionGroup refs modules) (weights : Fin n → List K) {i : Fin n} (hi : i ∈ modules) :
    groupAmax refs weights i = largest (modules.map fun j => amax (weights j)) := by
  unfold groupAmax
  rw [h.siblings i hi, amax_flatMap]
  exact largest_perm ((List.perm_cons_erase hi).symm.map _)

theorem groupAmax_sibling (hrefs : Grouped refs)
    (weights : Fin n → List K) {i j : Fin n} {siblings : List (Fin n)} (h : refs i = some siblings)
    (hj : j ∈ i :: siblings) : groupAmax refs weights j = groupAmax refs weights i := by
  obtain ⟨modules, hgroup, hi, rfl⟩ := hrefs i siblings h
  have hmem : j ∈ modules := (List.perm_cons_erase hi).symm.subset hj
  rw [groupAmax_of_mem hgroup weights hmem, groupAmax_of_mem hgroup weights hi]

end Amax

/-! ## The invariant -/

section Invariant

variable {K : Type} [Field K] [LinearOrder K] {n : Nat} {refs : Fin n → Option (List (Fin n))}

/-- What is cached is the amax of the weights as they are. -/
def Inv (refs : Fin n → Option (List (Fin n))) (s : State K n) : Prop :=
  ∀ i globalAmax, s.cachedWeightAmax i = some globalAmax →
    globalAmax = groupAmax refs s.weights i

theorem Inv.update {s : State K n} (h : Inv refs s) {i : Fin n} {globalAmax : K}
    (hamax : globalAmax = groupAmax refs s.weights i) :
    Inv refs { s with
      cachedWeightAmax := Function.update s.cachedWeightAmax i (some globalAmax) } := by
  intro j a ha
  by_cases hj : j = i
  · grind
  · have ha : Function.update s.cachedWeightAmax i (some globalAmax) j = some a := ha
    rw [Function.update_of_ne hj (some globalAmax) s.cachedWeightAmax] at ha
    exact h j a ha

theorem Inv.forward (hrefs : Grouped refs) {s : State K n} (h : Inv refs s) (i : Fin n) :
    (fakeQuantizeWeight refs s i).1 = groupAmax refs s.weights i ∧
      Inv refs (fakeQuantizeWeight refs s i).2 := by
  unfold fakeQuantizeWeight
  cases hcached : s.cachedWeightAmax i with
  | some globalAmax => exact ⟨h i globalAmax hcached, h⟩
  | none =>
    cases hsiblings : refs i with
    | none =>
      have hamax : amax (s.weights i) = groupAmax refs s.weights i := by
        unfold groupAmax
        rw [hsiblings, getD_none, List.flatMap_singleton]
      exact ⟨hamax, h.update hamax⟩
    | some siblings =>
      dsimp only
      cases hfind : siblings.findSome? s.cachedWeightAmax with
      | some siblingAmax =>
        obtain ⟨j, hj, hcachedj⟩ := List.exists_of_findSome?_eq_some hfind
        have hamax : siblingAmax = groupAmax refs s.weights i :=
          (h j siblingAmax hcachedj).trans
            (groupAmax_sibling hrefs s.weights hsiblings (List.mem_cons_of_mem i hj))
        exact ⟨hamax, h.update hamax⟩
      | none =>
        have hamax : largest ((i :: siblings).map fun j => amax (s.weights j)) =
            groupAmax refs s.weights i := by
          unfold groupAmax
          rw [hsiblings, getD_some, amax_flatMap]
        refine ⟨hamax, fun j a ha => ?_⟩
        dsimp only at ha
        split at ha
        case isTrue hj =>
          rw [groupAmax_sibling hrefs s.weights hsiblings hj, ← hamax]
          exact (some.inj ha).symm
        case isFalse => exact h j a ha

theorem rightAmax_iff (hrefs : Grouped refs) {s : State K n} : RightAmax refs s ↔ Inv refs s := by
  refine ⟨fun h i globalAmax hcached => ?_, fun h i => (h.forward hrefs i).1⟩
  have hforward := h i
  unfold fakeQuantizeWeight at hforward
  rw [hcached] at hforward
  exact hforward

theorem inv_setWeights_iff {s : State K n} (h : Inv refs s) (weights : Fin n → List K) :
    Inv refs { s with weights := weights } ↔ KeepsCached refs s weights := by
  constructor
  · intro hnew i hcached
    obtain ⟨globalAmax, hsome⟩ := ne_none_iff_exists'.1 hcached
    rw [← h i globalAmax hsome]
    exact (hnew i globalAmax hsome).symm
  · intro hkeeps i globalAmax hsome
    have hcached : s.cachedWeightAmax i ≠ none := by grind
    exact (h i globalAmax hsome).trans (hkeeps i hcached).symm

theorem inv_step_iff (hrefs : Grouped refs) {s : State K n} (h : Inv refs s) (op : Op K n) :
    Inv refs (step refs s op) ↔ KeepsAmax refs s op := by
  cases op with
  | forward i => exact iff_of_true (h.forward hrefs i).2 trivial
  | optimizerStep updated =>
    have hcleared : ∀ s : State K n, Inv refs (invalidateAllScales s) :=
      fun s i globalAmax hcached => by cases hcached
    cases updated with
    | none => exact iff_of_true (hcleared _) trivial
    | some updated => exact iff_of_true (hcleared _) trivial
  | loadCheckpoint weights => exact inv_setWeights_iff h weights
  | saveModelToCpu key => exact iff_of_true h trivial
  | clearCpuModel key => exact iff_of_true h trivial
  | restoreModelFromCpu key =>
    show Inv refs (match s.cpuSavedModels key with
        | some weights => { s with weights := weights }
        | none => s) ↔
      ∀ weights, s.cpuSavedModels key = some weights → KeepsCached refs s weights
    cases hsaved : s.cpuSavedModels key with
    | none => exact iff_of_true h fun weights hweights => by cases hweights
    | some weights =>
      rw [inv_setWeights_iff h weights]
      exact ⟨fun hkeeps weights' hweights => some.inj hweights ▸ hkeeps,
        fun hall => hall weights rfl⟩

end Invariant

/-! ## Runs -/

theorem run_append_singleton {K : Type} [Field K] [LinearOrder K] {n : Nat}
    (refs : Fin n → Option (List (Fin n))) (s : State K n) (ops : List (Op K n)) (op : Op K n) :
    run refs s (ops ++ [op]) = step refs (run refs s ops) op := by
  unfold run
  rw [List.foldl_append, List.foldl_cons, List.foldl_nil]

/-- In every state that a run reaches a forward of any module would use the amax of its group,
exactly if no load and no restore of the run changes an amax that is cached. -/
theorem rightAmax_iff_keepsAmax {K : Type} [Field K] [LinearOrder K] {n : Nat} (m : Modules n)
    (weights : Fin n → List K) (ops : List (Op K n)) :
    (∀ before, before <+: ops → RightAmax (setupFusionSiblings m)
        (run (setupFusionSiblings m) (State.initial weights) before)) ↔
      ∀ before op, before ++ [op] <+: ops → KeepsAmax (setupFusionSiblings m)
        (run (setupFusionSiblings m) (State.initial weights) before) op := by
  have hrefs : Grouped (setupFusionSiblings m) := fun _ _ h => exists_fusionGroup h
  constructor
  · intro h before op hop
    have hbefore := (rightAmax_iff hrefs).1 (h before ((List.prefix_append before [op]).trans hop))
    have hafter := (rightAmax_iff hrefs).1 (h (before ++ [op]) hop)
    rw [run_append_singleton] at hafter
    exact (inv_step_iff hrefs hbefore op).1 hafter
  · intro h before
    induction before using List.reverseRecOn with
    | nil =>
      intro _
      refine (rightAmax_iff hrefs).2 fun i globalAmax hcached => ?_
      cases hcached
    | append_singleton before op ih =>
      intro hop
      have hbefore := ih ((List.prefix_append before [op]).trans hop)
      rw [run_append_singleton]
      exact (rightAmax_iff hrefs).2
        ((inv_step_iff hrefs ((rightAmax_iff hrefs).1 hbefore) op).2 (h before op hop))

/-- The projections of an MLP. -/
def mlp : Modules 2 where
  name := ![ "model.layers.0.mlp.gate_proj", "model.layers.0.mlp.up_proj" ]
  injective := by decide

/-- After a forward a checkpoint is loaded, or an older snapshot restored: the sibling is quantised
with the amax from before. -/
theorem staleAmax :
    (let s := run (setupFusionSiblings mlp) (State.initial fun _ => [(1 : ℚ)])
      [.forward 0, .loadCheckpoint fun _ => [2, -3]]
    (fakeQuantizeWeight (setupFusionSiblings mlp) s 1).1 = 1 ∧
      groupAmax (setupFusionSiblings mlp) s.weights 1 = 3) ∧
    let s := run (setupFusionSiblings mlp) (State.initial fun _ => [(1 : ℚ)])
      [.saveModelToCpu 0, .optimizerStep (some fun _ => [2]), .forward 0, .restoreModelFromCpu 0]
    (fakeQuantizeWeight (setupFusionSiblings mlp) s 1).1 = 2 ∧
      groupAmax (setupFusionSiblings mlp) s.weights 1 = 1 := by
  decide +kernel

end Verl.Qat
