import Verl.Lib.Slice
import Verl.Qat.ExportedWeights

/-! # Training and rollout weights (`verl/utils/qat`)

The weight of a training forward should be the one that the rollout engine reads from the export.
For a model and its patterns this is so for all weights, apart from blocks whose scale is tiny, if
both sides pick the same layers and share the scales of the same layers.

    q_proj, k_proj, v_proj                training: one amax        export: one scale
    q_proj, k_proj, v_proj is ignored     training: one amax        export: a scale for each

* `SelectsAlike`, `FusesAlike`: the same layers, the same groups.
* `matches_iff_noTinyBlock`: the exact condition. -/

namespace Verl.Qat

open List

variable (reMatch : String → String → Bool) (c : QatConfig) (m : Model)

/-! ## Training -/

/-- The `QATLinear` modules in the order of the model. -/
def qatModules : Modules (applyQat reMatch c m).length where
  name := fun i => ((applyQat reMatch c m).get i).name
  injective := by
    intro i j h
    exact nodup_iff_injective_get.1 (nodup_applyQat.of_map) (inj_on_of_nodup_map
      nodup_applyQat (get_mem _ i) (get_mem _ j) h)

/-- The references that `setup_fusion_siblings` sets. -/
def siblingRefs : Fin (applyQat reMatch c m).length →
    Option (List (Fin (applyQat reMatch c m).length)) :=
  setupFusionSiblings (qatModules reMatch c m)

/-- The entries of the weights. -/
def weightsOf (w : String → Nat → Nat → ℚ) (i : Fin (applyQat reMatch c m).length) : List ℚ :=
  let l := (applyQat reMatch c m).get i
  matrixEntries l.outFeatures l.inFeatures (w (l.name ++ ".weight"))

/-- The weight of a training forward with nothing cached. -/
def forwardWeight (w : String → Nat → Nat → ℚ) (i : Fin (applyQat reMatch c m).length)
    (row col : Nat) : ℚ :=
  let l := (applyQat reMatch c m).get i
  let globalAmax :=
    (fakeQuantizeWeight (siblingRefs reMatch c m) (State.initial (weightsOf reMatch c m w)) i).1
  fp4FakeQuantWeight (w (l.name ++ ".weight")) l.outFeatures l.inFeatures globalAmax c.groupSize
    row col

/-! ## Property -/

/-- The modules of training are the ones that are packed, and have the weights of the rollout. -/
def Matches (w : String → Nat → Nat → ℚ) : Prop :=
  ∃ out, quantizeWithFusion reMatch c (m.stateDict w) = .ok out ∧
    (∀ name, (∃ l ∈ applyQat reMatch c m, l.name = name) ↔
      ∃ values, (name ++ ".weight_packed", Exported.weightPacked values) ∈ out) ∧
    ∀ i, ∃ values scale globalScale,
      Exports out ((applyQat reMatch c m).get i).name values scale globalScale ∧
        ∀ row < ((applyQat reMatch c m).get i).outFeatures,
          ∀ col < ((applyQat reMatch c m).get i).inFeatures,
            forwardWeight reMatch c m w i row col =
              values row col * scale row (col / c.groupSize) / globalScale

/-- Training and export return: a forward has no amax of an empty weight, and the exporter does not
raise for one of the weights. -/
structure QatRuns : Prop where
  groupSize_pos : 0 < c.groupSize
  trains : ∀ l ∈ applyQat reMatch c m, 0 < l.outFeatures ∧ 0 < l.inFeatures
  exports : ∃ w out, quantizeWithFusion reMatch c (m.stateDict w) = .ok out

/-- No weight is zero. -/
def Nonzero (w : String → Nat → Nat → ℚ) : Prop :=
  ∀ l ∈ applyQat reMatch c m, ∃ row < l.outFeatures, ∃ col < l.inFeatures,
    w (l.name ++ ".weight") row col ≠ 0

/-- A layer shares its amax in training with the layers that it shares its scale with. -/
def FusesAlike : Prop :=
  ∀ run ∈ layerRuns m, ∀ i, ((applyQat reMatch c m).get i).name ∈ packedNames reMatch c run.2 →
    ∀ name, name ∈ fusedWith (packedNames reMatch c run.2) ((applyQat reMatch c m).get i).name ↔
      ∃ j ∈ i :: (siblingRefs reMatch c m i).getD [], ((applyQat reMatch c m).get j).name = name

/-- Every block has a step that fits. -/
def NoTinyBlock (w : String → Nat → Nat → ℚ) : Prop :=
  ∀ i, ∀ row < ((applyQat reMatch c m).get i).outFeatures,
    ∀ b < ((applyQat reMatch c m).get i).inFeatures / c.groupSize,
      StepFits (groupAmax (siblingRefs reMatch c m) (weightsOf reMatch c m w) i)
        (blockMax c.groupSize (w (((applyQat reMatch c m).get i).name ++ ".weight")) row b)

variable {reMatch c m} {w : String → Nat → Nat → ℚ}

/-! ## Amaxes -/

theorem mem_matrixEntries {rows cols : Nat} {x : Nat → Nat → ℚ} {y : ℚ} :
    y ∈ matrixEntries rows cols x ↔ ∃ i < rows, ∃ j < cols, x i j = y := by
  unfold matrixEntries
  simp [mem_flatMap]

variable {xs : List ℚ} (i : Fin (applyQat reMatch c m).length) {a : ℚ}

theorem largest_le_iff (h : 0 ≤ a) : largest xs ≤ a ↔ ∀ x ∈ xs, x ≤ a := by
  induction xs with
  | nil => exact iff_of_true h fun x hx => by cases hx
  | cons x xs ih =>
    show max x (largest xs) ≤ a ↔ _
    rw [max_le_iff, ih, forall_mem_cons]

theorem le_largest {x : ℚ} (h : x ∈ xs) : x ≤ largest xs :=
  (largest_le_iff (largest_nonneg xs)).1 (le_refl _) x h

theorem largest_congr {xs ys : List ℚ} (h : ∀ x, x ∈ xs ↔ x ∈ ys) : largest xs = largest ys := by
  apply le_antisymm
  · exact (largest_le_iff (largest_nonneg ys)).2 fun x hx => le_largest ((h x).1 hx)
  · exact (largest_le_iff (largest_nonneg xs)).2 fun x hx => le_largest ((h x).2 hx)

theorem forward_amax (weights : Fin (applyQat reMatch c m).length → List ℚ)
    (i : Fin (applyQat reMatch c m).length) :
    (fakeQuantizeWeight (siblingRefs reMatch c m) (State.initial weights) i).1 =
      groupAmax (siblingRefs reMatch c m) weights i := by
  have hrefs : Grouped (siblingRefs reMatch c m) := fun _ _ h => exists_fusionGroup h
  have hinv : Inv (siblingRefs reMatch c m) (State.initial weights) := by
    intro j globalAmax hcached
    cases hcached
  exact (hinv.forward hrefs i).1

theorem weightAmax_eq_amax (j : Fin (applyQat reMatch c m).length) :
    weightAmax m w ((applyQat reMatch c m).get j).name = amax (weightsOf reMatch c m w j) := by
  obtain ⟨bias, hmodule, -⟩ := mem_applyQat.1 (get_mem (applyQat reMatch c m) j)
  exact weightAmax_eq (weight_mem_stateEntries hmodule)

theorem groupAmax_eq_largest :
    groupAmax (siblingRefs reMatch c m) (weightsOf reMatch c m w) i =
      largest ((i :: (siblingRefs reMatch c m i).getD []).map fun j =>
        weightAmax m w ((applyQat reMatch c m).get j).name) := by
  unfold groupAmax
  rw [amax_flatMap]
  simp only [weightAmax_eq_amax]

theorem fusedAmax_eq_groupAmax (hfuses : FusesAlike reMatch c m)
    {run : Option Nat × List (String × List Nat)} (hrun : run ∈ layerRuns m)
    {i : Fin (applyQat reMatch c m).length}
    (hi : ((applyQat reMatch c m).get i).name ∈ packedNames reMatch c run.2) :
    fusedAmax reMatch c m w run.2 ((applyQat reMatch c m).get i).name =
      groupAmax (siblingRefs reMatch c m) (weightsOf reMatch c m w) i := by
  rw [groupAmax_eq_largest]
  refine largest_congr fun a => ?_
  rw [mem_map, mem_map]
  constructor
  · rintro ⟨name, hname, rfl⟩
    obtain ⟨j, hj, rfl⟩ := (hfuses run hrun i hi name).1 hname
    exact ⟨j, hj, rfl⟩
  · rintro ⟨j, hj, rfl⟩
    exact ⟨_, (hfuses run hrun i hi _).2 ⟨j, hj, rfl⟩, rfl⟩

/-! ## Blocks -/

theorem forall_col_iff {groupSize cols : Nat} (hpos : 0 < groupSize) (hdvd : groupSize ∣ cols)
    {P : Nat → Nat → Prop} :
    (∀ col < cols, P (col / groupSize) col) ↔
      ∀ b < cols / groupSize, ∀ k < groupSize, P b (b * groupSize + k) := by
  obtain ⟨blocks, rfl⟩ := hdvd
  rw [Nat.mul_div_cancel_left blocks hpos]
  constructor
  · intro h b hb k hk
    have hlt : b * groupSize + k < groupSize * blocks := by
      have hle := Nat.mul_le_mul_right groupSize (Nat.succ_le_of_lt hb)
      rw [Nat.succ_mul, Nat.mul_comm blocks] at hle
      omega
    have hdiv : (b * groupSize + k) / groupSize = b := by
      rw [Nat.mul_comm, Nat.mul_add_div hpos, Nat.div_eq_of_lt hk, Nat.add_zero]
    rw [← hdiv]
    have hcol := h _ hlt
    rw [hdiv] at hcol ⊢
    exact hcol
  · intro h col hcol
    have hval := h (col / groupSize) (Nat.div_lt_of_lt_mul hcol) (col % groupSize)
      (Nat.mod_lt col hpos)
    rw [Nat.div_add_mod'] at hval
    exact hval

/-- The entries of a block are entries of the weight. -/
theorem blockMax_le_groupAmax {row b : Nat} (hrow : row < ((applyQat reMatch c m).get i).outFeatures)
    (hb : b < ((applyQat reMatch c m).get i).inFeatures / c.groupSize) :
    blockMax c.groupSize (w (((applyQat reMatch c m).get i).name ++ ".weight")) row b ≤
      groupAmax (siblingRefs reMatch c m) (weightsOf reMatch c m w) i := by
  have hin : b * c.groupSize + c.groupSize ≤ ((applyQat reMatch c m).get i).inFeatures := by
    have hle := mul_add_le hb c.groupSize
    exact hle.trans (Nat.div_mul_le_self _ _)
  have hown : amax (weightsOf reMatch c m w i) ≤
      groupAmax (siblingRefs reMatch c m) (weightsOf reMatch c m w) i := by
    unfold groupAmax
    rw [amax_flatMap]
    exact le_largest mem_cons_self
  refine le_trans ?_ hown
  refine (largest_le_iff (largest_nonneg _)).2 fun a ha => le_largest ?_
  rw [map_map] at ha
  obtain ⟨k, hk, rfl⟩ := mem_map.1 ha
  rw [mem_range] at hk
  refine mem_map_of_mem (mem_matrixEntries.2 ⟨row, hrow, b * c.groupSize + k, by omega, rfl⟩)

/-- The two sides have the same values in a layer exactly if all of its blocks have a step that
fits, if the amax is the same. -/
theorem values_agree_iff (hpos : 0 < c.groupSize) (i : Fin (applyQat reMatch c m).length)
    {globalAmax : ℚ} (hamax : 0 < globalAmax)
    (heq : globalAmax = groupAmax (siblingRefs reMatch c m) (weightsOf reMatch c m w) i) :
    (∀ row < ((applyQat reMatch c m).get i).outFeatures,
      ∀ col < ((applyQat reMatch c m).get i).inFeatures,
        forwardWeight reMatch c m w i row col =
          dequantized (computeBlockwiseScale c.groupSize
            (w (((applyQat reMatch c m).get i).name ++ ".weight")) (generateGparam globalAmax) row
              (col / c.groupSize)) (generateGparam globalAmax)
            (w (((applyQat reMatch c m).get i).name ++ ".weight") row col)) ↔
      ∀ row < ((applyQat reMatch c m).get i).outFeatures,
        ∀ b < ((applyQat reMatch c m).get i).inFeatures / c.groupSize,
          StepFits globalAmax
            (blockMax c.groupSize (w (((applyQat reMatch c m).get i).name ++ ".weight")) row b) := by
  generalize hl : (applyQat reMatch c m).get i = l
  generalize hx : w (l.name ++ ".weight") = x
  have hmem : l ∈ applyQat reMatch c m := hl ▸ get_mem _ i
  obtain ⟨-, -, -, hmod⟩ := mem_applyQat.1 hmem
  have hdvd : c.groupSize ∣ l.inFeatures := Nat.dvd_of_mod_eq_zero hmod
  have hforward : ∀ row < l.outFeatures, ∀ col < l.inFeatures,
      forwardWeight reMatch c m w i row col =
        rescaled (blockMaxQuant (globalAmax / (6 * 448))
          (blockMax c.groupSize x row (col / c.groupSize))) (x row col) := by
    intro row hrow col hcol
    unfold forwardWeight
    dsimp only
    rw [hl, hx, forward_amax, ← heq, fp4FakeQuantWeight_eq _ hdvd hrow hcol]
  refine forall_congr' fun row => forall_congr' fun hrow => ?_
  have hcols : (∀ col < l.inFeatures, forwardWeight reMatch c m w i row col =
      dequantized (computeBlockwiseScale c.groupSize x (generateGparam globalAmax) row
        (col / c.groupSize)) (generateGparam globalAmax) (x row col)) ↔
      ∀ col < l.inFeatures, rescaled (blockMaxQuant (globalAmax / (6 * 448))
        (blockMax c.groupSize x row (col / c.groupSize))) (x row col) =
          dequantized (blockwiseScale (generateGparam globalAmax)
            (blockMax c.groupSize x row (col / c.groupSize))) (generateGparam globalAmax)
              (x row col) := by
    refine forall_congr' fun col => forall_congr' fun hcol => ?_
    rw [hforward row hrow col hcol]
    rfl
  rw [hcols, forall_col_iff hpos hdvd
    (P := fun b col => rescaled (blockMaxQuant (globalAmax / (6 * 448))
      (blockMax c.groupSize x row b)) (x row col) =
        dequantized (blockwiseScale (generateGparam globalAmax) (blockMax c.groupSize x row b))
          (generateGparam globalAmax) (x row col))]
  refine forall_congr' fun b => forall_congr' fun hb => ?_
  have hle : blockMax c.groupSize x row b ≤ globalAmax := by
    subst hl hx heq
    exact blockMax_le_groupAmax i hrow hb
  have hne : ((range c.groupSize).map fun k => x row (b * c.groupSize + k)) ≠ [] := by
    rw [ne_eq, map_eq_nil_iff, range_eq_nil]
    exact hpos.ne'
  have hagree := agree_iff hamax hne hle
  rw [forall_mem_map] at hagree
  simp only [mem_range] at hagree
  exact hagree

theorem exists_of_isOk {ε α : Type} {x : Except ε α} (h : x.isOk = true) : ∃ a, x = .ok a := by
  cases x with
  | error e => cases h
  | ok a => exact ⟨a, rfl⟩

/-! ## The same layers and groups -/

theorem groupRuns_of_qatRuns (h : QatRuns reMatch c m) :
    ∀ run ∈ layerRuns m, GroupRuns reMatch c run.1 run.2 := by
  obtain ⟨w, out, hout⟩ := h.exports
  have hdict : m.stateDict w = m.stateEntries.map (withEntries w) := rfl
  rw [quantizeWithFusion_eq, hdict, keyRuns_map] at hout
  obtain ⟨parts, hparts, -⟩ := except_map_eq_ok.1 hout
  intro run hrun
  obtain ⟨part, hpart⟩ := exists_of_mapM hparts (mem_map_of_mem hrun)
  have hgroup := groupRuns_of_eq_ok hpart
  rw [map_map] at hgroup
  have hid : (run.2.map fun e => ((withEntries w e).1, (withEntries w e).2.shape)) = run.2 :=
    map_id run.2
  exact hid ▸ hgroup

theorem exists_run {name : String} (h : name ∈ packedNames reMatch c m.stateEntries) :
    ∃ run ∈ layerRuns m, ∃ shape, (name ++ ".weight", shape) ∈ run.2 ∧
      isLayerWeight reMatch c (name ++ ".weight") shape = true := by
  obtain ⟨shape, hentry, hweight⟩ := mem_packedNames.1 h
  obtain ⟨run, hrun, he⟩ := (mem_iff_mem_keyRuns fun e => extractLayerIdx e.1).1 hentry
  exact ⟨run, hrun, shape, he, hweight⟩

theorem weightAmax_pos (hw : Nonzero reMatch c m w) (hselects : SelectsAlike reMatch c m) :
    ∀ name ∈ packedNames reMatch c m.stateEntries, 0 < weightAmax m w name := by
  intro name hname
  obtain ⟨l, hl, rfl⟩ := (selectsAlike_iff.2 hselects name).2 hname
  obtain ⟨bias, hmodule, -⟩ := mem_applyQat.1 hl
  obtain ⟨row, hrow, col, hcol, hne⟩ := hw l hl
  rw [weightAmax_eq (weight_mem_stateEntries hmodule)]
  exact (abs_pos.2 hne).trans_le
    (abs_le_amax (mem_matrixEntries.2 ⟨row, hrow, col, hcol, rfl⟩))

/-- With the same layers and the same groups, the steps of the blocks decide. -/
theorem matches_iff_of_alike (h : QatRuns reMatch c m) (hselects : SelectsAlike reMatch c m)
    (hfuses : FusesAlike reMatch c m) (hw : Nonzero reMatch c m w) :
    Matches reMatch c m w ↔ NoTinyBlock reMatch c m w := by
  have hexport := exists_export (groupRuns_of_qatRuns h) (weightAmax_pos hw hselects)
  have hlayer : ∀ i, (∃ values scale globalScale,
      Exports ((layerRuns m).flatMap fun run => exportOf reMatch c m w run.2)
        ((applyQat reMatch c m).get i).name values scale globalScale ∧
        ∀ row < ((applyQat reMatch c m).get i).outFeatures,
          ∀ col < ((applyQat reMatch c m).get i).inFeatures,
            forwardWeight reMatch c m w i row col =
              values row col * scale row (col / c.groupSize) / globalScale) ↔
      ∀ row < ((applyQat reMatch c m).get i).outFeatures,
        ∀ b < ((applyQat reMatch c m).get i).inFeatures / c.groupSize,
          StepFits (groupAmax (siblingRefs reMatch c m) (weightsOf reMatch c m w) i)
            (blockMax c.groupSize (w (((applyQat reMatch c m).get i).name ++ ".weight")) row b) := by
    intro i
    have hpacked := (selectsAlike_iff.2 hselects _).1 ⟨_, get_mem (applyQat reMatch c m) i, rfl⟩
    obtain ⟨run, hrun, shape, he, hweight⟩ := exists_run hpacked
    have hin := mem_packedNames.2 ⟨shape, he, hweight⟩
    have hamax := fusedAmax_eq_groupAmax (w := w) hfuses hrun hin
    have hpos : 0 < fusedAmax reMatch c m w run.2 ((applyQat reMatch c m).get i).name :=
      (weightAmax_pos hw hselects _ hpacked).trans_le
        (le_largest (mem_map_of_mem (mem_fusedWith_self _ _)))
    rw [← hamax]
    refine Iff.trans ?_ (values_agree_iff h.groupSize_pos i hpos hamax)
    constructor
    · rintro ⟨values, scale, globalScale, hexports, hvalues⟩
      obtain ⟨rfl, rfl, rfl⟩ := (exports_iff hrun he hweight).1 hexports
      exact hvalues
    · intro hvalues
      exact ⟨_, _, _, (exports_iff hrun he hweight).2 ⟨rfl, rfl, rfl⟩, hvalues⟩
  constructor
  · rintro ⟨out, hout, -, hvalues⟩ i
    cases hexport.symm.trans hout
    exact (hlayer i).1 (hvalues i)
  · intro hsteps
    refine ⟨_, hexport, fun name => ?_, fun i => (hlayer i).2 (hsteps i)⟩
    rw [exists_weightPacked_iff]
    exact selectsAlike_iff.2 hselects name

/-! ## Other layers or groups -/

/-- Weights with the entry 3 in one layer, and 1 in all others. -/
def threeIn (name : String) : String → Nat → Nat → ℚ :=
  fun key _ _ => if key = name ++ ".weight" then 3 else 1

theorem threeIn_weight (name name' : String) (row col : Nat) :
    threeIn name (name' ++ ".weight") row col = if name' = name then 3 else 1 := by
  exact if_congr ⟨append_right_injective ".weight", congrArg (· ++ ".weight")⟩ rfl rfl

theorem amax_of_forall (hne : xs ≠ []) (ha : 0 ≤ a) (h : ∀ x ∈ xs, x = a) :
    amax xs = a := by
  obtain ⟨x, hx, heq⟩ := exists_abs_eq_amax hne
  rw [← heq, h x hx, abs_of_nonneg ha]

theorem three_or_one_nonneg (p : Prop) [Decidable p] : (0 : ℚ) ≤ if p then 3 else 1 := by
  split <;> norm_num

theorem amax_matrixEntries_threeIn {name name' : String} {rows cols : Nat} (hrows : 0 < rows)
    (hcols : 0 < cols) :
    amax (matrixEntries rows cols (threeIn name (name' ++ ".weight"))) =
      if name' = name then 3 else 1 := by
  refine amax_of_forall ?_ (three_or_one_nonneg _) fun y hy => ?_
  · exact ne_nil_of_mem (mem_matrixEntries.2 ⟨0, hrows, 0, hcols, rfl⟩)
  · obtain ⟨row, -, col, -, rfl⟩ := mem_matrixEntries.1 hy
    exact threeIn_weight name name' row col

theorem largest_three_or_one {ι : Type} {xs : List ι} (hne : xs ≠ []) {f : ι → ℚ} {p : ι → Prop}
    [DecidablePred p] (hf : ∀ x ∈ xs, f x = if p x then 3 else 1) :
    largest (xs.map f) = if ∃ x ∈ xs, p x then 3 else 1 := by
  apply le_antisymm
  · refine (largest_le_iff (three_or_one_nonneg _)).2 fun a ha => ?_
    obtain ⟨x, hx, rfl⟩ := mem_map.1 ha
    rw [hf x hx]
    by_cases hp : p x
    · rw [if_pos hp, if_pos ⟨x, hx, hp⟩]
    · rw [if_neg hp]
      split <;> norm_num
  · split
    case isTrue h =>
      obtain ⟨x, hx, hp⟩ := h
      have hfx := hf x hx
      rw [if_pos hp] at hfx
      rw [← hfx]
      exact le_largest (mem_map_of_mem hx)
    case isFalse h =>
      obtain ⟨x, hx⟩ := exists_mem_of_ne_nil xs hne
      have hfx := hf x hx
      rw [if_neg fun hp => h ⟨x, hx, hp⟩] at hfx
      rw [← hfx]
      exact le_largest (mem_map_of_mem hx)

theorem nonzero_threeIn (h : QatRuns reMatch c m) (name : String) :
    Nonzero reMatch c m (threeIn name) := by
  intro l hl
  obtain ⟨hrows, hcols⟩ := h.trains l hl
  refine ⟨0, hrows, 0, hcols, ?_⟩
  rw [threeIn_weight]
  split <;> norm_num

theorem weightAmax_threeIn (h : QatRuns reMatch c m) {name name' : String}
    (hname : name' ∈ packedNames reMatch c m.stateEntries) :
    weightAmax m (threeIn name) name' = if name' = name then 3 else 1 := by
  obtain ⟨run, hrun, shape, he, hweight⟩ := exists_run hname
  obtain ⟨-, -, ⟨rows, cols, rfl, -⟩, -⟩ := isLayerWeight_iff.1 hweight
  have hzero := (groupRuns_of_qatRuns h run hrun).2 _ he hweight
  have hrows : 0 < rows := Nat.pos_of_ne_zero fun heq => hzero (by simp [heq])
  have hcols : 0 < cols := Nat.pos_of_ne_zero fun heq => hzero (by simp [heq])
  rw [weightAmax_eq (mem_of_mem_layerRuns hrun he), amax_matrixEntries_threeIn hrows hcols]

theorem groupAmax_threeIn (h : QatRuns reMatch c m) (name : String)
    (i : Fin (applyQat reMatch c m).length) :
    groupAmax (siblingRefs reMatch c m) (weightsOf reMatch c m (threeIn name)) i =
      if ∃ j ∈ i :: (siblingRefs reMatch c m i).getD [], ((applyQat reMatch c m).get j).name = name
      then 3 else 1 := by
  unfold groupAmax
  rw [amax_flatMap]
  refine (largest_three_or_one (p := fun j => ((applyQat reMatch c m).get j).name = name)
    (cons_ne_nil _ _) fun j _ => ?_).trans (by congr)
  obtain ⟨hrows, hcols⟩ := h.trains _ (get_mem (applyQat reMatch c m) j)
  exact amax_matrixEntries_threeIn hrows hcols

theorem blockMax_threeIn (hpos : 0 < c.groupSize) (name name' : String) (row b : Nat) :
    blockMax c.groupSize (threeIn name (name' ++ ".weight")) row b =
      if name' = name then 3 else 1 := by
  refine amax_of_forall ?_ (three_or_one_nonneg _) fun y hy => ?_
  · rw [ne_eq, map_eq_nil_iff, range_eq_nil]
    exact hpos.ne'
  · obtain ⟨k, -, rfl⟩ := mem_map.1 hy
    exact threeIn_weight name name' _ _

theorem stepFits_three_three : StepFits 3 3 := Or.inl (by decide +kernel)

theorem stepFits_three_one : StepFits 3 1 := Or.inl (by decide +kernel)

theorem stepFits_one_one : StepFits 1 1 := Or.inl (by decide +kernel)

theorem noTinyBlock_threeIn (h : QatRuns reMatch c m) (name : String) :
    NoTinyBlock reMatch c m (threeIn name) := by
  intro i row _ b _
  rw [groupAmax_threeIn h, blockMax_threeIn h.groupSize_pos]
  by_cases hself : ((applyQat reMatch c m).get i).name = name
  · rw [if_pos hself, if_pos ⟨i, mem_cons_self, hself⟩]
    exact stepFits_three_three
  · rw [if_neg hself]
    split
    · exact stepFits_three_one
    · exact stepFits_one_one

theorem export_threeIn (h : QatRuns reMatch c m) (name : String) :
    quantizeWithFusion reMatch c (m.stateDict (threeIn name)) =
      .ok ((layerRuns m).flatMap fun run => exportOf reMatch c m (threeIn name) run.2) := by
  refine exists_export (groupRuns_of_qatRuns h) fun name' hname' => ?_
  rw [weightAmax_threeIn h hname']
  split <;> norm_num

/-- If the two sides agree on these weights they pick the same layers. -/
theorem selectsAlike_of_matches (h : QatRuns reMatch c m) {name : String}
    (hmatches : Matches reMatch c m (threeIn name)) : SelectsAlike reMatch c m := by
  obtain ⟨out, hout, hselects, -⟩ := hmatches
  cases (export_threeIn h name).symm.trans hout
  refine selectsAlike_iff.1 fun name' => ?_
  rw [hselects name', exists_weightPacked_iff]

theorem one_of_other_amax : rescaled (blockMaxQuant (3 / (6 * 448)) 1) 1 ≠
        dequantized (blockwiseScale (generateGparam 1) 1) (generateGparam 1) 1 ∧
      rescaled (blockMaxQuant (1 / (6 * 448)) 1) 1 ≠
        dequantized (blockwiseScale (generateGparam 3) 1) (generateGparam 3) 1 := by
  decide +kernel

/-- If the two sides agree where a layer has other weights, it is in both groups or in none. -/
theorem mem_fusedWith_iff_of_matches (h : QatRuns reMatch c m) {name : String}
    (hmatches : Matches reMatch c m (threeIn name)) {run : Option Nat × List (String × List Nat)}
    (hrun : run ∈ layerRuns m) {i : Fin (applyQat reMatch c m).length}
    (hi : ((applyQat reMatch c m).get i).name ∈ packedNames reMatch c run.2) :
    name ∈ fusedWith (packedNames reMatch c run.2) ((applyQat reMatch c m).get i).name ↔
      ∃ j ∈ i :: (siblingRefs reMatch c m i).getD [], ((applyQat reMatch c m).get j).name = name := by
  by_cases hself : ((applyQat reMatch c m).get i).name = name
  · rw [← hself]
    exact iff_of_true (mem_fusedWith_self _ _) ⟨i, mem_cons_self, rfl⟩
  obtain ⟨out, hout, -, hvalues⟩ := hmatches
  cases (export_threeIn h name).symm.trans hout
  obtain ⟨values, scale, globalScale, hexports, hvalues⟩ := hvalues i
  obtain ⟨shape, he, hweight⟩ := mem_packedNames.1 hi
  obtain ⟨rfl, rfl, rfl⟩ := (exports_iff hrun he hweight).1 hexports
  obtain ⟨hrows, hcols⟩ := h.trains _ (get_mem (applyQat reMatch c m) i)
  obtain ⟨-, -, -, hmod⟩ := mem_applyQat.1 (get_mem (applyQat reMatch c m) i)
  -- the amax of the export, and of the forward
  have hfused : fusedAmax reMatch c m (threeIn name) run.2 ((applyQat reMatch c m).get i).name =
      if ∃ n ∈ fusedWith (packedNames reMatch c run.2) ((applyQat reMatch c m).get i).name,
        n = name then 3 else 1 := by
    refine largest_three_or_one (ne_nil_of_mem (mem_fusedWith_self _ _)) fun n hn => ?_
    obtain ⟨shape', he', hweight'⟩ := mem_packedNames.1 (mem_of_mem_fusedWith hi hn)
    exact weightAmax_threeIn h
      (mem_packedNames.2 ⟨shape', mem_of_mem_layerRuns hrun he', hweight'⟩)
  have hentry := hvalues 0 hrows 0 hcols
  unfold forwardWeight at hentry
  rw [forward_amax, groupAmax_threeIn h,
    fp4FakeQuantWeight_eq _ (Nat.dvd_of_mod_eq_zero hmod) hrows hcols,
    blockMax_threeIn h.groupSize_pos, threeIn_weight, if_neg hself] at hentry
  have hexport : ∀ g, compressWeight c.groupSize
      (threeIn name (((applyQat reMatch c m).get i).name ++ ".weight"))
      (computeBlockwiseScale c.groupSize
        (threeIn name (((applyQat reMatch c m).get i).name ++ ".weight")) g) g 0 0 *
      computeBlockwiseScale c.groupSize
        (threeIn name (((applyQat reMatch c m).get i).name ++ ".weight")) g 0 (0 / c.groupSize) /
      g = dequantized (blockwiseScale g 1) g 1 := by
    intro g
    unfold compressWeight computeBlockwiseScale
    rw [blockMax_threeIn h.groupSize_pos, threeIn_weight, if_neg hself]
    rfl
  rw [hexport, hfused] at hentry
  simp only [exists_eq_right] at hentry
  constructor
  · intro hin
    by_contra hout
    rw [if_pos hin, if_neg hout] at hentry
    exact one_of_other_amax.2 hentry
  · intro hin
    by_contra hout
    rw [if_neg hout, if_pos hin] at hentry
    exact one_of_other_amax.1 hentry

/-- The two sides pick the same layers and share the same scales exactly if they agree for all
weights but those with a tiny block. -/
theorem alike_iff_matches_iff_noTinyBlock (reMatch : String → String → Bool) (c : QatConfig)
    (m : Model) (h : QatRuns reMatch c m) :
    SelectsAlike reMatch c m ∧ FusesAlike reMatch c m ↔
      ∀ w, Nonzero reMatch c m w → (Matches reMatch c m w ↔ NoTinyBlock reMatch c m w) := by
  constructor
  · rintro ⟨hselects, hfuses⟩ w hw
    exact matches_iff_of_alike h hselects hfuses hw
  · intro hall
    have hmatches : ∀ name, Matches reMatch c m (threeIn name) := fun name =>
      (hall _ (nonzero_threeIn h name)).2 (noTinyBlock_threeIn h name)
    exact ⟨selectsAlike_of_matches h (hmatches ""), fun run hrun i hi name =>
      mem_fusedWith_iff_of_matches h (hmatches name) hrun hi⟩

/-- An attention layer with three projections, in two blocks a row. -/
def attention : Model where
  modules :=
    [ .other "" [], .linear "model.layers.0.self_attn.q_proj" 1 32 true,
      .linear "model.layers.0.self_attn.k_proj" 1 32 true,
      .linear "model.layers.0.self_attn.v_proj" 1 32 true,
      .other "model.layers.0.input_layernorm" [("weight", [32])], .linear "lm_head" 2 32 false]
  nodup := by decide +kernel
  nodup_keys := by decide +kernel
  root := by
    intro outFeatures inFeatures bias h
    simp at h

/-- The run of layer 0. -/
def attentionRun : Option Nat × List (String × List Nat) :=
  (some 0,
    [ ("model.layers.0.self_attn.q_proj.weight", [1, 32]),
      ("model.layers.0.self_attn.q_proj.bias", [1]),
      ("model.layers.0.self_attn.k_proj.weight", [1, 32]),
      ("model.layers.0.self_attn.k_proj.bias", [1]),
      ("model.layers.0.self_attn.v_proj.weight", [1, 32]),
      ("model.layers.0.self_attn.v_proj.bias", [1]),
      ("model.layers.0.input_layernorm.weight", [32])])

theorem alike_iff_matches_iff_noTinyBlock_attention :
    SelectsAlike (fun _ _ => false) ⟨16, [ "lm_head"]⟩ attention ∧
        FusesAlike (fun _ _ => false) ⟨16, [ "lm_head"]⟩ attention ↔
      ∀ w, Nonzero (fun _ _ => false) ⟨16, [ "lm_head"]⟩ attention w →
        (Matches (fun _ _ => false) ⟨16, [ "lm_head"]⟩ attention w ↔
          NoTinyBlock (fun _ _ => false) ⟨16, [ "lm_head"]⟩ attention w) :=
  alike_iff_matches_iff_noTinyBlock _ _ _
    { groupSize_pos := by decide
      trains := by decide +kernel
      exports := ⟨fun _ _ _ => 1, exists_of_isOk (by decide +kernel)⟩ }

/-- `v_proj` is ignored: in training `q_proj` is rounded with the amax of `k_proj`, in the export with
its own. -/
theorem not_matches_ignored_v_proj :
    ¬Matches (fun _ _ => false) ⟨16, [ "lm_head", "v_proj"]⟩ attention
      (threeIn "model.layers.0.self_attn.k_proj") := by
  intro hmatches
  have hruns : QatRuns (fun _ _ => false) ⟨16, [ "lm_head", "v_proj"]⟩ attention :=
    { groupSize_pos := by decide
      trains := by decide +kernel
      exports := ⟨fun _ _ _ => 1, exists_of_isOk (by decide +kernel)⟩ }
  have hrun : attentionRun ∈ layerRuns attention := by decide +kernel
  have hiff := mem_fusedWith_iff_of_matches hruns hmatches hrun (i := ⟨0, by decide +kernel⟩)
    (by decide +kernel)
  revert hiff
  decide +kernel

end Verl.Qat
