import Verl.Lib.Python

/-! # Snapshots of a model in CPU memory (`utils/fsdp_utils.py`)

`save_model_to_cpu` keeps `param.detach().cpu()` for every parameter under a key, and
`restore_model_from_cpu` copies it back.  `cpu()` of a tensor that is on the CPU already is that
tensor, so that the snapshot changes with the parameter; and the load compares every placement with
that of the first DTensor (`restoresAll_iff`).
-/

namespace Verl.CpuSnapshots

open List Function

/-- A parameter: a DTensor, its shard on the GPU, or a plain tensor on some device. -/
inductive Kind
  | dtensor
  | plain (onCpu : Bool)
  deriving DecidableEq

structure Param where
  name : String
  shape : List Nat
  kind : Kind

/-- `get_shard_placement_fn(fsdp_size)`: the dimension that is sharded. -/
def shardPlacementFn (fsdpSize : Nat) (shape : List Nat) : Nat :=
  (shape.findIdx? fun n => n % fsdpSize == 0).getD 0

/-- What `detach().cpu()` gives: a copy, or the storage of the parameter itself. -/
inductive CpuTensor (V : Type)
  | copied (value : V)
  | shared

def CpuTensor.read {V : Type} (current : V) : CpuTensor V → V
  | .copied value => value
  | .shared => current

/-- A parameter in a snapshot, with the placement of its spec if it is a DTensor. -/
structure Entry (V : Type) where
  tensor : CpuTensor V
  spec : Option Nat

structure Snapshot (k : Nat) (V : Type) where
  shards : Fin k → Entry V
  globalSpec : Nat

structure State (κ : Type) (k : Nat) (V : Type) where
  values : Fin k → V
  cpuSavedModels : κ → Option (Snapshot k V)

section Model

variable {κ V : Type} [DecidableEq κ] {k : Nat} (fsdpSize : Nat) (params : Fin k → Param)

def placement (i : Fin k) : Nat := shardPlacementFn fsdpSize (params i).shape

def cpuShard (values : Fin k → V) (i : Fin k) : Entry V :=
  match (params i).kind with
  | .dtensor => ⟨.copied (values i), some (placement fsdpSize params i)⟩
  | .plain onCpu => ⟨if onCpu then .shared else .copied (values i), none⟩

/-- The parameters whose placement the load can compare with, in order. -/
def dtensors : List (Fin k) := (List.finRange k).filter fun i => (params i).kind = .dtensor

def fsdp2ShardedSaveToCpu (values : Fin k → V) : Except PyErr (Snapshot k V) :=
  match (dtensors params).head? with
  | none => .error (.assertionError
      "No DTensor-type parameters found in the model. FSDP2 sharding may not be enabled.")
  | some first => .ok ⟨cpuShard fsdpSize params values, placement fsdpSize params first⟩

def checkSpec (snapshot : Snapshot k V) (i : Fin k) : Except PyErr Unit := do
  if (params i).kind = .dtensor then
    pyAssert (snapshot.shards i).spec.isSome
      s!"DTensorSpec missing in saved state for parameter {(params i).name}"
    pyAssert ((snapshot.shards i).spec == some snapshot.globalSpec)
      s!"Sharding strategy mismatch for parameter {(params i).name} (conflicts with global rules)!"

/-- Every parameter is checked, and takes what its snapshot has now. -/
def fsdp2ShardedLoadFromCpu (snapshot : Snapshot k V) (values : Fin k → V) :
    Except PyErr (Fin k → V) := do
  (List.finRange k).forM (checkSpec params snapshot)
  return fun i => (snapshot.shards i).tensor.read (values i)

inductive Op (κ : Type) (k : Nat) (V : Type)
  | saveModelToCpu (n : κ)
  | restoreModelFromCpu (n : κ)
  | clearCpuModel (n : κ)
  | updateParams (f : (Fin k → V) → Fin k → V)

def step (s : State κ k V) : Op κ k V → Except PyErr (State κ k V)
  | .saveModelToCpu n => do
    let snapshot ← fsdp2ShardedSaveToCpu fsdpSize params s.values
    return { s with cpuSavedModels := Function.update s.cpuSavedModels n (some snapshot) }
  | .restoreModelFromCpu n =>
    match s.cpuSavedModels n with
    | none => .ok s
    | some snapshot => do
      let values ← fsdp2ShardedLoadFromCpu params snapshot s.values
      return { s with values := values }
  | .clearCpuModel n => .ok { s with cpuSavedModels := Function.update s.cpuSavedModels n none }
  | .updateParams f => .ok { s with values := f s.values }

/-- The call leaves the snapshot of `n` as it is. -/
def Op.Leaves (n : κ) : Op κ k V → Prop
  | .saveModelToCpu m | .clearCpuModel m => m ≠ n
  | _ => True

/-- A save succeeds, and a restore of its key after any other calls gives the values that it saw. -/
def RestoresAll (κ V : Type) [DecidableEq κ] : Prop :=
  ∀ (s : State κ k V) (n : κ), ∃ s₀, step fsdpSize params s (.saveModelToCpu n) = .ok s₀ ∧
    ∀ (ops : List (Op κ k V)) (s₁ : State κ k V), (∀ op ∈ ops, op.Leaves n) →
      ops.foldlM (step fsdpSize params) s₀ = .ok s₁ →
        ∃ s₂, step fsdpSize params s₁ (.restoreModelFromCpu n) = .ok s₂ ∧ s₂.values = s.values

/-- There is a DTensor, all are sharded along one dimension, and no plain parameter is on the
CPU. -/
structure Separate : Prop where
  exists_dtensor : ∃ i, (params i).kind = .dtensor
  placement_eq : ∀ i j, (params i).kind = .dtensor → (params j).kind = .dtensor →
    placement fsdpSize params i = placement fsdpSize params j
  not_cpu : ∀ i, (params i).kind ≠ .plain true

/-- The snapshot has these values, and passes the checks of the load. -/
def Holds (values : Fin k → V) (snapshot : Snapshot k V) : Prop :=
  ∀ i, (snapshot.shards i).tensor = .copied (values i) ∧
    ((params i).kind = .dtensor → (snapshot.shards i).spec = some snapshot.globalSpec)

variable {fsdpSize params} {s s' : State κ k V}

/-! ## Runs -/

theorem saved_of_step {n : κ} {op : Op κ k V} (hop : op.Leaves n)
    (h : step fsdpSize params s op = .ok s') : s'.cpuSavedModels n = s.cpuSavedModels n := by
  cases op with
  | saveModelToCpu m =>
    obtain ⟨snapshot, -, hs⟩ := bind_eq_ok.1 h
    cases hs
    exact update_of_ne (Ne.symm hop) _ _
  | restoreModelFromCpu m =>
    dsimp only [step] at h
    split at h
    · cases h
      rfl
    · obtain ⟨values, -, hs⟩ := bind_eq_ok.1 h
      cases hs
      rfl
  | clearCpuModel m =>
    cases h
    exact update_of_ne (Ne.symm hop) _ _
  | updateParams f =>
    cases h
    rfl

theorem saved_of_run {n : κ} {ops : List (Op κ k V)} (hops : ∀ op ∈ ops, op.Leaves n)
    (h : ops.foldlM (step fsdpSize params) s = .ok s') :
    s'.cpuSavedModels n = s.cpuSavedModels n := by
  induction ops generalizing s with
  | nil =>
    cases h
    rfl
  | cons op ops ih =>
    obtain ⟨s₁, hstep, hrun⟩ := bind_eq_ok.1 h
    rw [forall_mem_cons] at hops
    rw [ih hops.2 hrun, saved_of_step hops.1 hstep]

theorem Separate.save (h : Separate fsdpSize params) (values : Fin k → V) :
    ∃ snapshot, fsdp2ShardedSaveToCpu fsdpSize params values = .ok snapshot ∧
      Holds params values snapshot := by
  unfold fsdp2ShardedSaveToCpu
  cases hfirst : (dtensors params).head? with
  | none =>
    obtain ⟨i, hi⟩ := h.exists_dtensor
    have hnil := head?_eq_none_iff.1 hfirst
    simp only [dtensors, filter_eq_nil_iff] at hnil
    exact absurd (by simpa using hi) (hnil i (mem_finRange i))
  | some first =>
    have hmem := mem_of_mem_head? hfirst
    simp only [dtensors, mem_filter, mem_finRange, true_and, decide_eq_true_eq] at hmem
    refine ⟨_, rfl, fun i => ?_⟩
    have hcpu := h.not_cpu i
    dsimp only [cpuShard]
    cases hkind : (params i).kind with
    | dtensor => exact ⟨rfl, fun _ => congrArg some (h.placement_eq i first hkind hmem)⟩
    | plain onCpu =>
      cases onCpu with
      | true => exact absurd hkind hcpu
      | false => exact ⟨rfl, nofun⟩

theorem Holds.load {snapshot : Snapshot k V} {saved : Fin k → V} (h : Holds params saved snapshot)
    (values : Fin k → V) : fsdp2ShardedLoadFromCpu params snapshot values = .ok saved := by
  have hcheck : (finRange k).forM (checkSpec params snapshot) = .ok () := by
    rw [forM_eq_ok_iff]
    intro i _
    unfold checkSpec
    split
    · rename_i hkind
      simp [(h i).2 hkind]
    · rfl
  unfold fsdp2ShardedLoadFromCpu
  rw [hcheck]
  refine congrArg Except.ok (funext fun i => ?_)
  rw [(h i).1]
  rfl

/-! ## When every restore is right -/

/-- A run of one save, one update and one restore. -/
theorem RestoresAll.load [Nonempty κ] (h : RestoresAll fsdpSize params κ V)
    (init updated : Fin k → V) :
    ∃ snapshot, fsdp2ShardedSaveToCpu fsdpSize params init = .ok snapshot ∧
      fsdp2ShardedLoadFromCpu params snapshot updated = .ok init := by
  obtain ⟨n⟩ := ‹Nonempty κ›
  obtain ⟨s₀, hsave, hrestore⟩ := h ⟨init, fun _ => none⟩ n
  obtain ⟨snapshot, hsnapshot, hs₀⟩ := bind_eq_ok.1 hsave
  cases hs₀
  obtain ⟨s₂, hload, hvalues⟩ :=
    hrestore [.updateParams fun _ => updated] _ (by simp [Op.Leaves]) rfl
  simp only [step, update_self] at hload
  obtain ⟨values, hvals, hs₂⟩ := bind_eq_ok.1 hload
  cases hs₂
  exact ⟨snapshot, hsnapshot, hvals.trans (congrArg Except.ok (show values = init from hvalues))⟩

theorem restoresAll_iff [Nonempty κ] [Nontrivial V] (fsdpSize : Nat) (params : Fin k → Param) :
    RestoresAll fsdpSize params κ V ↔ Separate fsdpSize params := by
  constructor
  · intro h
    obtain ⟨x, y, hne⟩ := exists_pair_ne V
    obtain ⟨snapshot, hsave, hload⟩ := h.load (fun _ => x) fun _ => y
    obtain ⟨⟨⟩, hcheck, hvalues⟩ := bind_eq_ok.1 hload
    rw [forM_eq_ok_iff] at hcheck
    unfold fsdp2ShardedSaveToCpu at hsave
    cases hfirst : (dtensors params).head? with
    | none => simp [hfirst] at hsave
    | some first =>
      have hmem := mem_of_mem_head? hfirst
      simp only [dtensors, mem_filter, mem_finRange, true_and, decide_eq_true_eq] at hmem
      rw [hfirst] at hsave
      cases hsave
      have hplace : ∀ i, (params i).kind = .dtensor →
          placement fsdpSize params i = placement fsdpSize params first := by
        intro i hi
        have hi' := hcheck i (mem_finRange i)
        unfold checkSpec at hi'
        rw [if_pos hi] at hi'
        obtain ⟨-, -, hi'⟩ := bind_eq_ok.1 hi'
        have hspec := pyAssert_eq_ok.1 hi'
        simpa [cpuShard, hi] using hspec
      refine ⟨⟨first, hmem⟩, fun i j hi hj => (hplace i hi).trans (hplace j hj).symm,
        fun i hi => hne ?_⟩
      have hread := congrFun (Except.ok.inj hvalues) i
      simpa [cpuShard, hi, CpuTensor.read] using hread.symm
  · intro hsep s n
    obtain ⟨snapshot, hsave, hholds⟩ := hsep.save s.values
    refine ⟨_, by dsimp only [step]; rw [hsave]; rfl, fun ops s₁ hops hrun => ?_⟩
    have hsaved : s₁.cpuSavedModels n = some snapshot :=
      (saved_of_run hops hrun).trans (Function.update_self ..)
    dsimp only [step]
    rw [hsaved]
    dsimp only
    rw [hholds.load]
    exact ⟨_, rfl, rfl⟩

/-- Two matrices that are both cut along their rows. -/
theorem restoresAll_two_rows :
    RestoresAll (k := 2) 4 (fun _ => ⟨"weight", [8, 3], .dtensor⟩) String Bool :=
  (restoresAll_iff 4 _).2 ⟨⟨0, rfl⟩, fun _ _ _ _ => rfl, fun _ => nofun⟩

/-- A matrix of six rows is cut along its columns, the other one along its rows. -/
theorem not_restoresAll_columns :
    ¬ RestoresAll (k := 2) 4 (fun i => ⟨"weight", [8 - 2 * i, 4], .dtensor⟩) String Bool := by
  intro h
  obtain ⟨snapshot, hsave, hload⟩ := h.load (fun _ => false) fun _ => false
  cases hsave
  obtain ⟨⟨⟩, hcheck, -⟩ := bind_eq_ok.1 hload
  exact absurd (forM_eq_ok_iff.1 hcheck 1 (mem_finRange _)) (by decide)

end Model

end Verl.CpuSnapshots
