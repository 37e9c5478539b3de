import Verl.Trainer.Checkpoint

/-! # Checkpoints of an SPMD job

`CheckpointHandler.save_checkpoint` runs on all ranks of a job under `torchrun`.  The engine saves
its shards, with barriers in between; then every data parallel rank writes the state of its
dataloader, and rank 0 replaces the tracker file when it has written its own.

    engine:  ensure_checkpoint_capacity | shards | hf model | register_checkpoint
    rank 0:  lora_train_meta.json, data_0.pt, latest_checkpointed_iteration.txt
    rank i:  data_{dp_rank}.pt

The managers know the paths of whole step folders, which hold the state of the dataloader too.

* `savePlan`: the operations of one `save_checkpoint`, in stages between barriers.
* `handler`: the step system of jobs that save and are killed. -/

namespace Verl.CheckpointHandler

open List Function

open Checkpoint (ShardFile WorkerGroup ensureCheckpointCapacity registerCheckpoint)

/-! ## Files -/

/-- A file in the folder of a step. -/
inductive CkptFile
  | shard (file : ShardFile)
  | loraTrainMeta
  | data (dpRank : Nat)
  deriving DecidableEq, Repr

/-- A file that is opened for writing is torn until it is closed.  A full one is of the save at
which the dataloader stood at `position`. -/
inductive FileState
  | absent
  | torn
  | full (position : Nat)
  deriving DecidableEq, Repr

/-- The output directory: the folders `global_step_{step}`, their files, and the tracker. -/
structure FileSystem where
  folder : Nat → Bool
  file : Nat → CkptFile → FileState
  tracker : Option Nat

namespace FileSystem

def empty : FileSystem where
  folder := fun _ => false
  file := fun _ _ => .absent
  tracker := none

def setFile (fs : FileSystem) (step : Nat) (file : CkptFile) (state : FileState) : FileSystem :=
  { fs with file := Function.update fs.file step (Function.update (fs.file step) file state) }

def setFolder (fs : FileSystem) (step : Nat) (exist : Bool) : FileSystem :=
  { fs with folder := Function.update fs.folder step exist }

end FileSystem

/-- An operation of a rank on the file system.  `rmtree` is the call, what it removes are steps of
their own; the tracker is written to a temporary file that is then renamed. -/
inductive Op
  | rmtree (step : Nat)
  | mkdir (step : Nat)
  | openFile (step : Nat) (file : CkptFile) (position : Nat)
  | closeFile (step : Nat) (file : CkptFile) (position : Nat)
  | renameTracker (step : Nat)
  deriving DecidableEq, Repr

def Op.effect : Op → FileSystem → FileSystem
  | .rmtree _, fs => fs
  | .mkdir step, fs => fs.setFolder step true
  | .openFile step file _, fs => fs.setFile step file .torn
  | .closeFile step file position, fs => fs.setFile step file (.full position)
  | .renameTracker step, fs => { fs with tracker := some step }

/-- What is left of an operation: a file that was opened is to be closed. -/
def Op.more : Op → List Op
  | .openFile step file position => [.closeFile step file position]
  | _ => []

def Op.isTracker : Op → Bool
  | .renameTracker _ => true
  | _ => false

/-! ## Configuration -/

/-- A job: the FSDP manager of its engine, and the ranks, `spSize` for each data parallel rank. -/
structure Config where
  group : WorkerGroup
  dpSize : Nat
  spSize : Nat
  dpSize_pos : 0 < dpSize
  spSize_pos : 0 < spSize
  worldSize_eq : group.worldSize = dpSize * spSize
  /-- `self.lora_train_meta is not None`. -/
  loraTrainMeta : Bool
  maxCkptToKeep : Option Nat

namespace Config

variable (cfg : Config)

/-- `engine.is_mp_src_rank_with_outputs()`. -/
def isMpSrcRankWithOutputs (rank : Nat) : Bool := rank % cfg.spSize == 0

/-- `engine.get_data_parallel_rank()`. -/
def dpRank (rank : Nat) : Nat := rank / cfg.spSize

/-- The files of a complete checkpoint. -/
def files : List CkptFile :=
  cfg.group.files.map .shard ++ (if cfg.loraTrainMeta then [.loraTrainMeta] else []) ++
    (List.range cfg.dpSize).map .data

theorem dpRank_lt {rank : Nat} (h : rank < cfg.group.worldSize) : cfg.dpRank rank < cfg.dpSize := by
  rw [cfg.worldSize_eq] at h
  exact Nat.div_lt_of_lt_mul (by rwa [Nat.mul_comm])

theorem data_mem_files {r : Nat} (h : r < cfg.dpSize) : .data r ∈ cfg.files :=
  mem_append_right _ (mem_map_of_mem (mem_range.2 h))

theorem shard_mem_files {file : ShardFile} (h : file ∈ cfg.group.files) : .shard file ∈ cfg.files :=
  mem_append_left _ (mem_append_left _ (mem_map_of_mem h))

end Config

/-! ## Saving -/

section Save

variable (cfg : Config) (paths : List Nat) (step position : Nat)

def onRanks (program : Nat → List Op) : List (List Op) :=
  (List.range cfg.group.worldSize).map program

def ensured : List Nat × List Nat := ensureCheckpointCapacity cfg.maxCkptToKeep paths

def registered : List Nat × List Nat :=
  registerCheckpoint step cfg.maxCkptToKeep (ensured cfg paths).2

/-- `FSDPEngine.save_checkpoint` on all ranks. -/
def engineStages : Stages Op :=
  [ onRanks cfg fun rank =>
      (if rank = 0 then (ensured cfg paths).1.map .rmtree else []) ++ [.mkdir step],
    onRanks cfg fun rank =>
      (cfg.group.rankFiles rank).map fun f => .openFile step (.shard f) position,
    onRanks cfg fun rank =>
      (cfg.group.rankHfFiles rank).map fun f => .openFile step (.shard f) position,
    onRanks cfg fun rank =>
      if rank = 0 then (registered cfg paths step).1.map .rmtree else [] ]

/-- What a rank does behind the save of the engine, up to the last barrier. -/
def handlerOps (rank : Nat) : List Op :=
  (if rank = 0 ∧ cfg.loraTrainMeta then [.mkdir step, .openFile step .loraTrainMeta position]
    else []) ++
  (if cfg.isMpSrcRankWithOutputs rank then
    [.mkdir step, .openFile step (.data (cfg.dpRank rank)) position] else []) ++
  (if rank = 0 then [.renameTracker step] else [])

def savePlan : Stages Op :=
  engineStages cfg paths step position ++ [onRanks cfg (handlerOps cfg step position)]

/-- The paths that a save removes. -/
def removed : List Nat := (ensured cfg paths).1 ++ (registered cfg paths step).1

end Save

/-! ## Loading -/

inductive ResumeMode
  | disable
  | auto (resumeFromPath : Option Nat)
  | resumePath (resumeFromPath : Nat)
  deriving DecidableEq, Repr

inductive LoadError
  | pathNotFound (step : Nat)
  | fileNotFound (step : Nat) (file : CkptFile)
  | invalidFile (step : Nat) (file : CkptFile)
  deriving DecidableEq, Repr

def findLatestCkptPath (fs : FileSystem) : Option Nat :=
  fs.tracker.bind fun step => if fs.folder step then some step else none

def existingPath (fs : FileSystem) (step : Nat) : Except LoadError (Option Nat) :=
  if fs.folder step then .ok (some step) else .error (.pathNotFound step)

/-- `_determine_resume_path`. -/
def determineResumePath (fs : FileSystem) : ResumeMode → Except LoadError (Option Nat)
  | .disable => .ok none
  | .auto none => .ok (findLatestCkptPath fs)
  | .auto (some step) => existingPath fs step
  | .resumePath step => existingPath fs step

/-- `torch.load` of a file; the result is the save it is of. -/
def readFile (fs : FileSystem) (step : Nat) (file : CkptFile) : Except LoadError Nat :=
  match fs.file step file with
  | .absent => .error (.fileNotFound step file)
  | .torn => .error (.invalidFile step file)
  | .full position => .ok position

def readFiles (fs : FileSystem) (step : Nat) : List CkptFile → Except LoadError (List Nat)
  | [] => .ok []
  | file :: files => do
    let position ← readFile fs step file
    let positions ← readFiles fs step files
    .ok (position :: positions)

/-- `_load_dataloader_state`: the position, or `none` where the dataloader starts from scratch. -/
def loadDataloaderState (fs : FileSystem) (step dpRank : Nat) : Except LoadError (Option Nat) :=
  if fs.file step (.data dpRank) = .absent then .ok none
  else (readFile fs step (.data dpRank)).map some

/-- What a rank resumes with: the step, the saves its shards are of, and the dataloader. -/
structure Resumed where
  step : Nat
  shards : List Nat
  position : Option Nat
  deriving DecidableEq, Repr

/-- `load_checkpoint` on a rank; `none` is a start from scratch. -/
def loadCheckpoint (cfg : Config) (fs : FileSystem) (mode : ResumeMode) (rank : Nat) :
    Except LoadError (Option Resumed) := do
  match ← determineResumePath fs mode with
  | none => .ok none
  | some step =>
    let shards ← readFiles fs step ((cfg.group.rankLoadFiles rank).map .shard)
    let position ← loadDataloaderState fs step (cfg.dpRank rank)
    .ok (some { step := step, shards := shards, position := position })

/-- The files of the checkpoint exist, were written to their ends, and are of one save. -/
def Complete (cfg : Config) (fs : FileSystem) (step position : Nat) : Prop :=
  ∀ file ∈ cfg.files, fs.file step file = .full position

/-- Whatever the tracker names is complete, and all ranks resume at that step, with their shards and
dataloaders at one position. -/
def Recoverable (cfg : Config) (fs : FileSystem) : Prop :=
  ∀ step, fs.tracker = some step → ∃ position, Complete cfg fs step position ∧
    ∀ rank < cfg.group.worldSize,
      loadCheckpoint cfg fs (.auto none) rank = .ok (some
        { step := step
          shards := (cfg.group.rankLoadFiles rank).map fun _ => position
          position := some position })

/-! ## Jobs that save and are killed -/

structure State where
  fs : FileSystem
  /-- `previous_saved_paths` of the manager of rank 0. -/
  paths : List Nat
  /-- The step of the last save, and where the dataloader stands. -/
  step : Nat
  position : Nat
  /-- What is left of the save. -/
  plan : Stages Op

/-- A job that starts: the manager knows of no path. -/
def State.start (fs : FileSystem) : State where
  fs := fs
  paths := []
  step := 0
  position := 0
  plan := []

inductive Action
  | save (step position : Nat)
  | rank (i : Nat)
  | unlink (i : Nat) (file : CkptFile)
  | rmdir (i : Nat)
  | barrier
  | restart
  deriving DecidableEq, Repr

/-- The step whose folder rank `i` is removing. -/
def State.removing? (s : State) (i : Nat) : Option Nat :=
  match Stages.next? s.plan i with
  | some (.rmtree step) => some step
  | _ => none

def State.save (cfg : Config) (s : State) (step position : Nat) : State :=
  { s with
    paths := (registered cfg s.paths step).2
    step := step
    position := position
    plan := savePlan cfg s.paths step position }

/-- The operation of a rank. -/
def State.rank (s : State) (i : Nat) : State :=
  match Stages.next? s.plan i with
  | some op => { s with fs := op.effect s.fs, plan := Stages.advance Op.more s.plan i }
  | none => s

def State.unlink (s : State) (i : Nat) (file : CkptFile) : State :=
  match s.removing? i with
  | some step => { s with fs := s.fs.setFile step file .absent }
  | none => s

def State.rmdir (s : State) (i : Nat) : State :=
  match s.removing? i with
  | some step => { s with fs := s.fs.setFolder step false }
  | none => s

def handler (cfg : Config) : StepSystem State Action
  | .save step position => {
      guard := fun s => s.plan = []
      effect := fun s => s.save cfg step position }
  | .rank i => {
      guard := fun s => (Stages.next? s.plan i).isSome = true
      effect := fun s => s.rank i }
  -- `rmtree(..., ignore_errors=True)` may return with files left
  | .unlink i file => {
      guard := fun s => (s.removing? i).isSome = true
      effect := fun s => s.unlink i file }
  | .rmdir i => {
      guard := fun s => (s.removing? i).isSome = true
      effect := fun s => s.rmdir i }
  | .barrier => {
      guard := fun s => Stages.AtBarrier s.plan
      effect := fun s => { s with plan := s.plan.tail } }
  -- the job is killed, or ends, and the next one starts in the same directory
  | .restart => {
      guard := fun _ => True
      effect := fun s => .start s.fs }

/-- The steps that leave alone what is named: a save that neither writes to that checkpoint nor
removes it or its own, and a tracker that is replaced when nothing else is left to be done. -/
def Careful (cfg : Config) (s : State) : Action → Prop
  | .save step _ => s.fs.tracker ≠ some step ∧
      ∀ m ∈ removed cfg s.paths step, s.fs.tracker ≠ some m ∧ m ≠ step
  | .rank i => (Stages.next? s.plan i).any Op.isTracker = true →
      ∀ op ∈ Stages.ops s.plan, op.isTracker = true
  | _ => True

instance (cfg : Config) (s : State) : DecidablePred (Careful cfg s)
  | .save step _ => inferInstanceAs (Decidable (s.fs.tracker ≠ some step ∧
      ∀ m ∈ removed cfg s.paths step, s.fs.tracker ≠ some m ∧ m ≠ step))
  | .rank i => inferInstanceAs (Decidable ((Stages.next? s.plan i).any Op.isTracker = true →
      ∀ op ∈ Stages.ops s.plan, op.isTracker = true))
  | .unlink _ _ | .rmdir _ | .barrier | .restart => inferInstanceAs (Decidable True)

/-! ## The operations of a save -/

theorem mem_onRanks {cfg : Config} {program : Nat → List Op} {p : List Op} :
    p ∈ onRanks cfg program ↔ ∃ rank < cfg.group.worldSize, program rank = p := by
  unfold onRanks
  simp only [mem_map, mem_range]

theorem worldSize_pos (cfg : Config) : 0 < cfg.group.worldSize := by
  rw [cfg.worldSize_eq]
  exact Nat.mul_pos cfg.dpSize_pos cfg.spSize_pos

section Ops

variable {cfg : Config} {paths : List Nat} {step position : Nat}

theorem mem_handlerOps {rank : Nat} {op : Op} (h : op ∈ handlerOps cfg step position rank) :
    op = .mkdir step ∨ (∃ file, op = .openFile step file position) ∨ op = .renameTracker step := by
  unfold handlerOps at h
  simp only [mem_append, mem_ite_nil_right, mem_cons, not_mem_nil,
    or_false] at h
  rcases h with (⟨-, rfl | rfl⟩ | ⟨-, rfl | rfl⟩) | ⟨-, rfl⟩
  · exact .inl rfl
  · exact .inr (.inl ⟨_, rfl⟩)
  · exact .inl rfl
  · exact .inr (.inl ⟨_, rfl⟩)
  · exact .inr (.inr rfl)

theorem mem_ops_savePlan {op : Op} (h : op ∈ Stages.ops (savePlan cfg paths step position)) :
    (∃ m ∈ removed cfg paths step, op = .rmtree m) ∨ op = .mkdir step ∨
      (∃ file, op = .openFile step file position) ∨ op = .renameTracker step := by
  obtain ⟨stage, hstage, program, hprogram, hop⟩ := Stages.mem_ops.1 h
  simp only [savePlan, engineStages, mem_append, mem_cons, not_mem_nil,
    or_false] at hstage
  rcases hstage with (rfl | rfl | rfl | rfl) | rfl
  · obtain ⟨rank, -, rfl⟩ := mem_onRanks.1 hprogram
    rcases mem_append.1 hop with hop | hop
    · obtain ⟨-, hop⟩ := mem_ite_nil_right.1 hop
      obtain ⟨m, hm, rfl⟩ := mem_map.1 hop
      exact .inl ⟨m, mem_append_left _ hm, rfl⟩
    · exact .inr (.inl (mem_singleton.1 hop))
  · obtain ⟨rank, -, rfl⟩ := mem_onRanks.1 hprogram
    obtain ⟨f, -, rfl⟩ := mem_map.1 hop
    exact .inr (.inr (.inl ⟨_, rfl⟩))
  · obtain ⟨rank, -, rfl⟩ := mem_onRanks.1 hprogram
    obtain ⟨f, -, rfl⟩ := mem_map.1 hop
    exact .inr (.inr (.inl ⟨_, rfl⟩))
  · obtain ⟨rank, -, rfl⟩ := mem_onRanks.1 hprogram
    obtain ⟨-, hop⟩ := mem_ite_nil_right.1 hop
    obtain ⟨m, hm, rfl⟩ := mem_map.1 hop
    exact .inl ⟨m, mem_append_right _ hm, rfl⟩
  · obtain ⟨rank, -, rfl⟩ := mem_onRanks.1 hprogram
    exact .inr (mem_handlerOps hop)

theorem mem_savePlan_of_engine {op : Op}
    (h : op ∈ Stages.ops (engineStages cfg paths step position)) :
    op ∈ Stages.ops (savePlan cfg paths step position) := by
  unfold savePlan
  rw [Stages.ops_append]
  exact mem_append_left _ h

theorem mem_savePlan_of_handler {rank : Nat} (hrank : rank < cfg.group.worldSize) {op : Op}
    (h : op ∈ handlerOps cfg step position rank) :
    op ∈ Stages.ops (savePlan cfg paths step position) := by
  unfold savePlan
  rw [Stages.ops_append]
  apply mem_append_right
  exact Stages.mem_ops.2 ⟨_, mem_cons_self, _, mem_onRanks.2 ⟨rank, hrank, rfl⟩, h⟩

theorem mkdir_mem_savePlan : .mkdir step ∈ Stages.ops (savePlan cfg paths step position) := by
  apply mem_savePlan_of_engine
  exact Stages.mem_ops.2 ⟨_, mem_cons_self, _, mem_onRanks.2 ⟨0, worldSize_pos cfg, rfl⟩,
    mem_append_right _ mem_cons_self⟩

theorem openFile_shard_mem_savePlan {f : ShardFile} (h : f ∈ cfg.group.files) :
    .openFile step (.shard f) position ∈ Stages.ops (savePlan cfg paths step position) := by
  apply mem_savePlan_of_engine
  obtain ⟨rank, hrank, hf⟩ := mem_flatMap.1 h
  have hlt := mem_range.1 hrank
  rw [Stages.mem_ops]
  rcases mem_append.1 hf with hf | hf
  · exact ⟨_, mem_cons_of_mem _ mem_cons_self, _, mem_onRanks.2 ⟨rank, hlt, rfl⟩,
      mem_map.2 ⟨f, hf, rfl⟩⟩
  · exact ⟨_, mem_cons_of_mem _ (mem_cons_of_mem _ mem_cons_self), _,
      mem_onRanks.2 ⟨rank, hlt, rfl⟩, mem_map.2 ⟨f, hf, rfl⟩⟩

theorem openFile_data_mem_savePlan {r : Nat} (h : r < cfg.dpSize) :
    .openFile step (.data r) position ∈ Stages.ops (savePlan cfg paths step position) := by
  have hlt : r * cfg.spSize < cfg.group.worldSize := by
    rw [cfg.worldSize_eq]
    exact Nat.mul_lt_mul_of_pos_right h cfg.spSize_pos
  have hsrc : cfg.isMpSrcRankWithOutputs (r * cfg.spSize) = true := by
    unfold Config.isMpSrcRankWithOutputs
    rw [Nat.mul_mod_left]
    rfl
  have hdp : cfg.dpRank (r * cfg.spSize) = r := Nat.mul_div_cancel _ cfg.spSize_pos
  apply mem_savePlan_of_handler hlt
  unfold handlerOps
  rw [if_pos hsrc, hdp]
  simp

theorem openFile_mem_savePlan {file : CkptFile} (h : file ∈ cfg.files) :
    .openFile step file position ∈ Stages.ops (savePlan cfg paths step position) := by
  rcases mem_append.1 h with h | h
  · rcases mem_append.1 h with h | h
    · obtain ⟨f, hf, rfl⟩ := mem_map.1 h
      exact openFile_shard_mem_savePlan hf
    · obtain ⟨hlora, h⟩ := mem_ite_nil_right.1 h
      rw [mem_singleton.1 h]
      apply mem_savePlan_of_handler (worldSize_pos cfg)
      unfold handlerOps
      rw [if_pos ⟨rfl, hlora⟩]
      simp
  · obtain ⟨r, hr, rfl⟩ := mem_map.1 h
    exact openFile_data_mem_savePlan (mem_range.1 hr)

end Ops

/-! ## The invariant -/

/-- What an operation of the plan may touch. -/
def OpKeeps (s : State) : Op → Prop
  | .rmtree step => step ≠ s.step ∧ s.fs.tracker ≠ some step
  | .mkdir step | .renameTracker step => step = s.step
  | .openFile step _ position | .closeFile step _ position =>
    step = s.step ∧ position = s.position ∧ s.fs.tracker ≠ some s.step

/-- A file of the save is written, or about to be. -/
def Written (s : State) (file : CkptFile) : Prop :=
  .openFile s.step file s.position ∈ Stages.ops s.plan ∨
    .closeFile s.step file s.position ∈ Stages.ops s.plan ∨
    s.fs.file s.step file = .full s.position

structure Inv (cfg : Config) (s : State) : Prop where
  named : ∀ step, s.fs.tracker = some step →
    (∃ position, Complete cfg s.fs step position) ∧ s.fs.folder step = true
  keeps : ∀ op ∈ Stages.ops s.plan, OpKeeps s op
  written : s.plan ≠ [] → ∀ file ∈ cfg.files, Written s file
  folder : s.plan ≠ [] →
    .mkdir s.step ∈ Stages.ops s.plan ∨ s.fs.folder s.step = true

variable {cfg : Config} {s : State}

variable {i : Nat} {fs : FileSystem} {op : Op}

theorem inv_start (h : ∀ step, fs.tracker = some step →
    (∃ position, Complete cfg fs step position) ∧ fs.folder step = true) :
    Inv cfg (.start fs) where
  named := h
  keeps := fun _ hop => absurd hop not_mem_nil
  written := fun hne => absurd rfl hne
  folder := fun hne => absurd rfl hne

theorem Inv.of_files (h : Inv cfg s) (plan : Stages Op) (htracker : fs.tracker = s.fs.tracker)
    (hnamed : ∀ step, s.fs.tracker = some step → fs.file step = s.fs.file step ∧ fs.folder step = s.fs.folder step)
    (hkeeps : ∀ op ∈ Stages.ops plan, OpKeeps s op)
    (hwritten : plan ≠ [] → ∀ file ∈ cfg.files, Written { s with fs := fs, plan := plan } file)
    (hfolder : plan ≠ [] → .mkdir s.step ∈ Stages.ops plan ∨ fs.folder s.step = true) :
    Inv cfg { s with fs := fs, plan := plan } where
  named := by
    intro step hstep
    have hstep : s.fs.tracker = some step := htracker.symm.trans hstep
    obtain ⟨⟨position, hfull⟩, hdir⟩ := h.named step hstep
    obtain ⟨hfile, hfolder⟩ := hnamed step hstep
    refine ⟨⟨position, fun file hf => ?_⟩, hfolder.trans hdir⟩
    rw [hfile]
    exact hfull file hf
  keeps := by
    intro op hop
    have hk := hkeeps op hop
    cases op with
    | rmtree step => exact ⟨hk.1, htracker ▸ hk.2⟩
    | mkdir step => exact hk
    | openFile step file position => exact ⟨hk.1, hk.2.1, htracker ▸ hk.2.2⟩
    | closeFile step file position => exact ⟨hk.1, hk.2.1, htracker ▸ hk.2.2⟩
    | renameTracker step => exact hk
  written := hwritten
  folder := hfolder

/-! ## Steps of a save -/

@[simp] theorem setFile_file (fs : FileSystem) (step : Nat) (file : CkptFile) (state : FileState)
    (m : Nat) (f : CkptFile) : (fs.setFile step file state).file m f =
      if m = step ∧ f = file then state else fs.file m f := by
  unfold FileSystem.setFile
  dsimp only
  by_cases hm : m = step
  · subst hm
    rw [update_self, update_apply]
    simp
  · rw [update_of_ne hm, if_neg fun h => hm h.1]

theorem setFile_file_of_ne {step m : Nat} (h : m ≠ step) (file : CkptFile)
    (state : FileState) : (fs.setFile step file state).file m = fs.file m := by
  funext f
  rw [setFile_file, if_neg fun hm => h hm.1]

theorem Inv.more_keeps (h : Inv cfg s) (hop : Stages.next? s.plan i = some op) :
    ∀ x ∈ Stages.ops (Stages.advance Op.more s.plan i), OpKeeps s x := by
  intro x hx
  rcases Stages.mem_of_mem_advance hop hx with hx | hx
  · have hk := h.keeps op (Stages.mem_of_next? hop)
    cases op with
    | openFile step file position =>
      rw [mem_singleton.1 hx]
      exact hk
    | rmtree step => cases hx
    | mkdir step => cases hx
    | closeFile step file position => cases hx
    | renameTracker step => cases hx
  · exact h.keeps x hx

theorem Written.advance {file : CkptFile} (h : Written s file)
    (hop : Stages.next? s.plan i = some op) (hopen : op ≠ .openFile s.step file s.position)
    (hclose : op ≠ .closeFile s.step file s.position)
    (hfile : fs.file s.step file = s.fs.file s.step file) :
    Written { s with fs := fs, plan := Stages.advance Op.more s.plan i } file := by
  rcases h with h | h | h
  · exact .inl ((Stages.mem_advance_of_mem Op.more hop h).resolve_left hopen.symm)
  · exact .inr (.inl ((Stages.mem_advance_of_mem Op.more hop h).resolve_left hclose.symm))
  · exact .inr (.inr (hfile.trans h))

theorem Inv.advance_frame (h : Inv cfg s) (hop : Stages.next? s.plan i = some op)
    (hopen : ∀ file position, op ≠ .openFile s.step file position)
    (hclose : ∀ file position, op ≠ .closeFile s.step file position)
    (htracker : fs.tracker = s.fs.tracker) (hfile : fs.file = s.fs.file)
    (hfolder : ∀ step, s.fs.folder step = true → fs.folder step = true)
    (hmade : op = .mkdir s.step → fs.folder s.step = true) :
    Inv cfg { s with fs := fs, plan := Stages.advance Op.more s.plan i } := by
  have hne := Stages.ne_nil_of_next? hop
  refine h.of_files _ htracker (fun step hstep => ⟨by rw [hfile], ?_⟩) (h.more_keeps hop)
    (fun _ file hf => ?_) (fun _ => ?_)
  · have hdir := (h.named step hstep).2
    rw [hfolder step hdir, hdir]
  · exact (h.written hne file hf).advance hop (hopen file _) (hclose file _) (by rw [hfile])
  · rcases h.folder hne with hmk | hdir
    · rcases Stages.mem_advance_of_mem Op.more hop hmk with heq | hmk
      · exact .inr (hmade heq.symm)
      · exact .inl hmk
    · exact .inr (hfolder _ hdir)

theorem Inv.setFile (h : Inv cfg s) {file : CkptFile} {state : FileState}
    (hop : Stages.next? s.plan i = some op) (htracker : s.fs.tracker ≠ some s.step)
    (hcase : op = .openFile s.step file s.position ∧ state = .torn ∨
      op = .closeFile s.step file s.position ∧ state = .full s.position) :
    Inv cfg { s with
      fs := s.fs.setFile s.step file state
      plan := Stages.advance Op.more s.plan i } := by
  have hne := Stages.ne_nil_of_next? hop
  refine h.of_files _ rfl (fun step hstep => ⟨?_, rfl⟩) (h.more_keeps hop) (fun _ f hf => ?_)
    (fun _ => ?_)
  · apply setFile_file_of_ne
    rintro rfl
    exact htracker hstep
  · by_cases hff : f = file
    · subst hff
      rcases hcase with ⟨rfl, rfl⟩ | ⟨rfl, rfl⟩
      · exact .inr (.inl (Stages.mem_advance_of_mem_more hop mem_cons_self))
      · refine .inr (.inr ?_)
        rw [setFile_file, if_pos ⟨rfl, rfl⟩]
    · refine (h.written hne f hf).advance hop ?_ ?_ ?_
      · grind
      · grind
      · rw [setFile_file, if_neg fun heq => hff heq.2]
  · rcases h.folder hne with hmk | hdir
    · rcases Stages.mem_advance_of_mem Op.more hop hmk with heq | hmk
      · rcases hcase with ⟨rfl, -⟩ | ⟨rfl, -⟩ <;> cases heq
      · exact .inl hmk
    · exact .inr hdir

theorem Inv.renameTracker (h : Inv cfg s) {step : Nat}
    (hop : Stages.next? s.plan i = some (.renameTracker step))
    (hcareful : ∀ op ∈ Stages.ops s.plan, op.isTracker = true) :
    Inv cfg { s with
      fs := { s.fs with tracker := some step }
      plan := Stages.advance Op.more s.plan i } := by
  have hne := Stages.ne_nil_of_next? hop
  have hstep : step = s.step := h.keeps _ (Stages.mem_of_next? hop)
  have hfull : ∀ file ∈ cfg.files, s.fs.file s.step file = .full s.position := by
    intro file hfile
    rcases h.written hne file hfile with hw | hw | hw
    · cases hcareful _ hw
    · cases hcareful _ hw
    · exact hw
  have hdir : s.fs.folder s.step = true := by
    rcases h.folder hne with hmk | hdir
    · cases hcareful _ hmk
    · exact hdir
  refine ⟨fun m hm => ?_, fun op hmem => ?_, fun _ file hf => .inr (.inr (hfull file hf)),
    fun _ => .inr hdir⟩
  · obtain rfl : step = m := Option.some.inj hm
    rw [hstep]
    exact ⟨⟨s.position, hfull⟩, hdir⟩
  · -- only trackers are left
    have hmem' : op ∈ Stages.ops s.plan := by
      rcases Stages.mem_of_mem_advance hop hmem with hmem | hmem
      · cases hmem
      · exact hmem
    have hk := h.keeps op hmem'
    have htracker := hcareful op hmem'
    cases op with
    | renameTracker m => exact hk
    | rmtree m => cases htracker
    | mkdir m => cases htracker
    | openFile m file position => cases htracker
    | closeFile m file position => cases htracker

theorem Inv.rank (h : Inv cfg s) (hop : Stages.next? s.plan i = some op)
    (hcareful : op.isTracker = true → ∀ x ∈ Stages.ops s.plan, x.isTracker = true) :
    Inv cfg { s with fs := op.effect s.fs, plan := Stages.advance Op.more s.plan i } := by
  have hk := h.keeps op (Stages.mem_of_next? hop)
  cases op with
  | rmtree m =>
    exact h.advance_frame hop (fun _ _ => nofun) (fun _ _ => nofun) rfl rfl (fun _ hdir => hdir)
      nofun
  | mkdir m =>
    refine h.advance_frame hop (fun _ _ => nofun) (fun _ _ => nofun) rfl rfl (fun step hdir => ?_)
      (fun heq => ?_)
    · show update s.fs.folder m true step = true
      rw [update_apply]
      split
      · rfl
      · exact hdir
    · cases heq
      exact update_self ..
  | openFile m file position =>
    obtain ⟨rfl, rfl, htracker⟩ := hk
    exact h.setFile hop htracker (.inl ⟨rfl, rfl⟩)
  | closeFile m file position =>
    obtain ⟨rfl, rfl, htracker⟩ := hk
    exact h.setFile hop htracker (.inr ⟨rfl, rfl⟩)
  | renameTracker m => exact h.renameTracker hop (hcareful rfl)

theorem Inv.of_removing (h : Inv cfg s) {m : Nat} (hm : s.removing? i = some m) :
    m ≠ s.step ∧ s.fs.tracker ≠ some m := by
  unfold State.removing? at hm
  split at hm
  · rename_i step hop
    obtain rfl : step = m := Option.some.inj hm
    exact h.keeps _ (Stages.mem_of_next? hop)
  · cases hm

theorem Inv.unlink (h : Inv cfg s) (i : Nat) (file : CkptFile) : Inv cfg (s.unlink i file) := by
  unfold State.unlink
  split
  · rename_i m hm
    obtain ⟨hne, htracker⟩ := h.of_removing hm
    refine h.of_files s.plan rfl (fun step hstep => ⟨?_, rfl⟩) h.keeps
      (fun hplan f hf => ?_) h.folder
    · apply setFile_file_of_ne
      rintro rfl
      exact htracker hstep
    · rcases h.written hplan f hf with hw | hw | hw
      · exact .inl hw
      · exact .inr (.inl hw)
      · refine .inr (.inr ?_)
        rw [setFile_file_of_ne (Ne.symm hne)]
        exact hw
  · exact h

theorem Inv.rmdir (h : Inv cfg s) (i : Nat) : Inv cfg (s.rmdir i) := by
  unfold State.rmdir
  split
  · rename_i m hm
    obtain ⟨hne, htracker⟩ := h.of_removing hm
    refine h.of_files s.plan rfl (fun step hstep => ⟨rfl, ?_⟩) h.keeps h.written
      (fun hplan => ?_)
    · apply update_of_ne
      rintro rfl
      exact htracker hstep
    · rcases h.folder hplan with hmk | hdir
      · exact .inl hmk
      · refine .inr ?_
        show update s.fs.folder m false s.step = true
        rw [update_of_ne (Ne.symm hne)]
        exact hdir
  · exact h

theorem Inv.barrier (h : Inv cfg s) (hbar : Stages.AtBarrier s.plan) :
    Inv cfg { s with plan := s.plan.tail } := by
  have hops := Stages.ops_tail hbar
  have hne : s.plan ≠ [] := by
    intro hnil
    rw [hnil] at hbar
    exact hbar
  refine h.of_files _ rfl (fun _ _ => ⟨rfl, rfl⟩) (by rw [hops]; exact h.keeps) (fun _ f hf => ?_)
    (fun _ => ?_)
  · unfold Written
    rw [hops]
    exact h.written hne f hf
  · rw [hops]
    exact h.folder hne

theorem Inv.save (h : Inv cfg s) {step : Nat} (position : Nat) (hstep : s.fs.tracker ≠ some step)
    (hremoved : ∀ m ∈ removed cfg s.paths step, s.fs.tracker ≠ some m ∧ m ≠ step) :
    Inv cfg (s.save cfg step position) where
  named := h.named
  keeps := by
    intro op hop
    rcases mem_ops_savePlan hop with ⟨m, hm, rfl⟩ | rfl | ⟨file, rfl⟩ | rfl
    · exact ⟨(hremoved m hm).2, (hremoved m hm).1⟩
    · rfl
    · exact ⟨rfl, rfl, hstep⟩
    · rfl
  written := fun _ file hf => .inl (openFile_mem_savePlan hf)
  folder := fun _ => .inl mkdir_mem_savePlan

theorem Inv.step (h : Inv cfg s) (a : Action) (hguard : (handler cfg a).guard s)
    (hcareful : Careful cfg s a) : Inv cfg ((handler cfg a).effect s) := by
  cases a with
  | save step position => exact h.save position hcareful.1 hcareful.2
  | rank i =>
    obtain ⟨op, hop⟩ := Option.isSome_iff_exists.1 hguard
    have hcareful : (Stages.next? s.plan i).any Op.isTracker = true →
        ∀ x ∈ Stages.ops s.plan, x.isTracker = true := hcareful
    rw [hop] at hcareful
    show Inv cfg (s.rank i)
    unfold State.rank
    rw [hop]
    exact h.rank hop hcareful
  | unlink i file => exact h.unlink i file
  | rmdir i => exact h.rmdir i
  | barrier => exact h.barrier hguard
  | restart => exact inv_start h.named

/-! ## What a killed job leaves behind -/

theorem readFiles_full {step position : Nat} {files : List CkptFile}
    (h : ∀ file ∈ files, fs.file step file = .full position) :
    readFiles fs step files = .ok (files.map fun _ => position) := by
  induction files with
  | nil => rfl
  | cons file files ih =>
    have hfile : readFile fs step file = .ok position := by
      unfold readFile
      rw [h file mem_cons_self]
    rw [readFiles, hfile, ok_bind, ih fun f hf => h f (mem_cons_of_mem _ hf),
      ok_bind, map_cons]

theorem loadCheckpoint_auto {step position rank : Nat}
    (htracker : fs.tracker = some step) (hfolder : fs.folder step = true)
    (h : Complete cfg fs step position) (hrank : rank < cfg.group.worldSize) :
    loadCheckpoint cfg fs (.auto none) rank = .ok (some
      { step := step
        shards := (cfg.group.rankLoadFiles rank).map fun _ => position
        position := some position }) := by
  have hpath : determineResumePath fs (.auto none) = .ok (some step) := by
    unfold determineResumePath findLatestCkptPath
    rw [htracker, Option.bind_some, if_pos hfolder]
  have hshards : readFiles fs step ((cfg.group.rankLoadFiles rank).map .shard) =
      .ok ((cfg.group.rankLoadFiles rank).map fun _ => position) := by
    have hfull : ∀ file ∈ (cfg.group.rankLoadFiles rank).map .shard,
        fs.file step file = .full position := by
      intro file hfile
      obtain ⟨f, hf, rfl⟩ := mem_map.1 hfile
      have hsaved := Checkpoint.rankLoadFiles_subset _ rank hf
      exact h _ (cfg.shard_mem_files (mem_flatMap.2
        ⟨rank, mem_range.2 hrank, mem_append_left _ hsaved⟩))
    rw [readFiles_full hfull, map_map]
    rfl
  have hdata : loadDataloaderState fs step (cfg.dpRank rank) = .ok (some position) := by
    have hfull := h _ (cfg.data_mem_files (cfg.dpRank_lt hrank))
    unfold loadDataloaderState readFile
    rw [hfull]
    rfl
  unfold loadCheckpoint
  rw [hpath, ok_bind]
  dsimp only
  rw [hshards, ok_bind, hdata, ok_bind]

theorem Inv.recoverable (h : Inv cfg s) : Recoverable cfg s.fs := by
  intro step hstep
  obtain ⟨⟨position, hfull⟩, hfolder⟩ := h.named step hstep
  exact ⟨position, hfull, fun rank hrank => loadCheckpoint_auto hstep hfolder hfull hrank⟩

/-- In every run of careful steps, wherever it is cut off, what the tracker names is complete, and
all ranks resume from there at one position of their dataloaders. -/
theorem recoverable_of_careful (cfg : Config) {s : State}
    (h : StepSystem.Reachable (handler cfg) (Careful cfg) (.start .empty) s) :
    Recoverable cfg s.fs := by
  have hinit : Inv cfg (.start .empty) := inv_start fun _ hstep => nomatch hstep
  have hinv := StepSystem.Reachable.invariant hinit
    (fun s a hs hguard hcareful => hs.step a hguard hcareful) h
  exact hinv.recoverable

/-- Two data parallel ranks that save their model shards. -/
def twoRanks (maxCkptToKeep : Option Nat) : Config where
  group :=
    { worldSize := 2
      saveContents := [.model]
      loadContents := [.model]
      hfConfigFiles := []
      hfModelFiles := []
      load_saved := fun _ h => h }
  dpSize := 2
  spSize := 1
  dpSize_pos := Nat.two_pos
  spSize_pos := Nat.one_pos
  worldSize_eq := rfl
  loraTrainMeta := false
  maxCkptToKeep := maxCkptToKeep

/-- A save by the engine: the folder, and the shards of both ranks. -/
def engineRun : List Action :=
  [ .rank 0, .rank 1, .barrier, .rank 0, .rank 0, .rank 0, .rank 0, .rank 1, .rank 1, .barrier,
    .barrier ]

/-- Both ranks write their dataloaders before rank 0 goes on. -/
def patientRun (step position : Nat) : List Action :=
  .save step position :: engineRun ++
    [.barrier, .rank 0, .rank 0, .rank 0, .rank 1, .rank 1, .rank 1, .rank 0, .barrier]

theorem recoverable_patientRun :
    let s := StepSystem.run (handler (twoRanks none)) (.start .empty) (patientRun 1 7)
    s.fs.tracker = some 1 ∧ Recoverable (twoRanks none) s.fs := by
  have hreachable : StepSystem.Reachable (handler (twoRanks none)) (Careful (twoRanks none))
      (.start .empty)
      (StepSystem.run (handler (twoRanks none)) (.start .empty) (patientRun 1 7)) :=
    StepSystem.reachable_run (by decide)
  exact ⟨by decide, recoverable_of_careful _ hreachable⟩

/-- Rank 0 names the step before rank 1 has written its dataloader, which then starts from scratch;
and with a limit of 1 the named checkpoint is removed before the tracker is replaced. -/
theorem not_recoverable :
    (∃ s, StepSystem.Reachable (handler (twoRanks none)) StepSystem.anyStep (.start .empty) s ∧
      s.fs.tracker = some 1 ∧
      loadCheckpoint (twoRanks none) s.fs (.auto none) 0 = .ok (some ⟨1, [7], some 7⟩) ∧
      loadCheckpoint (twoRanks none) s.fs (.auto none) 1 = .ok (some ⟨1, [7], none⟩) ∧
      ¬Recoverable (twoRanks none) s.fs) ∧
    (∃ s, StepSystem.Reachable (handler (twoRanks (some 1))) StepSystem.anyStep
        (.start .empty) s ∧
      s.fs.tracker = some 1 ∧
      loadCheckpoint (twoRanks (some 1)) s.fs (.auto none) 0 =
        .error (.fileNotFound 1 (.shard (.model 0))) ∧
      ¬Recoverable (twoRanks (some 1)) s.fs) := by
  have hhasty : StepSystem.Admits (handler (twoRanks none)) StepSystem.anyStep (.start .empty)
      (.save 1 7 :: engineRun ++ [.barrier, .rank 0, .rank 0, .rank 0, .rank 0]) := by decide
  have hlimit : StepSystem.Admits (handler (twoRanks (some 1))) StepSystem.anyStep (.start .empty)
      (patientRun 1 7 ++ .save 2 9 :: engineRun ++ [.unlink 0 (.shard (.model 0))]) := by decide
  refine ⟨⟨_, StepSystem.reachable_run hhasty, by decide, by decide, by decide, fun h => ?_⟩,
    ⟨_, StepSystem.reachable_run hlimit, by decide, by decide, fun h => ?_⟩⟩
  · obtain ⟨position, hfull, -⟩ := h 1 (by decide)
    cases hfull (.data 1) (by decide)
  · obtain ⟨position, hfull, -⟩ := h 1 (by decide)
    cases hfull (.shard (.model 0)) (by decide)

end Verl.CheckpointHandler
