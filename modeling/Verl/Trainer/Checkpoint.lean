import Verl.Lib.Python
import Verl.Lib.Stages
import Verl.Lib.StepSystem

/-! # Saving and resuming a training job

`RayPPOTrainer._save_checkpoint` saves the actor, the critic and the dataloader into the
folder of a step and then names the step in the tracker file
`latest_checkpointed_iteration.txt`.  The FSDP managers of the worker groups write one
shard for each rank, and rank 0 removes what the retention limit has no room for.

    actor:  ensure_checkpoint_capacity | shards | hf model | register_checkpoint
    critic: ensure_checkpoint_capacity | shards | hf model | register_checkpoint
    driver: data.pt
    driver: latest_checkpointed_iteration.txt

A save is a plan of stages (`savePlan`); between two barriers the ranks interleave in any
way.  Every operation on the file system is a step of its own, and a job can be killed
between any two of them.

* `ensureCheckpointCapacity`, `registerCheckpoint`: what a manager removes and keeps.
* `savePlan`: the operations of one `_save_checkpoint`.
* `loadCheckpoint`: `_load_checkpoint` of the next job.
* `trainer`: the step system of jobs that save, are killed and resume. -/

namespace Verl.Checkpoint

open List

/-! ## Files -/

/-- The worker groups with a checkpoint manager; also the name of their folder. -/
inductive Part
  | actor
  | critic
  deriving DecidableEq, Repr

/-- A file in the folder of a manager. -/
inductive ShardFile
  | model (rank : Nat)
  | optim (rank : Nat)
  | extraState (rank : Nat)
  | huggingface (name : String)
  | fsdpConfig
  deriving DecidableEq, Repr

/-- A file in the folder of a step. -/
inductive CkptFile
  | shard (part : Part) (file : ShardFile)
  | data
  deriving DecidableEq, Repr

/-- A file that is opened for writing is torn until it is closed. -/
inductive FileState
  | absent
  | torn
  | full
  deriving DecidableEq, Repr

/-- The output directory: the folders `global_step_{step}`, their files, and the tracker.
`some none` is a tracker that is opened for writing and still empty. -/
structure FileSystem where
  folder : Nat → Bool
  file : Nat → CkptFile → FileState
  tracker : Option (Option Nat)

namespace FileSystem

def empty : FileSystem where
  folder := fun _ => false
  file := fun _ _ => .absent
  tracker := none

def setFile (fs : FileSystem) (step : Nat) (file : CkptFile) (state : FileState) :
    FileSystem :=
  { fs with file := fun m f => if m = step ∧ f = file then state else fs.file m f }

end FileSystem

/-- An operation of a rank on the file system.  `rmtree` is the call, the files it unlinks
are steps of their own. -/
inductive Op
  | rmtree (step : Nat) (part : Part)
  | mkdir (step : Nat)
  | openFile (step : Nat) (file : CkptFile)
  | closeFile (step : Nat) (file : CkptFile)
  | openTracker (step : Nat)
  | closeTracker (step : Nat)
  deriving DecidableEq, Repr

def Op.effect : Op → FileSystem → FileSystem
  | .rmtree _ _, fs => fs
  | .mkdir step, fs => { fs with folder := fun m => m = step || fs.folder m }
  | .openFile step file, fs => fs.setFile step file .torn
  | .closeFile step file, fs => fs.setFile step file .full
  | .openTracker _, fs => { fs with tracker := some none }
  | .closeTracker step, fs => { fs with tracker := some (some step) }

/-- What is left of an operation: a file that was opened is to be closed. -/
def Op.more : Op → List Op
  | .openFile step file => [.closeFile step file]
  | .openTracker step => [.closeTracker step]
  | _ => []

/-! ## Configuration -/

/-- `save_contents` and `load_contents` of a checkpoint config. -/
inductive Content
  | model
  | optimizer
  | extra
  | hfModel
  deriving DecidableEq, Repr

structure WorkerGroup where
  worldSize : Nat
  saveContents : List Content
  loadContents : List Content
  /-- What `save_pretrained` of the config, the tokenizer and the model write. -/
  hfConfigFiles : List String
  hfModelFiles : List String
  /-- `load_contents` is `${.save_contents}` in the config files. -/
  load_saved : ∀ c ∈ loadContents, c ∈ saveContents

structure Config where
  group : Part → WorkerGroup
  useCritic : Bool
  stepsPerEpoch : Nat

/-- The options of `trainer` that a job may change. -/
structure JobConfig where
  maxActorCkptToKeep : Option Nat
  maxCriticCkptToKeep : Option Nat
  removePreviousCkptInSave : Bool
  asyncSave : Bool
  deriving DecidableEq, Repr

/-- The limit `_save_checkpoint` passes to a manager. -/
def JobConfig.maxCkptToKeep (job : JobConfig) (part : Part) : Option Nat :=
  if job.removePreviousCkptInSave then some 1
  else match part with
    | .actor => job.maxActorCkptToKeep
    | .critic => job.maxCriticCkptToKeep

namespace WorkerGroup

variable (g : WorkerGroup)

/-- The files rank `rank` writes before the second barrier. -/
def rankFiles (rank : Nat) : List ShardFile :=
  (if Content.model ∈ g.saveContents then [.model rank] else []) ++
  (if Content.optimizer ∈ g.saveContents then [.optim rank] else []) ++
  (if Content.extra ∈ g.saveContents then [.extraState rank] else []) ++
  (if rank = 0 then g.hfConfigFiles.map .huggingface ++ [.fsdpConfig] else [])

/-- The files of the full model. -/
def rankHfFiles (rank : Nat) : List ShardFile :=
  if rank = 0 ∧ Content.hfModel ∈ g.saveContents then g.hfModelFiles.map .huggingface else []

def files : List ShardFile :=
  (List.range g.worldSize).flatMap fun rank => g.rankFiles rank ++ g.rankHfFiles rank

/-- The files rank `rank` reads. -/
def rankLoadFiles (rank : Nat) : List ShardFile :=
  (if Content.model ∈ g.loadContents then [.model rank] else []) ++
  (if Content.optimizer ∈ g.loadContents then [.optim rank] else []) ++
  (if Content.extra ∈ g.loadContents then [.extraState rank] else [])

def loadFiles : List ShardFile :=
  (List.range g.worldSize).flatMap g.rankLoadFiles

/-- One program for each rank. -/
def onRanks (program : Nat → List Op) : List (List Op) :=
  (List.range g.worldSize).map program

end WorkerGroup

namespace Config

variable (cfg : Config)

def parts : List Part := if cfg.useCritic then [.actor, .critic] else [.actor]

/-- The files of a complete checkpoint. -/
def files : List CkptFile :=
  (cfg.parts.flatMap fun part => (cfg.group part).files.map (.shard part)) ++ [.data]

def loadFiles : List CkptFile :=
  cfg.parts.flatMap fun part => (cfg.group part).loadFiles.map (.shard part)

end Config

/-! ## Retention

`previous_saved_paths` is given by the steps of the paths; both functions return what is
removed and what is kept. -/

def ensureCheckpointCapacity (maxCkptToKeep : Option Nat) (paths : List Nat) :
    List Nat × List Nat :=
  match maxCkptToKeep with
  | none => ([], paths)
  | some m =>
    if 1 < m ∧ m ≤ paths.length then
      let keepStart := paths.length - m + 1
      (paths.take keepStart, paths.drop keepStart)
    else ([], paths)

def registerCheckpoint (newPath : Nat) (maxCkptToKeep : Option Nat) (paths : List Nat) :
    List Nat × List Nat :=
  let paths := paths ++ [newPath]
  match maxCkptToKeep with
  | none => ([], paths)
  | some m =>
    if 0 < m ∧ m < paths.length then
      let keepStart := paths.length - m
      (paths.take keepStart, paths.drop keepStart)
    else ([], paths)

theorem ensureCheckpointCapacity_append (maxCkptToKeep : Option Nat) (paths : List Nat) :
    (ensureCheckpointCapacity maxCkptToKeep paths).1 ++
      (ensureCheckpointCapacity maxCkptToKeep paths).2 = paths := by
  unfold ensureCheckpointCapacity
  cases maxCkptToKeep with
  | none => rfl
  | some m =>
    simp only
    split
    · exact take_append_drop _ paths
    · rfl

theorem ensureCheckpointCapacity_ne_nil {maxCkptToKeep : Option Nat} {paths : List Nat}
    (hpaths : paths ≠ []) : (ensureCheckpointCapacity maxCkptToKeep paths).2 ≠ [] := by
  unfold ensureCheckpointCapacity
  cases maxCkptToKeep with
  | none => exact hpaths
  | some m =>
    simp only
    split
    · rename_i h
      intro hnil
      have hlen := drop_eq_nil_iff.mp hnil
      omega
    · exact hpaths

theorem registerCheckpoint_kept (newPath : Nat) (maxCkptToKeep : Option Nat) (paths : List Nat) :
    ∃ kept, (registerCheckpoint newPath maxCkptToKeep paths).2 = kept ++ [newPath] ∧
      (registerCheckpoint newPath maxCkptToKeep paths).1 ++ kept = paths ∧
      (maxCkptToKeep ≠ some 1 → paths ≠ [] → kept ≠ []) := by
  unfold registerCheckpoint
  cases maxCkptToKeep with
  | none => exact ⟨paths, rfl, rfl, fun _ h => h⟩
  | some m =>
    simp only [length_append, length_singleton]
    split
    · rename_i h
      have hle : paths.length + 1 - m ≤ paths.length := by omega
      refine ⟨paths.drop (paths.length + 1 - m), ?_, ?_, fun hm _ hnil => ?_⟩
      · exact drop_append_of_le_length hle
      · simp only
        rw [take_append_of_le_length hle, take_append_drop]
      · have hlen := drop_eq_nil_iff.mp hnil
        have hne : m ≠ 1 := fun he => hm (congrArg some he)
        omega
    · exact ⟨paths, rfl, rfl, fun _ h => h⟩

/-! ## Saving -/

section Save

variable (cfg : Config) (job : JobConfig) (paths : Part → List Nat) (step : Nat)

def ensured (part : Part) : List Nat × List Nat :=
  ensureCheckpointCapacity (job.maxCkptToKeep part) (paths part)

def registered (part : Part) : List Nat × List Nat :=
  registerCheckpoint step (job.maxCkptToKeep part) (ensured job paths part).2

/-- `FSDPCheckpointManager.save_checkpoint` on all ranks. -/
def managerStages (part : Part) : Stages Op :=
  let g := cfg.group part
  [ g.onRanks fun rank =>
      (if rank = 0 then (ensured job paths part).1.map (.rmtree · part) else []) ++
        [.mkdir step],
    g.onRanks fun rank => (g.rankFiles rank).map fun f => .openFile step (.shard part f),
    g.onRanks fun rank => (g.rankHfFiles rank).map fun f => .openFile step (.shard part f),
    g.onRanks fun rank =>
      if rank = 0 then (registered job paths step part).1.map (.rmtree · part) else [] ]

def dataStage : List (List Op) := [[.mkdir step, .openFile step .data]]

/-- With `async_save` the tracker is left as it is. -/
def trackerStages : Stages Op := if job.asyncSave then [] else [[[.openTracker step]]]

def savePlan : Stages Op :=
  cfg.parts.flatMap (managerStages cfg job paths step) ++ [dataStage step] ++
    trackerStages job step

/-- `previous_saved_paths` of the managers after the save. -/
def savedPaths (part : Part) : List Nat :=
  if part ∈ cfg.parts then (registered job paths step part).2 else paths part

end Save

variable {cfg : Config} {step : Nat} {job : JobConfig} {paths : Part → List Nat} {op : Op}

theorem registered_kept (job : JobConfig) (paths : Part → List Nat) (step : Nat) (part : Part) :
    ∃ kept, (registered job paths step part).2 = kept ++ [step] ∧
      (ensured job paths part).1 ++ (registered job paths step part).1 ++ kept = paths part ∧
      (job.maxCkptToKeep part ≠ some 1 → paths part ≠ [] → kept ≠ []) := by
  obtain ⟨kept, hkept, hsplit, hne⟩ := registerCheckpoint_kept step (job.maxCkptToKeep part)
    (ensured job paths part).2
  refine ⟨kept, hkept, ?_, fun hm hp => hne hm (ensureCheckpointCapacity_ne_nil hp)⟩
  rw [append_assoc]
  show _ ++ ((registerCheckpoint step _ _).1 ++ kept) = _
  rw [hsplit]
  exact ensureCheckpointCapacity_append _ _

/-! ### The operations of a save -/

theorem mem_onRanks {g : WorkerGroup} {program : Nat → List Op} {p : List Op} :
    p ∈ g.onRanks program ↔ ∃ rank < g.worldSize, program rank = p := by
  simp only [WorkerGroup.onRanks, mem_map, mem_range]

theorem mem_ops_managerStages {part : Part}
    (h : op ∈ Stages.ops (managerStages cfg job paths step part)) :
    (∃ m ∈ (ensured job paths part).1 ++ (registered job paths step part).1,
      op = .rmtree m part) ∨ op = .mkdir step ∨ ∃ file, op = .openFile step file := by
  obtain ⟨stage, hstage, program, hprogram, hop⟩ := Stages.mem_ops.mp h
  simp only [managerStages, mem_cons, not_mem_nil, or_false] at hstage
  rcases hstage with rfl | rfl | rfl | rfl
  · obtain ⟨rank, -, rfl⟩ := mem_onRanks.mp hprogram
    rcases mem_append.mp hop with hop | hop
    · grind
    · exact .inr (.inl (mem_singleton.mp hop))
  · obtain ⟨rank, -, rfl⟩ := mem_onRanks.mp hprogram
    obtain ⟨f, -, rfl⟩ := mem_map.mp hop
    exact .inr (.inr ⟨_, rfl⟩)
  · obtain ⟨rank, -, rfl⟩ := mem_onRanks.mp hprogram
    obtain ⟨f, -, rfl⟩ := mem_map.mp hop
    exact .inr (.inr ⟨_, rfl⟩)
  · obtain ⟨rank, -, rfl⟩ := mem_onRanks.mp hprogram
    split at hop
    · grind
    · cases hop

theorem openFile_mem_managerStages {part : Part} {f : ShardFile} (h : f ∈ (cfg.group part).files) :
    .openFile step (.shard part f) ∈ Stages.ops (managerStages cfg job paths step part) := by
  obtain ⟨rank, hrank, hf⟩ := mem_flatMap.mp h
  have hlt := mem_range.mp hrank
  rw [Stages.mem_ops]
  rcases mem_append.mp hf with hf | hf
  · exact ⟨_, mem_cons_of_mem _ mem_cons_self, _, mem_onRanks.mpr ⟨rank, hlt, rfl⟩,
      mem_map.mpr ⟨f, hf, rfl⟩⟩
  · exact ⟨_, mem_cons_of_mem _ (mem_cons_of_mem _ mem_cons_self), _,
      mem_onRanks.mpr ⟨rank, hlt, rfl⟩, mem_map.mpr ⟨f, hf, rfl⟩⟩

def Op.IsTracker : Op → Prop
  | .openTracker _ | .closeTracker _ => True
  | _ => False

theorem mem_ops_flatMap {parts : List Part} {stages : Part → Stages Op} :
    op ∈ Stages.ops (parts.flatMap stages) ↔ ∃ part ∈ parts, op ∈ Stages.ops (stages part) := by
  induction parts with
  | nil => simp
  | cons part parts ih =>
    rw [flatMap_cons, Stages.ops_append, mem_append, ih]
    simp only [mem_cons, exists_eq_or_imp]

theorem mem_ops_savePlan : op ∈ Stages.ops (savePlan cfg job paths step) ↔
      (∃ part ∈ cfg.parts, op ∈ Stages.ops (managerStages cfg job paths step part)) ∨
      (op = .mkdir step ∨ op = .openFile step .data) ∨
      op = .openTracker step ∧ job.asyncSave = false := by
  unfold savePlan trackerStages
  rw [Stages.ops_append, Stages.ops_append, mem_append, mem_append, mem_ops_flatMap,
    or_assoc]
  cases job.asyncSave <;> simp [dataStage]

theorem openFile_mem_savePlan (job : JobConfig) (paths : Part → List Nat)
    (step : Nat) {file : CkptFile} (h : file ∈ cfg.files) :
    .openFile step file ∈ Stages.ops (savePlan cfg job paths step) := by
  rw [mem_ops_savePlan]
  rcases mem_append.mp h with h | h
  · obtain ⟨part, hpart, h⟩ := mem_flatMap.mp h
    obtain ⟨f, hf, rfl⟩ := mem_map.mp h
    exact .inl ⟨part, hpart, openFile_mem_managerStages hf⟩
  · grind

theorem endsWith_savePlan (cfg : Config) (job : JobConfig) (paths : Part → List Nat)
    (step : Nat) : Stages.EndsWith Op.IsTracker (savePlan cfg job paths step) := by
  refine Stages.endsWith_append (fun op hop => ?_) ?_
  · rw [Stages.ops_append, mem_append, mem_ops_flatMap] at hop
    rcases hop with ⟨part, -, hop⟩ | hop
    · rcases mem_ops_managerStages hop with ⟨m, -, rfl⟩ | rfl | ⟨file, rfl⟩ <;> exact id
    · simp only [dataStage, Stages.ops_cons, Stages.ops_nil, flatten_cons,
        flatten_nil, append_nil, mem_cons, not_mem_nil, or_false] at hop
      rcases hop with rfl | rfl <;> exact id
  · unfold trackerStages
    split
    · trivial
    · refine ⟨.inr ⟨fun op hop => ?_, rfl⟩, trivial⟩
      simp only [flatten_cons, flatten_nil, append_nil,
        mem_singleton] at hop
      rw [hop]
      trivial

/-! ## Loading -/

inductive ResumeMode
  | disable
  | auto
  | resumePath (step : Nat)
  deriving DecidableEq, Repr

inductive LoadError
  /-- `int('')` of an empty tracker. -/
  | invalidLiteral
  | fileNotFound (step : Nat) (file : CkptFile)
  | invalidFile (step : Nat) (file : CkptFile)
  deriving DecidableEq, Repr

def findLatestCkptPath (fs : FileSystem) : Except LoadError (Option Nat) :=
  match fs.tracker with
  | none => .ok none
  | some none => .error .invalidLiteral
  | some (some step) => .ok (if fs.folder step then some step else none)

/-- `torch.load` of a file. -/
def readFile (fs : FileSystem) (step : Nat) (file : CkptFile) : Except LoadError Unit :=
  match fs.file step file with
  | .absent => .error (.fileNotFound step file)
  | .torn => .error (.invalidFile step file)
  | .full => .ok ()

def readFiles (fs : FileSystem) (step : Nat) : List CkptFile → Except LoadError Unit
  | [] => .ok ()
  | file :: files => do
    readFile fs step file
    readFiles fs step files

/-- The step whose folder is loaded; the latest checkpoint is looked up for a given path
as well. -/
def globalStepFolder (fs : FileSystem) : ResumeMode → Except LoadError (Option Nat)
  | .disable => .ok none
  | .auto => findLatestCkptPath fs
  | .resumePath step => do
    let _ ← findLatestCkptPath fs
    .ok (some step)

/-- The state of the dataloader is not restored at the end of an epoch. -/
def atEpochBoundary (cfg : Config) (step : Nat) : Bool :=
  0 < cfg.stepsPerEpoch && step % cfg.stepsPerEpoch = 0

/-- `_load_checkpoint`; the result is `global_steps`. -/
def loadCheckpoint (cfg : Config) (fs : FileSystem) (mode : ResumeMode) :
    Except LoadError Nat := do
  match ← globalStepFolder fs mode with
  | none => .ok 0
  | some step =>
    readFiles fs step cfg.loadFiles
    if fs.file step .data ≠ .absent ∧ atEpochBoundary cfg step = false then
      readFile fs step .data
    .ok step

/-- All parts of the checkpoint of a step exist and were written to their ends. -/
def Complete (cfg : Config) (fs : FileSystem) (step : Nat) : Prop :=
  ∀ file ∈ cfg.files, fs.file step file = .full

theorem readFiles_ok {fs : FileSystem} {files : List CkptFile}
    (h : ∀ file ∈ files, fs.file step file = .full) : readFiles fs step files = .ok () := by
  induction files with
  | nil => rfl
  | cons file files ih =>
    have hfile : readFile fs step file = .ok () := by
      rw [readFile, h file mem_cons_self]
    rw [readFiles, hfile]
    exact ih fun f hf => h f (mem_cons_of_mem _ hf)

theorem rankLoadFiles_subset (g : WorkerGroup) (rank : Nat) :
    g.rankLoadFiles rank ⊆ g.rankFiles rank := by
  intro f hf
  simp only [WorkerGroup.rankLoadFiles, WorkerGroup.rankFiles, mem_append,
    mem_ite_nil_right, mem_singleton] at hf ⊢
  rcases hf with (⟨hc, rfl⟩ | ⟨hc, rfl⟩) | ⟨hc, rfl⟩
  · exact .inl (.inl (.inl ⟨g.load_saved _ hc, rfl⟩))
  · exact .inl (.inl (.inr ⟨g.load_saved _ hc, rfl⟩))
  · exact .inl (.inr ⟨g.load_saved _ hc, rfl⟩)

theorem loadFiles_subset (cfg : Config) : cfg.loadFiles ⊆ cfg.files := by
  intro file hfile
  obtain ⟨part, hpart, hfile⟩ := mem_flatMap.mp hfile
  obtain ⟨f, hf, rfl⟩ := mem_map.mp hfile
  obtain ⟨rank, hrank, hf⟩ := mem_flatMap.mp hf
  refine mem_append_left _ (mem_flatMap.mpr ⟨part, hpart, mem_map.mpr
    ⟨f, mem_flatMap.mpr ⟨rank, hrank, ?_⟩, rfl⟩⟩)
  exact mem_append_left _ (rankLoadFiles_subset _ rank hf)

theorem data_mem_files (cfg : Config) : .data ∈ cfg.files :=
  mem_append_right _ mem_cons_self

theorem loadCheckpoint_auto {fs : FileSystem}
    (htracker : fs.tracker = some (some step)) (hfolder : fs.folder step = true)
    (h : Complete cfg fs step) : loadCheckpoint cfg fs .auto = .ok step := by
  have hlatest : globalStepFolder fs .auto = .ok (some step) := by
    simp only [globalStepFolder, findLatestCkptPath, htracker, hfolder, if_true]
  have hdata : readFile fs step .data = .ok () := by
    rw [readFile, h _ (data_mem_files cfg)]
  unfold loadCheckpoint
  rw [hlatest, ok_bind]
  simp only
  rw [readFiles_ok fun file hf => h file (loadFiles_subset cfg hf), hdata]
  split <;> rfl

/-! ## Jobs that save, are killed and resume -/

structure State where
  fs : FileSystem
  job : JobConfig
  /-- `previous_saved_paths` of the managers. -/
  paths : Part → List Nat
  /-- `global_steps` of the last save of the job, or that it has started with. -/
  globalSteps : Nat
  /-- What is left of a save. -/
  plan : Stages Op

/-- A job that starts: the managers know of no path. -/
def State.start (fs : FileSystem) (job : JobConfig) (globalSteps : Nat) : State where
  fs := fs
  job := job
  paths := fun _ => []
  globalSteps := globalSteps
  plan := []

inductive Action
  | save (step : Nat)
  | rank (i : Nat)
  | unlink (i : Nat) (file : ShardFile)
  | barrier
  | restart (job : JobConfig) (mode : ResumeMode)
  deriving DecidableEq, Repr

/-- The step and the part of the tree that rank `i` is removing. -/
def State.removing? (s : State) (i : Nat) : Option (Nat × Part) :=
  match Stages.next? s.plan i with
  | some (.rmtree step part) => some (step, part)
  | _ => none

def trainer (cfg : Config) : StepSystem State Action
  -- `global_steps` grows from one save of a job to the next
  | .save step => {
      guard := fun s => s.plan = [] ∧ s.globalSteps < step
      effect := fun s =>
        { s with
          paths := savedPaths cfg s.job s.paths step
          globalSteps := step
          plan := savePlan cfg s.job s.paths step } }
  | .rank i => {
      guard := fun s => (Stages.next? s.plan i).isSome = true
      effect := fun s =>
        match Stages.next? s.plan i with
        | some op => { s with fs := op.effect s.fs, plan := Stages.advance Op.more s.plan i }
        | none => s }
  -- `rmtree(..., ignore_errors=True)` may return with files left
  | .unlink i file => {
      guard := fun s =>
        (s.removing? i).any (fun t => s.fs.file t.1 (.shard t.2 file) ≠ .absent) = true
      effect := fun s =>
        match s.removing? i with
        | some (step, part) => { s with fs := s.fs.setFile step (.shard part file) .absent }
        | none => s }
  | .barrier => {
      guard := fun s => Stages.AtBarrier s.plan
      effect := fun s => { s with plan := s.plan.tail } }
  -- the job is killed, or ends, and the next one loads what it finds
  | .restart job mode => {
      guard := fun s => (loadCheckpoint cfg s.fs mode).isOk = true
      effect := fun s =>
        match loadCheckpoint cfg s.fs mode with
        | .ok step => .start s.fs job step
        | .error _ => s }

/-- The first job of an output directory. -/
def initial (job : JobConfig) : State := .start .empty job 0

end Verl.Checkpoint
