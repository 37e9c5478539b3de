import Verl.Trainer.Checkpoint

/-! # Asynchronous saves of the Megatron managers

With `async_save` the trainer does not write the tracker.  `MegatronCheckpointManager.save_checkpoint`
hands most of its files to an asynchronous writer and returns; when they are written every rank runs
`finalize_save_fn`, and that of rank 0 names the step.

    trainer   actor call | critic call | data.pt
    actor     writes ... | tracker | register_checkpoint
    critic    writes ... | tracker | register_checkpoint

Nothing orders the three: the tracker may name a step whose critic is still being written, and the
finalize function of an older save may run after that of a newer one.

* `savePlan`, `finalizeSaveFn`, `finalizeOp`: what the trainer, the worker groups and the finalize
  functions do. -/

namespace Verl.AsyncSave

open StepSystem Checkpoint

/-! ## Files -/

/-- A file in the folder of a step. -/
inductive CkptFile
  | saved (part : Part) (name : String)
  | data
  deriving DecidableEq, Repr

/-- The files of the folders `global_step_{step}`, and the tracker.  `some none` is a tracker that
is opened for writing and still empty. -/
structure FileSystem where
  file : Nat → CkptFile → FileState
  tracker : Option (Option Nat)

namespace FileSystem

def empty : FileSystem where
  file := fun _ _ => .absent
  tracker := none

def setFile (fs : FileSystem) (step : Nat) (file : CkptFile) (state : FileState) : FileSystem :=
  { fs with file := fun m f => if m = step ∧ f = file then state else fs.file m f }

/-- The step in the tracker. -/
def named (fs : FileSystem) : Option Nat := fs.tracker.join

end FileSystem

/-- A worker group: the files that a rank writes within `save_checkpoint` (the model of the bridge,
tokenizer and configs), and those of its asynchronous writer. -/
structure WorkerGroup where
  worldSize : Nat
  callFiles : Nat → List String
  asyncFiles : Nat → List String

structure Config where
  group : Part → WorkerGroup
  useCritic : Bool

namespace Config

variable (cfg : Config)

def parts : List Part := if cfg.useCritic then [.actor, .critic] else [.actor]

/-- The files of a complete checkpoint. -/
def files : List CkptFile :=
  (cfg.parts.flatMap fun part => (List.range (cfg.group part).worldSize).flatMap fun rank =>
    ((cfg.group part).callFiles rank ++ (cfg.group part).asyncFiles rank).map (.saved part)) ++
    [.data]

end Config

/-- All parts of a step are written, and none is deleted. -/
def Complete (cfg : Config) (fs : FileSystem) (step : Nat) : Prop :=
  ∀ file ∈ cfg.files, fs.file step file = .full

/-! ## Saving -/

inductive Op
  | openFile (step : Nat) (file : CkptFile)
  | closeFile (step : Nat) (file : CkptFile)
  | schedule (step : Nat) (part : Part) (rank : Nat)
  deriving DecidableEq, Repr

namespace Op

def step : Op → Nat
  | .openFile step _ | .closeFile step _ | .schedule step _ _ => step

def effect : Op → FileSystem → FileSystem
  | .openFile step file, fs => fs.setFile step file .torn
  | .closeFile step file, fs => fs.setFile step file .full
  | .schedule _ _ _, fs => fs

/-- A file that was opened is to be closed. -/
def more : Op → List Op
  | .openFile step file => [.closeFile step file]
  | _ => []

end Op

section Save

variable (cfg : Config) (step : Nat)

/-- `save_checkpoint` on all ranks of a group. -/
def managerStage (part : Part) : List (List Op) :=
  (List.range (cfg.group part).worldSize).map fun rank =>
    ((cfg.group part).callFiles rank).map (fun name => .openFile step (.saved part name)) ++
      [.schedule step part rank]

/-- `_save_checkpoint`: it "skips write latest_checkpointed_iteration.txt". -/
def savePlan : Stages Op := cfg.parts.map (managerStage cfg step) ++ [[[.openFile step .data]]]

/-- What the asynchronous writer of a rank writes. -/
def asyncWrites (part : Part) (rank : Nat) : List Op :=
  ((cfg.group part).asyncFiles rank).map fun name => .openFile step (.saved part name)

end Save

/-! ## Finalizing -/

/-- Where a rank is in `finalize_save_fn`: the tracker is open, the path is to be registered, or the
old checkpoints are being removed. -/
inductive Phase
  | tracker
  | register
  | removing (steps : List Nat)
  deriving DecidableEq, Repr

/-- The manager of a rank: the steps of its `previous_saved_paths`, the saves it has scheduled and
not finalized, and the `finalize_save_fn` it runs. -/
structure Manager where
  previousSavedPaths : List Nat
  requests : List Nat
  finalizing : Option (Nat × Phase)

def Manager.idle : Manager := ⟨[], [], none⟩

structure State where
  fs : FileSystem
  plan : Stages Op
  writers : List Op
  manager : Part → Nat → Manager
  globalSteps : Nat

namespace State

/-- A job that starts at a step. -/
def start (fs : FileSystem) (globalSteps : Nat) : State where
  fs := fs
  plan := []
  writers := []
  manager := fun _ _ => .idle
  globalSteps := globalSteps

def setManager (s : State) (part : Part) (rank : Nat) (m : Manager) : State :=
  { s with manager := fun p r => if p = part ∧ r = rank then m else s.manager p r }

/-- What the trainer, the worker groups and the writers still have to do. -/
def pending (s : State) : List Op := Stages.ops s.plan ++ s.writers

end State

def initial : State := .start .empty 0

section System

variable (cfg : Config) (job : JobConfig)

/-- A rank of a worker group makes an operation of `save_checkpoint`. -/
def callOp (s : State) (i : Nat) (op : Op) : State :=
  let s' := { s with fs := op.effect s.fs, plan := Stages.advance Op.more s.plan i }
  match op with
  | .schedule step part rank =>
    let m := s.manager part rank
    { s'.setManager part rank { m with requests := m.requests ++ [step] } with
      writers := s.writers ++ asyncWrites cfg step part rank }
  | _ => s'

/-- A rank calls `finalize_save_fn`; rank 0 opens the tracker. -/
def finalizeSaveFn (s : State) (part : Part) (rank step : Nat) : State :=
  let m := { s.manager part rank with requests := (s.manager part rank).requests.erase step }
  if rank = 0 then
    { s.setManager part rank { m with finalizing := some (step, .tracker) } with
      fs := { s.fs with tracker := some none } }
  else s.setManager part rank { m with finalizing := some (step, .register) }

/-- The next operation of a `finalize_save_fn`. -/
def finalizeOp (s : State) (part : Part) (rank : Nat) : State :=
  let m := s.manager part rank
  match m.finalizing with
  | some (step, .tracker) =>
    { s.setManager part rank { m with finalizing := some (step, .register) } with
      fs := { s.fs with tracker := some (some step) } }
  | some (step, .register) =>
    let paths := registerCheckpoint step (job.maxCkptToKeep part) m.previousSavedPaths
    s.setManager part rank
      { m with previousSavedPaths := paths.2, finalizing := some (step, .removing paths.1) }
  | some (step, .removing (_ :: steps)) =>
    s.setManager part rank { m with finalizing := some (step, .removing steps) }
  | some (_, .removing []) => s.setManager part rank { m with finalizing := none }
  | none => s

/-- The step that a rank is removing. -/
def State.removing? (s : State) (part : Part) (rank : Nat) : Option Nat :=
  match (s.manager part rank).finalizing with
  | some (_, .removing (step :: _)) => some step
  | _ => none

inductive Action
  | save (step : Nat)
  | rank (i : Nat)
  | barrier
  | write (op : Op)
  | finalize (part : Part) (rank step : Nat)
  | call (part : Part) (rank : Nat)
  | unlink (part : Part) (rank : Nat) (name : String)
  | restart
  deriving DecidableEq, Repr

/-- Jobs with asynchronous saves.  A rank may finalize a save when its own writes are done; a job
that is killed is restarted from the tracker. -/
def trainer : StepSystem State Action
  | .save step =>
    { guard := fun s => s.plan = [] ∧ s.globalSteps < step
      effect := fun s => { s with plan := savePlan cfg step, globalSteps := step } }
  | .rank i =>
    { guard := fun s => (Stages.next? s.plan i).isSome = true
      effect := fun s => match Stages.next? s.plan i with
        | some op => callOp cfg s i op
        | none => s }
  | .barrier =>
    { guard := fun s => Stages.AtBarrier s.plan
      effect := fun s => { s with plan := s.plan.tail } }
  | .write op =>
    { guard := fun s => op ∈ s.writers
      effect := fun s =>
        { s with fs := op.effect s.fs, writers := s.writers.erase op ++ op.more } }
  | .finalize part rank step =>
    { guard := fun s => step ∈ (s.manager part rank).requests ∧
        (s.manager part rank).finalizing = none ∧
        ∀ name ∈ (cfg.group part).asyncFiles rank, .openFile step (.saved part name) ∉ s.writers ∧
          .closeFile step (.saved part name) ∉ s.writers
      effect := fun s => finalizeSaveFn s part rank step }
  | .call part rank =>
    { guard := fun s => (s.manager part rank).finalizing ≠ none
      effect := fun s => finalizeOp job s part rank }
  | .unlink part rank name =>
    { guard := fun s => (s.removing? part rank).isSome = true
      effect := fun s => match s.removing? part rank with
        | some step => { s with fs := s.fs.setFile step (.saved part name) .absent }
        | none => s }
  | .restart =>
    { guard := fun s => s.fs.tracker ≠ some none
      effect := fun s => .start s.fs (s.fs.named.getD 0) }

end System

end Verl.AsyncSave
