import Verl.Lib.KeyValue
import Verl.Lib.Python
import Verl.Lib.StepSystem

/-! # The synchronous trainer on the TransferQueue

`main_ppo_sync.PPOTrainer` dispatches prompts to the agent loop workers and samples their
rows from a replay buffer, which a poll thread fills from the listing of the TransferQueue:

    generate_sequences: buffer.add(running)  ->  session tasks: kv_batch_put(rows)
                                             ->  prompt task:   kv_put(finished | failure)
    poll thread:        kv_list() ... buffer.add(listing)
    main thread:        generate, sample, kv_clear, buffer.remove

The TransferQueue is a key-value store with tags; a key of a row stands for the whole row,
since the control flow looks at keys and tags only.

* `sample`: `ReplayBuffer.sample`, one pass of its loop. -/

namespace Verl.TransferQueue

/-! ## Keys and tags -/

inductive Partition
  | train
  | val
  deriving DecidableEq, Repr

/-- A prompt has its uid as key, a row of one of its sessions `{uid}_{session_id}_{index}`. -/
inductive Key
  | prompt (uid : Nat)
  | row (uid session index : Nat)
  deriving DecidableEq, Repr

def Key.uid : Key → Nat
  | .prompt uid => uid
  | .row uid _ _ => uid

inductive Status
  | running
  | finished
  | failure
  | success
  deriving DecidableEq, Repr

/-- The entries of a tag that the replay buffer reads; `global_steps` may be missing. -/
structure Tag where
  globalSteps : Option Nat
  status : Status
  deriving DecidableEq, Repr

abbrev Store := KVMap Key Tag

/-- `partition[key].update(tags)`. -/
def Tag.update (old : Option Tag) (tags : Tag) : Tag where
  globalSteps := tags.globalSteps <|> old.bind Tag.globalSteps
  status := tags.status

/-! ## The replay buffer -/

def add (items partition : Store) : Store := KVMap.mergeAll Tag.update items partition

def remove (keys : List Key) (partition : Store) : Store := KVMap.eraseAll keys partition

/-- The `for` loop of `sample`; `none` is `should_wait`. -/
def sampleLoop (globalSteps : Nat) :
    List (Sigma fun _ : Key => Tag) → List Key → Except PyErr (Option (List Key))
  | [], keys => .ok (some keys)
  | ⟨key, tag⟩ :: rest, keys =>
    match tag.globalSteps with
    | none => .error (.keyError "global_steps")
    | some g =>
      if g = globalSteps then
        match tag.status with
        | .running => .ok none
        | .success => sampleLoop globalSteps rest (keys ++ [key])
        | .finished | .failure => sampleLoop globalSteps rest keys
      else sampleLoop globalSteps rest keys

def sample (partition : Store) (globalSteps : Nat) : Except PyErr (Option (List Key)) :=
  sampleLoop globalSteps partition.entries []

/-! ## State -/

/-- A prompt task and its session tasks. -/
structure Prompt where
  partition : Partition
  globalSteps : Nat
  /-- The session tasks that have not ended. -/
  running : List Nat
  /-- Some session task has raised. -/
  failed : Bool
  /-- What the prompt task has put; `running` before that. -/
  status : Status
  /-- History: a batch with its rows has been sampled. -/
  sampled : Bool
  deriving DecidableEq, Repr

/-- A sampled batch that is not yet removed from the replay buffer. -/
structure Batch where
  keys : List Key
  cleared : Bool
  deriving DecidableEq, Repr

structure State where
  globalSteps : Nat
  tq : Partition → Store
  replayBuffer : Partition → Store
  /-- The part of the last listing that the poll thread still has to add. -/
  listing : Partition → Option Store
  prompts : Nat → Option Prompt
  /-- The partition whose dispatched prompts are to be sampled. -/
  awaiting : Option Partition
  batch : Partition → Option Batch
  /-- History: the rows ever put, and the rows ever sampled. -/
  produced : List Key
  returned : List Key

namespace State

/-- Nothing is dispatched; `global_steps` may come from a checkpoint. -/
def initial (globalSteps : Nat) : State where
  globalSteps := globalSteps
  tq := fun _ => ∅
  replayBuffer := fun _ => ∅
  listing := fun _ => none
  prompts := fun _ => none
  awaiting := none
  batch := fun _ => none
  produced := []
  returned := []

/-- The prompt of this uid exists and meets `P`. -/
def HasPrompt (s : State) (uid : Nat) (P : Prompt → Prop) : Prop :=
  ∃ p, s.prompts uid = some p ∧ P p

instance (s : State) (uid : Nat) (P : Prompt → Prop) [DecidablePred P] :
    Decidable (s.HasPrompt uid P) :=
  match h : s.prompts uid with
  | none => .isFalse (by rintro ⟨p, hp, -⟩; simp [h] at hp)
  | some p => decidable_of_iff (P p) ⟨fun hp => ⟨p, h, hp⟩, by
      rintro ⟨q, hq, hP⟩
      rw [h] at hq
      cases hq
      exact hP⟩

def updatePrompt (s : State) (uid : Nat) (f : Prompt → Prompt) : State :=
  { s with prompts := fun u => if u = uid then (s.prompts u).map f else s.prompts u }

/-! ## The main thread -/

/-- `generate_sequences` for prompts given by uid and number of sessions. -/
def generateSequences (s : State) (part : Partition) (uids : List (Nat × Nat)) : State :=
  { s with
    prompts := fun u =>
      match uids.lookup u with
      | some n => some {
          partition := part
          globalSteps := s.globalSteps
          running := List.range n
          failed := false
          status := .running
          sampled := false }
      | none => s.prompts u
    replayBuffer := Function.update s.replayBuffer part (add
      (KVMap.ofKeys (uids.map fun u => .prompt u.1) ⟨some s.globalSteps, .running⟩)
      (s.replayBuffer part))
    awaiting := some part }

/-- The batch the main thread gets once `sample` returns. -/
def sampled? (s : State) : Option (Partition × List Key) :=
  match s.awaiting with
  | none => none
  | some part =>
    match sample (s.replayBuffer part) s.globalSteps with
    | .ok (some keys) => some (part, keys)
    | .ok none | .error _ => none

def takeSample (s : State) (part : Partition) (keys : List Key) : State :=
  { s with
    awaiting := none
    batch := Function.update s.batch part (some ⟨keys, false⟩)
    returned := s.returned ++ keys
    prompts := fun u => (s.prompts u).map fun p =>
      if p.partition = part ∧ p.globalSteps = s.globalSteps then { p with sampled := true }
      else p }

/-- `kv_clear` of a batch. -/
def clearBatch (s : State) (part : Partition) (b : Batch) : State :=
  { s with
    tq := Function.update s.tq part (KVMap.eraseAll b.keys (s.tq part))
    batch := Function.update s.batch part (some { b with cleared := true }) }

/-- `replay_buffer.remove` of a batch. -/
def removeBatch (s : State) (part : Partition) (b : Batch) : State :=
  { s with
    replayBuffer := Function.update s.replayBuffer part (remove b.keys (s.replayBuffer part))
    batch := Function.update s.batch part none }

/-! ## The agent loop workers -/

/-- The keys of the outputs of a session. -/
def outputKeys (uid session outputs : Nat) : List Key :=
  (List.range outputs).map (Key.row uid session)

/-- `_agent_loop_postprocess`: all outputs of a session are put at once. -/
def putRows (s : State) (uid session outputs : Nat) (p : Prompt) : State :=
  { s.updatePrompt uid fun p => { p with running := p.running.erase session } with
    tq := Function.update s.tq p.partition
      (KVMap.putKeys (outputKeys uid session outputs) ⟨some p.globalSteps, .success⟩
        (s.tq p.partition))
    produced := s.produced ++ outputKeys uid session outputs }

/-- The prompt task puts its status under the uid. -/
def putStatus (s : State) (uid : Nat) (status : Status) (p : Prompt) : State :=
  { s.updatePrompt uid fun p => { p with status := status } with
    tq := Function.update s.tq p.partition ((s.tq p.partition).insert (.prompt uid)
      ⟨none, status⟩) }

end State

/-! ## The step system -/

inductive Action
  | generate (part : Partition) (uids : List (Nat × Nat))
  | sessionPut (uid session outputs : Nat)
  | sessionFail (uid session : Nat)
  | promptFinish (uid : Nat)
  | promptFail (uid : Nat)
  | pollList
  | pollAdd (part : Partition)
  | sample
  | clear (part : Partition)
  | remove (part : Partition)
  | nextStep
  deriving DecidableEq, Repr

/-- One action is an atomic operation of one thread or task on the TransferQueue or, under
its lock, on the replay buffer. -/
def trainer : StepSystem State Action
  -- the main thread; the uids are fresh `uuid4`s
  | .generate part uids => {
      guard := fun s => s.awaiting = none ∧ s.batch part = none ∧
        (uids.map Prod.fst).Nodup ∧ ∀ u ∈ uids, s.prompts u.1 = none
      effect := fun s => s.generateSequences part uids }
  | .sample => {
      guard := fun s => s.sampled?.isSome = true
      effect := fun s =>
        match s.sampled? with
        | some (part, keys) => s.takeSample part keys
        | none => s }
  | .clear part => {
      guard := fun s => (s.batch part).any (fun b => !b.cleared) = true
      effect := fun s =>
        match s.batch part with
        | some b => s.clearBatch part b
        | none => s }
  | .remove part => {
      guard := fun s => (s.batch part).any (fun b => b.cleared) = true
      effect := fun s =>
        match s.batch part with
        | some b => s.removeBatch part b
        | none => s }
  | .nextStep => {
      guard := fun s => s.awaiting = none ∧ s.batch .train = none ∧ s.batch .val = none
      effect := fun s => { s with globalSteps := s.globalSteps + 1 } }
  -- session tasks
  | .sessionPut uid session outputs => {
      guard := fun s => s.HasPrompt uid fun p => session ∈ p.running
      effect := fun s =>
        match s.prompts uid with
        | some p => s.putRows uid session outputs p
        | none => s }
  | .sessionFail uid session => {
      guard := fun s => s.HasPrompt uid fun p => session ∈ p.running
      effect := fun s => s.updatePrompt uid fun p =>
        { p with running := p.running.erase session, failed := true } }
  -- prompt tasks: `gather` returns when all sessions have, or raises at the first failure
  | .promptFinish uid => {
      guard := fun s => s.HasPrompt uid fun p =>
        p.status = .running ∧ p.running = [] ∧ p.failed = false
      effect := fun s =>
        match s.prompts uid with
        | some p => s.putStatus uid .finished p
        | none => s }
  | .promptFail uid => {
      guard := fun s => s.HasPrompt uid fun p => p.status = .running ∧ p.failed = true
      effect := fun s =>
        match s.prompts uid with
        | some p => s.putStatus uid .failure p
        | none => s }
  -- the poll thread
  | .pollList => {
      guard := fun s => s.listing .train = none ∧ s.listing .val = none
      effect := fun s => { s with listing := fun part => some (s.tq part) } }
  | .pollAdd part => {
      guard := fun s => (s.listing part).isSome = true
      effect := fun s =>
        match s.listing part with
        | some items =>
          { s with
            replayBuffer := Function.update s.replayBuffer part (add items
              (s.replayBuffer part))
            listing := Function.update s.listing part none }
        | none => s }

end Verl.TransferQueue
