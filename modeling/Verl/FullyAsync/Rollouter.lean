import Verl.Lib.StepSystem

/-! # The fully asynchronous rollouter, the message queue and the trainer

`FullyAsyncRollouter` runs on one event loop: the feed coroutine fills
`pending_queue`, the processor submits one task for each sample, every task puts its
sample into the `MessageQueue` actor, a monitor loop may resume a paused processor, and
`reset_staleness` is called by the trainer after each weight synchronisation.  The
trainer takes the samples out of the queue one by one.

One action is the code between two awaits.  A sample carries no data here: the counters
and the places it can be in are all that the flow control looks at.

* `State`: the shared fields, the place of every coroutine and its local variables.
* `Flow`: what always holds of the pause flags and of the callers of `reset_staleness`
  (`reachable_flow`); only the processor pauses, so it never meets `paused` with a
  sample in hand. -/

namespace Verl.FullyAsync

/-! ## Configuration -/

/-- `set_max_required_samples` and the fields it reads. -/
structure Params where
  requiredSamples : Nat
  triggerParameterSyncStep : Nat
  maxRequiredSamples : Nat
  maxConcurrentSamples : Nat
  required_pos : 0 < requiredSamples
  trigger_pos : 1 ≤ triggerParameterSyncStep
  round_le : triggerParameterSyncStep * requiredSamples ≤ maxRequiredSamples
  concurrent_pos : 0 < maxConcurrentSamples

/-- Samples the trainer takes between two weight synchronisations. -/
def Params.round (p : Params) : Nat := p.triggerParameterSyncStep * p.requiredSamples

/-- The queue is created with `get_max_queue_size`. -/
def Params.maxQueueSize (p : Params) : Nat := p.maxRequiredSamples

/-- `int(required_samples * (staleness_threshold + 1) * trigger_parameter_sync_step)`. -/
def maxRequiredSamples (requiredSamples triggerParameterSyncStep : Nat)
    (stalenessThreshold : ℚ) : Nat :=
  ⌊(requiredSamples : ℚ) * (stalenessThreshold + 1) * triggerParameterSyncStep⌋.toNat

theorem round_le_maxRequiredSamples (required trigger : Nat) (threshold : ℚ)
    (h : 0 ≤ threshold) : trigger * required ≤ maxRequiredSamples required trigger threshold := by
  unfold maxRequiredSamples
  rw [Int.le_toNat (Int.floor_nonneg.mpr (by positivity)), Int.le_floor]
  push_cast
  have hpos : (0 : ℚ) ≤ trigger * required := by positivity
  nlinarith [mul_nonneg hpos h]

/-- `set_max_required_samples` for a threshold the constructor's assertions accept. -/
def setMaxRequiredSamples (requiredSamples triggerParameterSyncStep replicas : Nat)
    (stalenessThreshold : ℚ) (hrequired : 0 < requiredSamples)
    (htrigger : 1 ≤ triggerParameterSyncStep) (hreplicas : 0 < replicas)
    (hthreshold : 0 ≤ stalenessThreshold) : Params where
  requiredSamples := requiredSamples
  triggerParameterSyncStep := triggerParameterSyncStep
  maxRequiredSamples := maxRequiredSamples requiredSamples triggerParameterSyncStep
    stalenessThreshold
  maxConcurrentSamples := min (replicas * 16)
    (maxRequiredSamples requiredSamples triggerParameterSyncStep stalenessThreshold)
  required_pos := hrequired
  trigger_pos := htrigger
  round_le := round_le_maxRequiredSamples _ _ _ hthreshold
  concurrent_pos := by
    have h := round_le_maxRequiredSamples requiredSamples triggerParameterSyncStep _ hthreshold
    have := Nat.mul_pos htrigger hrequired
    omega

/-! ## State -/

/-- Where `_processor_worker` awaits. -/
inductive Processor
  /-- `_should_pause_generation`: the statistics request is on its way to the queue. -/
  | statsAsked
  /-- The queue has answered; the answer is not yet read. -/
  | statsAnswered
  /-- Waits for the lock to set `paused`. -/
  | pauseLock
  /-- `asyncio.wait` on the active tasks and the resume future. -/
  | drain
  /-- Waits for the lock to discard the finished tasks it woke up for. -/
  | reapLock
  | resumeWait
  /-- `await self.pending_queue.get()`. -/
  | getting
  /-- A sample in hand and no free slot: waits for the lock, then for a task under it. -/
  | slotLock
  | slotWait
  /-- A sample in hand and a slot: waits for the resume event, then for the lock. -/
  | submitWait
  | submitLock
  /-- After the end signal: waits for the remaining tasks. -/
  | finishLock
  | finishWait
  /-- `put_sample(sample=None)` is on its way. -/
  | endPutting
  | stopped
  deriving DecidableEq, Repr

/-- `reset_staleness`: the lock is held from `sizeAsked` on. -/
inductive Reset
  | idle
  | lockWait
  | sizeAsked
  | sizeAnswered
  deriving DecidableEq, Repr

inductive Monitor
  | sleeping
  | statsAsked
  | statsAnswered
  | lockWait
  deriving DecidableEq, Repr

inductive Trainer
  /-- `_get_samples_from_queue`. -/
  | collecting
  /-- `checkpoint_manager.update_weights`. -/
  | updating
  /-- Awaits `rollouter.reset_staleness`. -/
  | resetting
  /-- Has received the end signal. -/
  | stopping
  | stopped
  deriving DecidableEq, Repr

structure State where
  stalenessSamples : Nat
  paused : Bool
  resumeEvent : Bool
  /-- Samples `_feed_samples` still has to put, and whether it has put `None`. -/
  feedLeft : Nat
  feedEnded : Bool
  /-- `pending_queue`: samples, then `None`. -/
  pendingSamples : Nat
  pendingEnd : Bool
  /-- `active_tasks`, by where `_process_single_sample_streaming` is. -/
  generating : Nat
  reporting : Nat
  putting : Nat
  returning : Nat
  finished : Nat
  processor : Processor
  /-- Locals of the processor: `queue_size`, `len(actual_done)`. -/
  queueStats : Nat
  actualDone : Nat
  reset : Reset
  /-- Locals of `reset_staleness`: `len(self.active_tasks)`, the awaited queue size. -/
  resetActive : Nat
  resetQueue : Nat
  monitor : Monitor
  monitorStats : Nat
  /-- The message queue: samples, then `None`. -/
  queue : Nat
  queueEnd : Bool
  droppedSamples : Nat
  localTriggerStep : Nat
  /-- `len(queue_samples)` of the batch being collected. -/
  queueSamples : Nat
  trainer : Trainer
  deriving DecidableEq, Repr

namespace State

/-- `fit` has started with `n` samples to feed; the processor asks for the statistics. -/
def initial (n : Nat) : State where
  stalenessSamples := 0
  paused := false
  resumeEvent := true
  feedLeft := n
  feedEnded := false
  pendingSamples := 0
  pendingEnd := false
  generating := 0
  reporting := 0
  putting := 0
  returning := 0
  finished := 0
  processor := .statsAsked
  queueStats := 0
  actualDone := 0
  reset := .idle
  resetActive := 0
  resetQueue := 0
  monitor := .sleeping
  monitorStats := 0
  queue := 0
  queueEnd := false
  droppedSamples := 0
  localTriggerStep := 1
  queueSamples := 0
  trainer := .collecting

/-- Submitted samples that are not in the queue yet. -/
def unput (s : State) : Nat := s.generating + s.reporting + s.putting

/-- `len(self.active_tasks)`: a task leaves the set only when the processor reaps it. -/
def activeTasks (s : State) : Nat := s.unput + s.returning + s.finished

/-- `len(self.queue)`. -/
def queueSize (s : State) : Nat := s.queue + s.queueEnd.toNat

/-- The size of `pending_queue`, created with `maxsize=128`. -/
def pendingSize (s : State) : Nat := s.pendingSamples + s.pendingEnd.toNat

end State

/-- What the processor has taken out of `pending_queue`. -/
inductive Role
  | between
  /-- The drain loop and the wait after it. -/
  | draining
  | getting
  /-- It has taken a sample and not submitted it. -/
  | holding
  /-- It has taken `None` and not put it. -/
  | ending
  | stopped
  deriving DecidableEq, Repr

def Processor.role : Processor → Role
  | .statsAsked | .statsAnswered | .pauseLock => .between
  | .drain | .reapLock | .resumeWait => .draining
  | .getting => .getting
  | .slotLock | .slotWait | .submitWait | .submitLock => .holding
  | .finishLock | .finishWait | .endPutting => .ending
  | .stopped => .stopped

@[simp] theorem role_statsAsked : Processor.statsAsked.role = .between := rfl
@[simp] theorem role_getting : Processor.getting.role = .getting := rfl
@[simp] theorem role_stopped : Processor.stopped.role = .stopped := rfl

def Processor.inHand (pc : Processor) : Nat := if pc.role = .holding then 1 else 0

/-- The lock is held across an await by the processor in two places. -/
def Processor.holdsLock : Processor → Bool
  | .slotWait | .finishWait => true
  | _ => false

def Reset.holdsLock : Reset → Bool
  | .sizeAsked | .sizeAnswered => true
  | _ => false

namespace State

/-- The samples submitted or about to be submitted that are not yet consumed. -/
def outstanding (s : State) : Nat := s.queue + s.unput + s.processor.inHand

/-- Nobody holds the lock. -/
def lockFree (s : State) : Prop :=
  s.processor.holdsLock = false ∧ s.reset.holdsLock = false

instance (s : State) : Decidable s.lockFree := inferInstanceAs (Decidable (_ ∧ _))

/-- `async with self.lock` does not wait for the processor: nobody else holds the lock
and nobody is queued for it. -/
def lockAtOnce (s : State) : Prop := s.reset = .idle ∧ s.monitor ≠ .lockWait

instance (s : State) : Decidable s.lockAtOnce := inferInstanceAs (Decidable (_ ∧ _))

/-! ## The processor, up to its next await -/

/-- The lock section that pauses, and the start of the drain loop. -/
def pauseNow (s : State) : State :=
  { s with
    paused := true
    resumeEvent := false
    processor := if 0 < s.activeTasks then .drain else .resumeWait }

def pause (s : State) : State :=
  if s.lockAtOnce then s.pauseNow else { s with processor := .pauseLock }

/-- `if self.paused or await self._should_pause_generation()`, up to the await. -/
def loopTop (s : State) : State :=
  if s.paused then s.pause else { s with processor := .statsAsked }

/-- `safe_create_task` under the lock, and the next turn of the loop. -/
def submit (s : State) : State :=
  loopTop { s with generating := s.generating + 1 }

def lockSubmit (s : State) : State :=
  if s.lockAtOnce then s.submit else { s with processor := .submitLock }

/-- From `if self.paused: await self._resume_event.wait()` on. -/
def submitSample (s : State) : State :=
  if s.paused && !s.resumeEvent then { s with processor := .submitWait } else s.lockSubmit

/-- The `if self.active_tasks` under the lock of the slot loop. -/
def waitSlot (s : State) : State :=
  if 0 < s.activeTasks then { s with processor := .slotWait } else s.submitSample

/-- `while len(self.active_tasks) >= self.max_concurrent_samples`. -/
def checkSlot (p : Params) (s : State) : State :=
  if p.maxConcurrentSamples ≤ s.activeTasks then
    if s.lockAtOnce then s.waitSlot else { s with processor := .slotLock }
  else s.submitSample

/-- `while self.active_tasks` after the end signal. -/
def finish (s : State) : State :=
  if 0 < s.activeTasks then
    { s with processor := if s.lockAtOnce then .finishWait else .finishLock }
  else { s with processor := .endPutting }

/-- From `await self.pending_queue.get()` on; `get` returns at once when it can. -/
def getSample (p : Params) (s : State) : State :=
  if 0 < s.pendingSamples then
    checkSlot p { s with
      pendingSamples := s.pendingSamples - 1
      stalenessSamples := s.stalenessSamples + 1 }
  else if s.pendingEnd then
    finish { s with pendingEnd := false, stalenessSamples := s.stalenessSamples + 1 }
  else { s with processor := .getting }

/-- `_should_pause_generation` once the queue size is known. -/
def shouldPause (p : Params) (s : State) (queueSize : Nat) : Bool :=
  p.maxQueueSize ≤ queueSize || p.maxRequiredSamples ≤ s.stalenessSamples

/-- Back in the drain loop after the lock section. -/
def drainLoop (s : State) : State :=
  { s with processor := if 0 < s.activeTasks then .drain else .resumeWait }

/-- Discards the `k` finished tasks, then leaves the drain loop or stays in it. -/
def reap (s : State) (k : Nat) (resumed : Bool) : State :=
  if resumed then loopTop { s with finished := s.finished - k }
  else drainLoop { s with finished := s.finished - k }

/-! ## The message queue -/

/-- `put_sample`: a full queue loses its oldest item first. -/
def makeRoom (p : Params) (s : State) : State :=
  if p.maxQueueSize ≤ s.queueSize then
    { s with
      queue := s.queue - 1
      queueEnd := s.queueEnd && 0 < s.queue
      droppedSamples := s.droppedSamples + 1 }
  else s

def putSample (p : Params) (s : State) : State :=
  { s.makeRoom p with queue := (s.makeRoom p).queue + 1 }

def putEnd (p : Params) (s : State) : State :=
  { s.makeRoom p with queueEnd := true }

/-- `get_sample` on a queue that is not empty. -/
def getItem (s : State) : State :=
  if 0 < s.queue then
    { s with queue := s.queue - 1, queueSamples := s.queueSamples + 1 }
  else { s with queueEnd := false, trainer := .stopping }

/-! ## The trainer -/

/-- `_fit_update_local_step`, and the synchronisation it may lead to. -/
def updateLocalStep (p : Params) (s : State) : State :=
  if s.localTriggerStep < p.triggerParameterSyncStep then
    { s with localTriggerStep := s.localTriggerStep + 1, queueSamples := 0 }
  else
    { s with localTriggerStep := 1, queueSamples := 0, trainer := .updating }

/-- Samples the trainer still takes before its next weight synchronisation. -/
def need (p : Params) (s : State) : Nat :=
  (p.triggerParameterSyncStep - s.localTriggerStep) * p.requiredSamples
    + (p.requiredSamples - s.queueSamples)

end State

/-! ## The step system -/

inductive Action
  | feedSample
  | feedEnd
  | processorStats
  | processorDecide
  | processorPause
  | processorDrain (resumed : Bool)
  | processorReap (resumed : Bool)
  | processorResume
  | processorGet
  | processorSlotLock
  | processorSlotFree
  | processorResumeSubmit
  | processorSubmit
  | processorFinishLock
  | processorFinishOne
  | processorPutEnd
  | taskGenerated
  | taskReported
  | taskPut
  | taskReturned
  | monitorCheck
  | monitorStats
  | monitorDecide
  | monitorResume
  | trainerGet
  | trainerTrain
  | trainerUpdated
  | trainerLastUpdate
  | resetLock
  | resetSize
  | resetAssign
  deriving DecidableEq, Repr

open State in
/-- One action is the code of one party between two awaits.  The order in which the lock
and the queue actor serve the parties is left open, and so is when a task finishes. -/
def rollouter (p : Params) : StepSystem State Action
  -- `_feed_samples`
  | .feedSample => {
      guard := fun s => 0 < s.feedLeft ∧ s.pendingSize < 128
      effect := fun s =>
        { s with feedLeft := s.feedLeft - 1, pendingSamples := s.pendingSamples + 1 } }
  | .feedEnd => {
      guard := fun s => s.feedLeft = 0 ∧ s.feedEnded = false ∧ s.pendingSize < 128
      effect := fun s => { s with feedEnded := true, pendingEnd := true } }
  -- `_processor_worker`
  | .processorStats => {
      guard := fun s => s.processor = .statsAsked
      effect := fun s => { s with processor := .statsAnswered, queueStats := s.queueSize } }
  | .processorDecide => {
      guard := fun s => s.processor = .statsAnswered
      effect := fun s => if s.shouldPause p s.queueStats then s.pause else s.getSample p }
  | .processorPause => {
      guard := fun s => s.processor = .pauseLock ∧ s.lockFree
      effect := pauseNow }
  | .processorDrain resumed => {
      guard := fun s => s.processor = .drain ∧
        (if resumed then s.resumeEvent = true else 0 < s.finished)
      effect := fun s =>
        if s.finished = 0 ∨ s.lockAtOnce then s.reap s.finished resumed
        else { s with processor := .reapLock, actualDone := s.finished } }
  | .processorReap resumed => {
      guard := fun s => s.processor = .reapLock ∧ s.lockFree ∧
        (resumed = true → s.resumeEvent = true)
      effect := fun s => s.reap s.actualDone resumed }
  | .processorResume => {
      guard := fun s => s.processor = .resumeWait ∧ s.resumeEvent = true
      effect := loopTop }
  | .processorGet => {
      guard := fun s => s.processor = .getting ∧ 0 < s.pendingSize
      effect := getSample p }
  | .processorSlotLock => {
      guard := fun s => s.processor = .slotLock ∧ s.lockFree
      effect := waitSlot }
  | .processorSlotFree => {
      guard := fun s => s.processor = .slotWait ∧ 0 < s.finished
      effect := fun s => checkSlot p { s with finished := 0 } }
  | .processorResumeSubmit => {
      guard := fun s => s.processor = .submitWait ∧ s.resumeEvent = true
      effect := lockSubmit }
  | .processorSubmit => {
      guard := fun s => s.processor = .submitLock ∧ s.lockFree
      effect := submit }
  | .processorFinishLock => {
      guard := fun s => s.processor = .finishLock ∧ s.lockFree
      effect := fun s =>
        if 0 < s.activeTasks then { s with processor := .finishWait } else s.finish }
  | .processorFinishOne => {
      guard := fun s => s.processor = .finishWait ∧ 0 < s.finished
      effect := fun s => finish { s with finished := 0 } }
  | .processorPutEnd => {
      guard := fun s => s.processor = .endPutting
      effect := fun s => { s.putEnd p with processor := .stopped } }
  -- `_process_single_sample_streaming`
  | .taskGenerated => {
      guard := fun s => 0 < s.generating
      effect := fun s =>
        { s with generating := s.generating - 1, reporting := s.reporting + 1 } }
  | .taskReported => {
      guard := fun s => 0 < s.reporting
      effect := fun s => { s with reporting := s.reporting - 1, putting := s.putting + 1 } }
  | .taskPut => {
      guard := fun s => 0 < s.putting
      effect := fun s =>
        { s.putSample p with putting := s.putting - 1, returning := s.returning + 1 } }
  | .taskReturned => {
      guard := fun s => 0 < s.returning
      effect := fun s =>
        { s with returning := s.returning - 1, finished := s.finished + 1 } }
  -- `_async_monitor_loop`
  | .monitorCheck => {
      guard := fun s => s.monitor = .sleeping ∧ s.paused = true
      effect := fun s => { s with monitor := .statsAsked } }
  | .monitorStats => {
      guard := fun s => s.monitor = .statsAsked
      effect := fun s => { s with monitor := .statsAnswered, monitorStats := s.queueSize } }
  | .monitorDecide => {
      guard := fun s => s.monitor = .statsAnswered
      effect := fun s =>
        { s with monitor := if s.shouldPause p s.monitorStats then .sleeping else .lockWait } }
  | .monitorResume => {
      guard := fun s => s.monitor = .lockWait ∧ s.lockFree
      effect := fun s => { s with monitor := .sleeping, paused := false, resumeEvent := true } }
  -- the trainer
  | .trainerGet => {
      guard := fun s => s.trainer = .collecting ∧ s.queueSamples < p.requiredSamples ∧
        0 < s.queueSize
      effect := getItem }
  | .trainerTrain => {
      guard := fun s => s.trainer = .collecting ∧ s.queueSamples = p.requiredSamples
      effect := updateLocalStep p }
  | .trainerUpdated => {
      guard := fun s => s.trainer = .updating
      effect := fun s => { s with trainer := .resetting, reset := .lockWait } }
  | .trainerLastUpdate => {
      -- `fit` updates the weights once more after the end signal
      guard := fun s => s.trainer = .stopping ∧ s.localTriggerStep = 1
      effect := fun s => { s with trainer := .stopped, reset := .lockWait } }
  -- `reset_staleness`
  | .resetLock => {
      guard := fun s => s.reset = .lockWait ∧ s.lockFree
      effect := fun s =>
        { s with
          paused := false
          resumeEvent := true
          reset := .sizeAsked
          resetActive := s.activeTasks } }
  | .resetSize => {
      guard := fun s => s.reset = .sizeAsked
      effect := fun s => { s with reset := .sizeAnswered, resetQueue := s.queueSize } }
  | .resetAssign => {
      guard := fun s => s.reset = .sizeAnswered
      effect := fun s =>
        { s with
          stalenessSamples := s.resetActive + s.resetQueue
          reset := .idle
          trainer := if s.trainer = .resetting then .collecting else s.trainer } }

/-! ## The processor's next await when nothing is paused -/

namespace State

variable {s : State}

section

variable (h : s.paused = false)
include h

theorem loopTop_eq : s.loopTop = { s with processor := .statsAsked } := by
  simp [loopTop, h]

theorem submit_eq :
    s.submit = { s with generating := s.generating + 1, processor := .statsAsked } := by
  unfold submit
  rw [loopTop_eq (by exact h)]

theorem lockSubmit_cases :
    (∃ pc : Processor, pc.role = .holding ∧ s.lockSubmit = { s with processor := pc }) ∨
    (s.lockAtOnce ∧
      s.lockSubmit = { s with generating := s.generating + 1, processor := .statsAsked }) := by
  unfold lockSubmit
  split
  · next hlock => exact .inr ⟨hlock, submit_eq h⟩
  · exact .inl ⟨.submitLock, rfl, rfl⟩

theorem submitSample_cases :
    (∃ pc : Processor, pc.role = .holding ∧ s.submitSample = { s with processor := pc }) ∨
    (s.lockAtOnce ∧
      s.submitSample = { s with generating := s.generating + 1, processor := .statsAsked }) := by
  have heq : s.submitSample = s.lockSubmit := by simp [submitSample, h]
  rw [heq]
  exact lockSubmit_cases h

theorem waitSlot_cases :
    (∃ pc : Processor, pc.role = .holding ∧ s.waitSlot = { s with processor := pc }) ∨
    (s.lockAtOnce ∧
      s.waitSlot = { s with generating := s.generating + 1, processor := .statsAsked }) := by
  unfold waitSlot
  split
  · exact .inl ⟨.slotWait, rfl, rfl⟩
  · exact submitSample_cases h

end

theorem checkSlot_cases (p : Params) (h : s.paused = false) :
    (∃ pc : Processor, pc.role = .holding ∧ s.checkSlot p = { s with processor := pc }) ∨
    (s.lockAtOnce ∧
      s.checkSlot p = { s with generating := s.generating + 1, processor := .statsAsked }) := by
  unfold checkSlot
  split
  · split
    · exact waitSlot_cases h
    · exact .inl ⟨.slotLock, rfl, rfl⟩
  · exact submitSample_cases h

theorem finish_cases (s : State) :
    ∃ pc : Processor, pc.role = .ending ∧ s.finish = { s with processor := pc } := by
  unfold finish
  split
  · refine ⟨_, ?_, rfl⟩
    split <;> rfl
  · exact ⟨_, rfl, rfl⟩

theorem getSample_cases (p : Params) (h : s.paused = false) :
    (∃ pc : Processor, pc.role = .holding ∧ s.getSample p = { s with
      pendingSamples := s.pendingSamples - 1
      stalenessSamples := s.stalenessSamples + 1
      processor := pc }) ∨
    (s.lockAtOnce ∧ s.getSample p = { s with
      pendingSamples := s.pendingSamples - 1
      stalenessSamples := s.stalenessSamples + 1
      generating := s.generating + 1
      processor := .statsAsked }) ∨
    (∃ pc : Processor, pc.role = .ending ∧ s.getSample p = { s with
      pendingEnd := false
      stalenessSamples := s.stalenessSamples + 1
      processor := pc }) ∨
    s.getSample p = { s with processor := .getting } := by
  unfold getSample
  split
  · rcases checkSlot_cases p (s := { s with
        pendingSamples := s.pendingSamples - 1
        stalenessSamples := s.stalenessSamples + 1 }) h with ⟨pc, hpc, heq⟩ | ⟨hlock, heq⟩
    · exact .inl ⟨pc, hpc, heq⟩
    · exact .inr (.inl ⟨hlock, heq⟩)
  · split
    · obtain ⟨pc, hpc, heq⟩ := finish_cases { s with
        pendingEnd := false, stalenessSamples := s.stalenessSamples + 1 }
      exact .inr (.inr (.inl ⟨pc, hpc, heq⟩))
    · exact .inr (.inr (.inr rfl))

theorem getSample_getting (p : Params) (s : State) :
    getSample p { s with processor := .getting } = s.getSample p := rfl

theorem pauseNow_cases (s : State) : ∃ pc : Processor, pc.role = .draining ∧
      s.pauseNow = { s with paused := true, resumeEvent := false, processor := pc } := by
  refine ⟨_, ?_, rfl⟩
  split <;> rfl

theorem reap_cases (k : Nat) (resumed : Bool) (h : resumed = true → s.paused = false) :
    (∃ pc : Processor, pc.role = .draining ∧
      s.reap k resumed = { s with finished := s.finished - k, processor := pc }) ∨
    (s.paused = false ∧
      s.reap k resumed = { s with finished := s.finished - k, processor := .statsAsked }) := by
  unfold reap
  split
  · next hres =>
    refine .inr ⟨h hres, ?_⟩
    rw [loopTop_eq (by exact h hres)]
  · refine .inl ⟨_, ?_, rfl⟩
    split <;> rfl

end State

/-! ## What always holds of the flags and the callers -/

structure Flow (s : State) : Prop where
  event_eq : s.resumeEvent = !s.paused
  paused_draining : s.paused = true → s.processor.role = .draining
  trigger_pos : 1 ≤ s.localTriggerStep
  reset_caller : s.reset ≠ .idle → s.trainer = .resetting ∨ s.trainer = .stopped

variable {s : State}

theorem flow_initial (n : Nat) : Flow (.initial n) :=
  ⟨rfl, by rintro ⟨⟩, Nat.le_refl 1, fun h => absurd rfl h⟩

theorem Flow.running (h : Flow s) (hpc : s.processor.role ≠ .draining) : s.paused = false := by
  by_contra hne
  exact hpc (h.paused_draining (by simpa using hne))

theorem Flow.running_of_event (h : Flow s) (he : s.resumeEvent = true) : s.paused = false := by
  have := h.event_eq
  simp_all

theorem Flow.congr {t : State} (h : Flow s) (he : t.resumeEvent = s.resumeEvent)
    (hp : t.paused = s.paused) (hpc : s.paused = true → t.processor.role = .draining)
    (hl : t.localTriggerStep = s.localTriggerStep) (hr : t.reset = s.reset)
    (ht : t.trainer = s.trainer) : Flow t := by
  constructor
  · rw [he, hp]
    exact h.event_eq
  · rw [hp]
    exact hpc
  · rw [hl]
    exact h.trigger_pos
  · rw [hr, ht]
    exact h.reset_caller

theorem Flow.of_running {t : State} (h : Flow s) (hrun : s.paused = false)
    (he : t.resumeEvent = s.resumeEvent) (hp : t.paused = s.paused)
    (hl : t.localTriggerStep = s.localTriggerStep) (hr : t.reset = s.reset)
    (ht : t.trainer = s.trainer) : Flow t :=
  h.congr he hp (fun hpaused => by simp [hrun] at hpaused) hl hr ht

theorem Flow.pauseNow (h : Flow s) : Flow s.pauseNow := by
  obtain ⟨pc, hpc, heq⟩ := s.pauseNow_cases
  rw [heq]
  exact ⟨rfl, fun _ => hpc, h.trigger_pos, h.reset_caller⟩

theorem Flow.lockSubmit (h : Flow s) (hrun : s.paused = false) : Flow s.lockSubmit := by
  rcases State.lockSubmit_cases hrun with ⟨pc, -, heq⟩ | ⟨-, heq⟩
  · rw [heq]
    exact h.of_running hrun rfl rfl rfl rfl rfl
  · rw [heq]
    exact h.of_running hrun rfl rfl rfl rfl rfl

theorem Flow.checkSlot (p : Params) (h : Flow s) (hrun : s.paused = false) :
    Flow (s.checkSlot p) := by
  rcases State.checkSlot_cases p hrun with ⟨pc, -, heq⟩ | ⟨-, heq⟩
  · rw [heq]
    exact h.of_running hrun rfl rfl rfl rfl rfl
  · rw [heq]
    exact h.of_running hrun rfl rfl rfl rfl rfl

theorem Flow.waitSlot (h : Flow s) (hrun : s.paused = false) : Flow s.waitSlot := by
  rcases State.waitSlot_cases hrun with ⟨pc, -, heq⟩ | ⟨-, heq⟩
  · rw [heq]
    exact h.of_running hrun rfl rfl rfl rfl rfl
  · rw [heq]
    exact h.of_running hrun rfl rfl rfl rfl rfl

theorem Flow.getSample (p : Params) (h : Flow s) (hrun : s.paused = false) :
    Flow (s.getSample p) := by
  rcases State.getSample_cases p hrun with ⟨pc, -, heq⟩ | ⟨-, heq⟩ | ⟨pc, -, heq⟩ | heq <;>
  · rw [heq]
    exact h.of_running hrun rfl rfl rfl rfl rfl

theorem Flow.finish (h : Flow s) (hrun : s.paused = false) : Flow s.finish := by
  obtain ⟨pc, -, heq⟩ := s.finish_cases
  rw [heq]
  exact h.of_running hrun rfl rfl rfl rfl rfl

theorem Flow.reap (h : Flow s) (k : Nat) (resumed : Bool)
    (hres : resumed = true → s.resumeEvent = true) : Flow (s.reap k resumed) := by
  rcases State.reap_cases k resumed (fun hr => h.running_of_event (hres hr)) with
    ⟨pc, hpc, heq⟩ | ⟨hrun, heq⟩
  · rw [heq]
    exact h.congr rfl rfl (fun _ => hpc) rfl rfl rfl
  · rw [heq]
    exact h.of_running hrun rfl rfl rfl rfl rfl

theorem State.makeRoom_cases (p : Params) (s : State) : ∃ queue queueEnd dropped, s.makeRoom p =
      { s with queue := queue, queueEnd := queueEnd, droppedSamples := dropped } := by
  unfold State.makeRoom
  split <;> exact ⟨_, _, _, rfl⟩

theorem flow_step (p : Params) (s : State) (a : Action) (h : Flow s)
    (hg : (rollouter p a).guard s) : Flow ((rollouter p a).effect s) := by
  -- a place of the processor outside the drain loop is reached while nothing is paused
  have hrunning : ∀ pc : Processor, s.processor = pc → pc.role ≠ .draining →
      s.paused = false := fun pc hpc hd => h.running (hpc ▸ hd)
  cases a with
  | processorStats =>
    exact h.of_running (hrunning _ hg (by decide)) rfl rfl rfl rfl rfl
  | processorDecide =>
    have hrun := hrunning _ hg (by decide)
    show Flow (if s.shouldPause p s.queueStats then s.pause else s.getSample p)
    split
    · unfold State.pause
      split
      · exact h.pauseNow
      · exact h.of_running hrun rfl rfl rfl rfl rfl
    · exact h.getSample p hrun
  | processorPause => exact h.pauseNow
  | processorDrain resumed =>
    obtain ⟨-, hcond⟩ := hg
    show Flow (if _ then s.reap s.finished resumed else _)
    split
    · apply h.reap
      intro hres
      simpa [hres] using hcond
    · exact h.congr rfl rfl (fun _ => rfl) rfl rfl rfl
  | processorReap resumed =>
    obtain ⟨-, -, hcond⟩ := hg
    exact h.reap _ _ hcond
  | processorResume =>
    have hrun := h.running_of_event hg.2
    show Flow s.loopTop
    rw [State.loopTop_eq hrun]
    exact h.of_running hrun rfl rfl rfl rfl rfl
  | processorGet => exact h.getSample p (hrunning _ hg.1 (by decide))
  | processorSlotLock => exact h.waitSlot (hrunning _ hg.1 (by decide))
  | processorSlotFree =>
    have hrun := hrunning _ hg.1 (by decide)
    exact Flow.checkSlot p (h.of_running hrun rfl rfl rfl rfl rfl) hrun
  | processorResumeSubmit => exact h.lockSubmit (h.running_of_event hg.2)
  | processorSubmit =>
    have hrun := hrunning _ hg.1 (by decide)
    show Flow s.submit
    rw [State.submit_eq hrun]
    exact h.of_running hrun rfl rfl rfl rfl rfl
  | processorFinishLock =>
    have hrun := hrunning _ hg.1 (by decide)
    show Flow (if 0 < s.activeTasks then _ else s.finish)
    split
    · exact h.of_running hrun rfl rfl rfl rfl rfl
    · exact h.finish hrun
  | processorFinishOne =>
    have hrun := hrunning _ hg.1 (by decide)
    exact Flow.finish (h.of_running hrun rfl rfl rfl rfl rfl) hrun
  | processorPutEnd =>
    have hrun := hrunning _ hg (by decide)
    obtain ⟨queue, queueEnd, dropped, heq⟩ := s.makeRoom_cases p
    show Flow { s.makeRoom p with queueEnd := true, processor := .stopped }
    rw [heq]
    exact h.of_running hrun rfl rfl rfl rfl rfl
  | taskPut =>
    obtain ⟨queue, queueEnd, dropped, heq⟩ := s.makeRoom_cases p
    show Flow { s.makeRoom p with
      queue := (s.makeRoom p).queue + 1, putting := s.putting - 1, returning := s.returning + 1 }
    rw [heq]
    exact h.congr rfl rfl h.paused_draining rfl rfl rfl
  | monitorResume =>
    exact ⟨rfl, by rintro ⟨⟩, h.trigger_pos, h.reset_caller⟩
  | trainerGet =>
    show Flow s.getItem
    unfold State.getItem
    split
    · exact h.congr rfl rfl h.paused_draining rfl rfl rfl
    · refine ⟨h.event_eq, h.paused_draining, h.trigger_pos, fun hr => ?_⟩
      have := h.reset_caller hr
      simp [hg.1] at this
  | trainerTrain =>
    show Flow (s.updateLocalStep p)
    unfold State.updateLocalStep
    split
    · exact ⟨h.event_eq, h.paused_draining, Nat.le_add_left 1 _, h.reset_caller⟩
    · refine ⟨h.event_eq, h.paused_draining, Nat.le_refl 1, fun hr => ?_⟩
      have := h.reset_caller hr
      simp [hg.1] at this
  | trainerUpdated =>
    exact ⟨h.event_eq, h.paused_draining, h.trigger_pos, fun _ => .inl rfl⟩
  | trainerLastUpdate =>
    exact ⟨h.event_eq, h.paused_draining, h.trigger_pos, fun _ => .inr rfl⟩
  | resetLock =>
    refine ⟨rfl, by rintro ⟨⟩, h.trigger_pos, fun _ => h.reset_caller ?_⟩
    simp [hg.1]
  | resetSize =>
    refine ⟨h.event_eq, h.paused_draining, h.trigger_pos, fun _ => h.reset_caller ?_⟩
    simp [show s.reset = .sizeAsked from hg]
  | resetAssign =>
    exact ⟨h.event_eq, h.paused_draining, h.trigger_pos, fun hr => absurd rfl hr⟩
  | feedSample | feedEnd | taskGenerated | taskReported | taskReturned | monitorCheck
  | monitorStats | monitorDecide => exact h.congr rfl rfl h.paused_draining rfl rfl rfl

theorem reachable_flow {p : Params} {C : State → Action → Prop} {n : Nat}
    (h : StepSystem.Reachable (rollouter p) C (.initial n) s) : Flow s :=
  h.invariant (flow_initial n) (fun s a hf hg _ => flow_step p s a hf hg)

end Verl.FullyAsync
