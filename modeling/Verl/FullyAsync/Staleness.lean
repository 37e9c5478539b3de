import Verl.FullyAsync.Ledger
import Verl.FullyAsync.Rollouter

/-! # Staleness: the rollouter keeps the ledger

`State.ledger` reads the ledger off a state; every step of the rollouter, the queue and
the trainer is a run of ledger events (`ledger_step`), so what is proved about ledgers
holds of them.

* `not_starved`: as long as every reset counts at most `max_required_samples - round`
  samples that are no longer outstanding, the trainer never waits for a sample that the
  paused rollouter will not produce. -/

namespace Verl.FullyAsync

open StepSystem

/-! ## The ledger of a state -/

/-- What `reset_staleness` has counted so far. -/
def State.counting (s : State) : Counting :=
  match s.reset with
  | .idle | .lockWait => .none
  | .sizeAsked => .tasks s.resetActive
  | .sizeAnswered => .total (s.resetActive + s.resetQueue)

def State.ledger (p : Params) (s : State) : Ledger where
  counter := s.stalenessSamples
  admitted := s.processor.role = .getting
  held := s.processor.inHand
  unput := s.unput
  queued := s.queue
  ended := s.processor.role = .ending ∨ s.processor.role = .stopped
  endHeld := if s.processor.role = .ending then 1 else 0
  endQueued := s.queueEnd.toNat
  dropped := s.droppedSamples
  counting := s.counting
  needed := s.need p
  collecting := s.trainer = .collecting

/-- The condition of runs in which `reset_staleness` assigns the counter only where `Q`
holds. -/
def AtReset (Q : State → Prop) (s : State) (a : Action) : Prop := a = .resetAssign → Q s

instance (Q : State → Prop) [DecidablePred Q] (s : State) (a : Action) :
    Decidable (AtReset Q s a) := inferInstanceAs (Decidable (_ → _))

variable {s : State} (p : Params)

theorem counting_of_lockAtOnce (h : s.lockAtOnce) : s.counting = .none := by
  simp [State.counting, h.1]

theorem counting_of_lockFree (h : s.lockFree) : s.counting = .none := by
  obtain ⟨-, hreset⟩ := h
  unfold State.counting
  cases hr : s.reset <;> simp_all [Reset.holdsLock]

/-! ## Needs of the trainer -/

theorem need_le_round {s : State} (h : 1 ≤ s.localTriggerStep) :
    s.need p ≤ p.round := by
  unfold State.need Params.round
  have hle : (p.triggerParameterSyncStep - s.localTriggerStep) * p.requiredSamples
      ≤ (p.triggerParameterSyncStep - 1) * p.requiredSamples :=
    Nat.mul_le_mul_right _ (by omega)
  have hround : p.triggerParameterSyncStep * p.requiredSamples
      = (p.triggerParameterSyncStep - 1) * p.requiredSamples + p.requiredSamples := by
    rw [Nat.sub_mul, Nat.one_mul, Nat.sub_add_cancel (Nat.le_mul_of_pos_left _ p.trigger_pos)]
  omega

theorem need_next {s : State} (hlt : s.localTriggerStep < p.triggerParameterSyncStep)
    (hfull : s.queueSamples = p.requiredSamples) :
    (p.triggerParameterSyncStep - (s.localTriggerStep + 1)) * p.requiredSamples
      + (p.requiredSamples - 0) = s.need p := by
  unfold State.need
  have hsplit : p.triggerParameterSyncStep - s.localTriggerStep
      = p.triggerParameterSyncStep - (s.localTriggerStep + 1) + 1 := by omega
  rw [hsplit, Nat.add_mul]
  omega

theorem need_round :
    (p.triggerParameterSyncStep - 1) * p.requiredSamples + (p.requiredSamples - 0)
      = p.round := by
  unfold Params.round
  rw [Nat.sub_mul, Nat.one_mul, Nat.sub_zero,
    Nat.sub_add_cancel (Nat.le_mul_of_pos_left _ p.trigger_pos)]

/-! ## Every step is a run of ledger events -/

section Refinement

variable (p : Params) {Q : Ledger → Prop}

/-- The runs of the ledger that the steps of the rollouter are compared with. -/
abbrev LedgerRun (p : Params) (Q : Ledger → Prop) : Ledger → Ledger → Prop :=
  Reachable (ledger p.maxRequiredSamples p.round) (AtAssign Q)

theorem LedgerRun.still {l m : Ledger} (h : m = l) : LedgerRun p Q l m := h ▸ .init

theorem submit_ledger {s t : State} (hrole : s.processor.role = .holding)
    (hcases : (∃ pc : Processor, pc.role = .holding ∧ t = { s with processor := pc }) ∨
      (s.lockAtOnce ∧
        t = { s with generating := s.generating + 1, processor := .statsAsked })) :
    LedgerRun p Q (s.ledger p) (t.ledger p) := by
  rcases hcases with ⟨pc, hpc, rfl⟩ | ⟨hlock, rfl⟩
  · apply LedgerRun.still
    simp [State.ledger, State.unput, State.need, State.counting, Processor.inHand, hrole, hpc]
  · refine .single .submit ⟨?_, counting_of_lockAtOnce hlock⟩ trivial ?_
    · simp [State.ledger, Processor.inHand, hrole]
    · simp [ledger, State.ledger, State.unput, State.need, State.counting, Processor.inHand,
        hrole]
      omega

variable {s : State} {P : State → Prop}

theorem getSample_ledger (hrole : s.processor.role = .getting)
    (hrun : s.paused = false) : LedgerRun p Q (s.ledger p) ((s.getSample p).ledger p) := by
  have hadmitted : (s.ledger p).admitted = true := by simp [State.ledger, hrole]
  rcases State.getSample_cases p hrun with ⟨pc, hpc, heq⟩ | ⟨hlock, heq⟩ | ⟨pc, hpc, heq⟩ | heq
  · rw [heq]
    refine .single .take hadmitted trivial ?_
    simp [ledger, State.ledger, State.unput, State.need, State.counting, Processor.inHand,
      hrole, hpc]
  · rw [heq]
    refine Reachable.trans (.single .take hadmitted trivial rfl)
      (.single .submit ⟨?_, counting_of_lockAtOnce hlock⟩ trivial ?_)
    · exact Nat.succ_pos _
    · simp [ledger, State.ledger, State.unput, State.need, State.counting, Processor.inHand,
        hrole]
      omega
  · rw [heq]
    refine .single .takeEnd hadmitted trivial ?_
    simp [ledger, State.ledger, State.unput, State.need, State.counting, Processor.inHand,
      hrole, hpc]
  · rw [heq]
    apply LedgerRun.still
    simp [State.ledger, State.unput, State.need, State.counting, Processor.inHand, hrole]

theorem finish_ledger (hrole : s.processor.role = .ending) :
    s.finish.ledger p = s.ledger p := by
  obtain ⟨pc, hpc, heq⟩ := s.finish_cases
  rw [heq]
  simp [State.ledger, State.unput, State.need, State.counting, Processor.inHand, hrole, hpc]

theorem reap_ledger (k : Nat) (resumed : Bool)
    (hrole : s.processor.role = .draining) (hres : resumed = true → s.paused = false) :
    (s.reap k resumed).ledger p = s.ledger p := by
  rcases State.reap_cases k resumed hres with ⟨pc, hpc, heq⟩ | ⟨-, heq⟩
  · rw [heq]
    simp [State.ledger, State.unput, State.need, State.counting, Processor.inHand, hrole, hpc]
  · rw [heq]
    simp [State.ledger, State.unput, State.need, State.counting, Processor.inHand, hrole]

theorem pauseNow_ledger (hrole : s.processor.role = .between) :
    s.pauseNow.ledger p = s.ledger p := by
  obtain ⟨pc, hpc, heq⟩ := s.pauseNow_cases
  rw [heq]
  simp [State.ledger, State.unput, State.need, State.counting, Processor.inHand, hrole, hpc]

theorem makeRoom_ledger (s : State) :
    (s.makeRoom p).ledger p = (s.ledger p).makeRoom p.maxRequiredSamples := by
  have hsize : (s.ledger p).queueSize = s.queueSize := rfl
  unfold State.makeRoom Ledger.makeRoom Params.maxQueueSize
  rw [hsize]
  split
  · simp only [State.ledger, State.unput, State.need, State.counting]
    by_cases hq : 0 < s.queue <;> simp [hq]
  · rfl

theorem ledger_congr {s t : State} (hc : t.stalenessSamples = s.stalenessSamples)
    (hpc : t.processor.role = s.processor.role) (hu : t.unput = s.unput)
    (hq : t.queue = s.queue) (he : t.queueEnd = s.queueEnd)
    (hd : t.droppedSamples = s.droppedSamples) (hr : t.counting = s.counting)
    (hn : t.need p = s.need p) (ht : t.trainer = .collecting ↔ s.trainer = .collecting) :
    t.ledger p = s.ledger p := by
  simp [State.ledger, Processor.inHand, hc, hpc, hu, hq, he, hd, hr, hn, ht]

theorem putEnd_ledger (hending : s.processor.role = .ending) :
    LedgerRun p Q (s.ledger p) (((rollouter p .processorPutEnd).effect s).ledger p) := by
  refine .single .putEnd ⟨?_, ?_⟩ trivial ?_
  · simp [State.ledger, hending]
  · simp [State.ledger, hending]
  · show { (s.ledger p).makeRoom p.maxRequiredSamples with
      endQueued := 1, endHeld := (s.ledger p).endHeld - 1 } = _
    rw [← makeRoom_ledger]
    have hpc : (s.makeRoom p).processor.role = .ending := by
      obtain ⟨queue, queueEnd, dropped, heq⟩ := s.makeRoom_cases p
      rw [heq]
      exact hending
    have hstopped : (((rollouter p .processorPutEnd).effect s).processor).role = .stopped := rfl
    unfold State.ledger
    simp only [hpc, Ledger.mk.injEq, Processor.inHand, hending]
    exact ⟨rfl, rfl, rfl, rfl, rfl, rfl, rfl, rfl, rfl, rfl, rfl, rfl⟩

theorem put_ledger (hpos : 0 < s.putting) :
    LedgerRun p Q (s.ledger p) (((rollouter p .taskPut).effect s).ledger p) := by
  refine .single .put ?_ trivial ?_
  · show 0 < s.generating + s.reporting + s.putting
    omega
  · show { (s.ledger p).makeRoom p.maxRequiredSamples with
      queued := ((s.ledger p).makeRoom p.maxRequiredSamples).queued + 1
      unput := s.unput - 1 } = _
    rw [← makeRoom_ledger]
    simp only [State.ledger, Ledger.mk.injEq]
    refine ⟨rfl, rfl, rfl, ?_, rfl, rfl, rfl, rfl, rfl, rfl, rfl, rfl⟩
    show s.unput - 1 = (s.makeRoom p).generating + (s.makeRoom p).reporting + (s.putting - 1)
    obtain ⟨queue, queueEnd, dropped, heq⟩ := s.makeRoom_cases p
    rw [heq]
    show s.generating + s.reporting + s.putting - 1 =
      s.generating + s.reporting + (s.putting - 1)
    omega

theorem getItem_ledger (htrainer : s.trainer = .collecting)
    (hlt : s.queueSamples < p.requiredSamples) :
    LedgerRun p Q (s.ledger p) (s.getItem.ledger p) := by
  unfold State.getItem
  split
  · next hq =>
    refine .single .get ⟨?_, hq, ?_⟩ trivial ?_
    · simp [State.ledger, htrainer]
    · show 0 < _ + (p.requiredSamples - s.queueSamples)
      omega
    · simp [ledger, State.ledger, State.unput, State.need, State.counting]
      omega
  · next hq =>
    refine .single .getEnd (Nat.eq_zero_of_not_pos hq) trivial ?_
    simp [ledger, State.ledger, State.unput, State.need, State.counting]

theorem ledger_step (hP : ∀ s, P s → Q (s.ledger p)) (s : State) (a : Action)
    (hf : Flow s) (hg : (rollouter p a).guard s) (hc : AtReset P s a) :
    LedgerRun p Q (s.ledger p) (((rollouter p a).effect s).ledger p) := by
  have hrole : ∀ pc : Processor, s.processor = pc → s.processor.role = pc.role :=
    fun pc hpc => by rw [hpc]
  have hrun : ∀ pc : Processor, s.processor = pc → pc.role ≠ .draining → s.paused = false :=
    fun pc hpc hd => hf.running (hpc ▸ hd)
  cases a with
  | processorStats =>
    exact .still p (ledger_congr p rfl (hrole _ hg).symm rfl rfl rfl rfl rfl rfl .rfl)
  | processorDecide =>
    have hbetween : s.processor.role = .between := hrole _ hg
    show LedgerRun p Q _ (State.ledger p
      (if s.shouldPause p s.queueStats then s.pause else s.getSample p))
    split
    · unfold State.pause
      split
      · exact .still p (pauseNow_ledger p hbetween)
      · exact .still p (ledger_congr p rfl hbetween.symm rfl rfl rfl rfl rfl rfl .rfl)
    · next hgo =>
      have hlt : s.stalenessSamples < p.maxRequiredSamples := by
        simp only [State.shouldPause, Bool.or_eq_true, decide_eq_true_eq, not_or] at hgo
        omega
      rw [← State.getSample_getting]
      refine Reachable.trans (.single .allow ⟨hlt, ?_, ?_⟩ trivial ?_)
        (getSample_ledger p (s := { s with processor := .getting }) rfl
          (hrun _ hg (by decide)))
      · simp [State.ledger, Processor.inHand, hbetween]
      · simp [State.ledger, hbetween]
      · simp [ledger, State.ledger, State.unput, State.need, State.counting, Processor.inHand,
          hbetween]
  | processorPause => exact .still p (pauseNow_ledger p (hrole _ hg.1))
  | processorDrain resumed =>
    obtain ⟨hpc, hcond⟩ := hg
    show LedgerRun p Q _ (State.ledger p (if _ then s.reap s.finished resumed else _))
    split
    · refine .still p (reap_ledger p _ _ (hrole _ hpc) fun hres => ?_)
      exact hf.running_of_event (by simpa [hres] using hcond)
    · exact .still p (ledger_congr p rfl (hrole _ hpc).symm rfl rfl rfl rfl rfl rfl .rfl)
  | processorReap resumed =>
    obtain ⟨hpc, -, hcond⟩ := hg
    exact .still p (reap_ledger p _ _ (hrole _ hpc) fun hres => hf.running_of_event (hcond hres))
  | processorResume =>
    have hdraining : s.processor.role = .draining := hrole _ hg.1
    show LedgerRun p Q _ (s.loopTop.ledger p)
    rw [State.loopTop_eq (hf.running_of_event hg.2)]
    apply LedgerRun.still
    simp [State.ledger, State.unput, State.need, State.counting, Processor.inHand, hdraining]
  | processorGet => exact getSample_ledger p (hrole _ hg.1) (hrun _ hg.1 (by decide))
  | processorSlotLock =>
    exact submit_ledger p (hrole _ hg.1) (State.waitSlot_cases (hrun _ hg.1 (by decide)))
  | processorSlotFree =>
    exact submit_ledger p (s := { s with finished := 0 }) (hrole _ hg.1)
      (State.checkSlot_cases p (hrun _ hg.1 (by decide)))
  | processorResumeSubmit =>
    exact submit_ledger p (hrole _ hg.1) (State.lockSubmit_cases (hf.running_of_event hg.2))
  | processorSubmit =>
    have hholding : s.processor.role = .holding := hrole _ hg.1
    show LedgerRun p Q _ (s.submit.ledger p)
    rw [State.submit_eq (hrun _ hg.1 (by decide))]
    refine .single .submit ⟨?_, counting_of_lockFree hg.2⟩ trivial ?_
    · simp [State.ledger, Processor.inHand, hholding]
    · simp [ledger, State.ledger, State.unput, State.need, State.counting, Processor.inHand,
        hholding]
      omega
  | processorFinishLock =>
    show LedgerRun p Q _ (State.ledger p (if 0 < s.activeTasks then _ else s.finish))
    split
    · exact .still p (ledger_congr p rfl (hrole _ hg.1).symm rfl rfl rfl rfl rfl rfl .rfl)
    · exact .still p (finish_ledger p (hrole _ hg.1))
  | processorFinishOne =>
    exact .still p (finish_ledger p (s := { s with finished := 0 }) (hrole _ hg.1))
  | processorPutEnd => exact putEnd_ledger p (hrole _ hg)
  | taskGenerated =>
    have hpos : 0 < s.generating := hg
    refine .still p (ledger_congr p rfl rfl ?_ rfl rfl rfl rfl rfl .rfl)
    show s.generating - 1 + (s.reporting + 1) + s.putting = s.unput
    unfold State.unput
    omega
  | taskReported =>
    have hpos : 0 < s.reporting := hg
    refine .still p (ledger_congr p rfl rfl ?_ rfl rfl rfl rfl rfl .rfl)
    show s.generating + (s.reporting - 1) + (s.putting + 1) = s.unput
    unfold State.unput
    omega
  | taskPut => exact put_ledger p hg
  | trainerGet => exact getItem_ledger p hg.1 hg.2.1
  | trainerTrain =>
    obtain ⟨htrainer, hfull⟩ := hg
    show LedgerRun p Q _ (State.ledger p (s.updateLocalStep p))
    unfold State.updateLocalStep
    split
    · next hlt =>
      exact .still p (ledger_congr p rfl rfl rfl rfl rfl rfl rfl (need_next p hlt hfull) .rfl)
    · refine .single .leave trivial trivial ?_
      simp [ledger, State.ledger, State.unput, State.need, State.counting, ← need_round p]
  | trainerUpdated =>
    have hidle : s.reset = .idle := by
      by_contra hne
      have := hf.reset_caller hne
      simp [show s.trainer = .updating from hg] at this
    refine .still p (ledger_congr p rfl rfl rfl rfl rfl rfl ?_ rfl ?_)
    · simp [State.counting, rollouter, hidle]
    · simp [rollouter, show s.trainer = .updating from hg]
  | trainerLastUpdate =>
    have hidle : s.reset = .idle := by
      by_contra hne
      have := hf.reset_caller hne
      simp [hg.1] at this
    refine .still p (ledger_congr p rfl rfl rfl rfl rfl rfl ?_ rfl ?_)
    · simp [State.counting, rollouter, hidle]
    · simp [rollouter, hg.1]
  | resetLock =>
    refine .single (.countTasks s.activeTasks) ?_ trivial ?_
    · show s.unput ≤ s.unput + s.returning + s.finished
      omega
    · rfl
  | resetSize =>
    have hreset : s.reset = .sizeAsked := hg
    refine .single (.countQueue s.resetActive) ?_ trivial ?_
    · simp [ledger, State.ledger, State.counting, hreset]
    · rfl
  | resetAssign =>
    have hreset : s.reset = .sizeAnswered := hg
    refine .single (.assign (s.resetActive + s.resetQueue) (s.need p)
      (decide (((rollouter p .resetAssign).effect s).trainer = .collecting))) ?_ (hP s (hc rfl)) ?_
    · exact ⟨by simp [State.ledger, State.counting, hreset], need_le_round p hf.trigger_pos⟩
    · rfl
  | feedSample | feedEnd | taskReturned | monitorCheck | monitorStats | monitorDecide
  | monitorResume => exact .still p (ledger_congr p rfl rfl rfl rfl rfl rfl rfl rfl .rfl)

theorem ledger_reachable (hP : ∀ s, P s → Q (s.ledger p)) {n : Nat} {s : State}
    (h : Reachable (rollouter p) (AtReset P) (.initial n) s) :
    LedgerRun p Q ((State.initial n).ledger p) (s.ledger p) :=
  h.simulate (State.ledger p) fun s a hr hg hc => ledger_step p hP s a (reachable_flow hr) hg hc

end Refinement

/-! ## Top theorems -/

/-- The processor has no sample in hand. -/
def NoneInHand (s : State) : Prop := s.processor.inHand = 0

instance : DecidablePred NoneInHand := fun _ => inferInstanceAs (Decidable (_ = _))

variable (p : Params) (n : Nat)

theorem covered_initial :
    ((State.initial n).ledger p).Covered p.maxRequiredSamples := by
  constructor
  case total_le => exact Nat.zero_le _
  case admitted_lt => rintro ⟨⟩
  case admitted_unheld => rintro ⟨⟩
  case total_le_counter => exact fun _ => Nat.le_refl 0
  case no_end => exact fun _ => ⟨rfl, rfl⟩
  case tasks => rintro a ⟨⟩
  case counted => rintro c ⟨⟩
  case dropped_eq => rfl

/-- In every run that resets the staleness only while the processor has no sample in hand,
at most `max_required_samples` samples are outstanding and `put_sample` drops none. -/
theorem outstanding_le (p : Params) (n : Nat) (s : State)
    (h : Reachable (rollouter p) (AtReset NoneInHand) (.initial n) s) :
    s.outstanding ≤ p.maxRequiredSamples ∧ s.droppedSamples = 0 := by
  have hrun : LedgerRun p Ledger.Unheld _ (s.ledger p) := ledger_reachable p (fun _ h => h) h
  have hcovered := hrun.invariant (covered_initial p n) Ledger.covered_step
  have htotal := hcovered.total_le
  refine ⟨?_, hcovered.dropped_eq⟩
  have hout : (s.ledger p).outstanding = s.outstanding := rfl
  unfold Ledger.total at htotal
  omega

/-- `required_samples = 1`, `trigger_parameter_sync_step = 1`, `staleness_threshold = 1` and
one replica. -/
def pairParams : Params where
  requiredSamples := 1
  triggerParameterSyncStep := 1
  maxRequiredSamples := 2
  maxConcurrentSamples := 2
  required_pos := Nat.one_pos
  trigger_pos := Nat.one_pos
  round_le := by decide
  concurrent_pos := Nat.two_pos

example : setMaxRequiredSamples 1 1 1 1 (by decide) (by decide) (by decide) (by decide)
    = pairParams := by
  norm_num [setMaxRequiredSamples, maxRequiredSamples, pairParams]
  rfl

/-- A task from the start of its generation to the answer of the queue. -/
def oneTask : List Action := [.taskGenerated, .taskReported, .taskPut, .taskReturned]

/-- The processor takes one sample, or pauses. -/
def oneTurn : List Action := [.processorStats, .processorDecide]

/-- Two samples are generated and reaped, the trainer takes one and resets the staleness. -/
def firstRound : List Action :=
  List.replicate 5 .feedSample ++ oneTurn ++ oneTurn ++ oneTurn
    ++ oneTask ++ [.processorDrain false] ++ oneTask ++ [.processorDrain false]
    ++ [.trainerGet, .trainerTrain, .trainerUpdated, .resetLock, .resetSize, .resetAssign,
      .processorResume]

theorem outstanding_le_firstRound :
    (run (rollouter pairParams) (.initial 5) firstRound).outstanding ≤ 2 ∧
    (run (rollouter pairParams) (.initial 5) firstRound).droppedSamples = 0 :=
  outstanding_le pairParams 5 _ (reachable_run (by decide))

/-- The trainer takes the other sample and resets again; while `reset_staleness` awaits the
queue size the processor takes a third sample and waits for the lock.  The counter
becomes 0, and two more samples are taken. -/
def popDuringReset : List Action :=
  firstRound
    ++ [.trainerGet, .trainerTrain, .trainerUpdated, .resetLock, .resetSize]
    ++ oneTurn ++ [.resetAssign, .processorSubmit] ++ oneTurn ++ oneTurn

/-- The first two of the three are put, the last one gets their slot and is put. -/
def putAll : List Action :=
  [.taskGenerated, .taskGenerated, .taskReported, .taskReported, .taskPut, .taskPut,
    .taskReturned, .processorSlotFree, .taskGenerated, .taskReported, .taskPut]

theorem outstanding_popDuringReset : (Reachable (rollouter pairParams) anyStep (.initial 5)
      (run (rollouter pairParams) (.initial 5) popDuringReset) ∧
    pairParams.maxRequiredSamples <
      (run (rollouter pairParams) (.initial 5) popDuringReset).outstanding) ∧
    (Reachable (rollouter pairParams) anyStep (.initial 5)
      (run (rollouter pairParams) (.initial 5) (popDuringReset ++ putAll)) ∧
    (run (rollouter pairParams) (.initial 5) (popDuringReset ++ putAll)).droppedSamples = 1) :=
  ⟨⟨reachable_run (by decide), by decide⟩, reachable_run (by decide), by decide⟩

/-- The trainer waits on an empty queue for a sample it needs before its next
synchronisation, the rollouter is paused for staleness with no task that could still put a
sample, no reset or resume is on its way, and there are samples left to feed. -/
structure Starved (p : Params) (s : State) : Prop where
  collecting : s.trainer = .collecting
  needs : s.queueSamples < p.requiredSamples
  queue_empty : s.queueSize = 0
  paused : s.paused = true
  stale : p.maxRequiredSamples ≤ s.stalenessSamples
  no_task : s.unput = 0
  no_reset : s.reset = .idle
  no_resume : s.resumeEvent = false ∧ s.monitor ≠ .lockWait
  feed_left : 0 < s.feedLeft + s.pendingSamples

/-- The staleness that a reset is about to assign counts at most
`max_required_samples - round` samples that are no longer outstanding. -/
def CountsWithinSlack (p : Params) (s : State) : Prop :=
  s.resetActive + s.resetQueue + p.round ≤ p.maxRequiredSamples + s.outstanding

instance (p : Params) : DecidablePred (CountsWithinSlack p) :=
  fun _ => inferInstanceAs (Decidable (_ ≤ _))

theorem supplied_initial :
    ((State.initial n).ledger p).Supplied p.maxRequiredSamples p.round := by
  have hneed : (State.initial n).need p ≤ p.round := need_le_round p (Nat.le_refl 1)
  have hround := p.round_le
  refine ⟨hneed, by rintro ⟨⟩, fun _ => rfl, fun _ _ => .inl ?_⟩
  show 0 + (State.initial n).need p ≤ p.maxRequiredSamples + 0
  unfold Params.round at hneed
  omega

theorem withinSlack_ledger (s : State) (h : CountsWithinSlack p s) :
    (s.ledger p).WithinSlack p.maxRequiredSamples p.round := by
  intro c hc
  have hcount : s.counting = .total c := hc
  unfold State.counting at hcount
  unfold CountsWithinSlack at h
  have hout : (s.ledger p).outstanding = s.outstanding := rfl
  cases hreset : s.reset with
  | sizeAnswered =>
    simp only [hreset, Counting.total.injEq] at hcount
    omega
  | idle | lockWait | sizeAsked => simp [hreset] at hcount

/-- In every run whose resets count within the slack, the trainer is never starved. -/
theorem not_starved (p : Params) (n : Nat) (s : State)
    (h : Reachable (rollouter p) (AtReset (CountsWithinSlack p)) (.initial n) s) :
    ¬ Starved p s := by
  intro hst
  have hflow : Flow s := reachable_flow h
  have hrun : LedgerRun p (Ledger.WithinSlack p.maxRequiredSamples p.round) _ (s.ledger p) :=
    ledger_reachable p (withinSlack_ledger p) h
  have hsupplied := hrun.invariant (supplied_initial p n) (Ledger.supplied_step p.round_le)
  -- a paused processor is in its drain loop, with nothing in hand
  have hrole := hflow.paused_draining hst.paused
  have hlt : (s.ledger p).counter < p.maxRequiredSamples := by
    apply hsupplied.counter_lt
    · simp [State.ledger, hrole]
    · simp [State.ledger, hst.collecting]
    · have := hst.needs
      show 0 < _ + (p.requiredSamples - s.queueSamples)
      omega
    · have hqueue := hst.queue_empty
      unfold State.queueSize at hqueue
      simp only [Ledger.outstanding, State.ledger, hst.no_task, Processor.inHand, hrole]
      simp
      omega
  have hstale := hst.stale
  exact Nat.not_lt.mpr hstale hlt

/-- `required_samples = 2`, `trigger_parameter_sync_step = 1`, `staleness_threshold = 0.5` and
one replica. -/
def halfParams : Params where
  requiredSamples := 2
  triggerParameterSyncStep := 1
  maxRequiredSamples := 3
  maxConcurrentSamples := 3
  required_pos := Nat.two_pos
  trigger_pos := Nat.one_pos
  round_le := by decide
  concurrent_pos := by decide

example : setMaxRequiredSamples 2 1 1 (1 / 2) (by decide) (by decide) (by decide) (by norm_num)
    = halfParams := by
  norm_num [setMaxRequiredSamples, maxRequiredSamples, halfParams]
  rfl

/-- Two samples are taken and generated; the processor waits for the feed, so that nobody
reaps the tasks. -/
def slowFeed : List Action :=
  [.feedSample, .feedSample] ++ oneTurn ++ oneTurn ++ oneTurn ++ oneTask ++ oneTask

/-- The trainer takes both samples. -/
def wholeRound : List Action :=
  [.trainerGet, .trainerGet, .trainerTrain, .trainerUpdated]

def resetAll : List Action := [.resetLock, .resetSize, .resetAssign]

/-- As `slowFeed`, but a third sample follows and the processor pauses and reaps. -/
def quickFeed : List Action :=
  [.feedSample, .feedSample, .feedSample] ++ oneTurn ++ oneTurn ++ oneTurn ++ oneTurn
    ++ oneTask ++ oneTask ++ [.processorDrain false]

theorem not_starved_quickFeed : ¬ Starved halfParams (run (rollouter halfParams) (.initial 4)
      (quickFeed ++ wholeRound ++ resetAll)) :=
  not_starved halfParams 4 _ (reachable_run (by decide))

/-- The reset has counted the two finished tasks; one sample later the counter is at its
limit. -/
def lastSample : List Action :=
  [.feedSample, .feedSample, .processorGet] ++ oneTurn ++ oneTask
    ++ [.processorDrain false, .trainerGet]

theorem starved_slowFeed : Reachable (rollouter halfParams) anyStep (.initial 4)
      (run (rollouter halfParams) (.initial 4)
        (slowFeed ++ wholeRound ++ resetAll ++ lastSample)) ∧
    Starved halfParams (run (rollouter halfParams) (.initial 4)
      (slowFeed ++ wholeRound ++ resetAll ++ lastSample)) :=
  ⟨reachable_run (by decide), by constructor <;> decide⟩

end Verl.FullyAsync
