import Verl.Lib.StepSystem

/-! # The message queue between rollouter and trainer

`MessageQueue` is an actor whose methods run under one `asyncio.Lock`; `get_sample` waits
on a condition over that lock, so it is one step when it is called and one for each time
it is woken.  A sample is kept with the number of its put, and the histories record where
every sample has gone.

* `messageQueue capacity`: the step system of the calls.
* `Conserves`: what holds in every state; `conserves_step` is its step lemma. -/

namespace Verl.MessageQueue

open StepSystem List

variable {α : Type}

/-! ## Algorithm -/

/-- A call of `get_sample`; a result is the sample with the queue size after it. -/
inductive GetCall (α : Type)
  | idle
  | waiting (notified : Bool)
  | returned (result : Option ((Nat × α) × Nat))

structure State (α : Type) where
  queue : List (Nat × α)
  running : Bool
  totalProduced : Nat
  totalConsumed : Nat
  droppedSamples : Nat
  gets : Nat → GetCall α
  /-- History: the samples put, delivered, dropped by a put and removed by a clear. -/
  produced : List (Nat × α)
  delivered : List (Nat × α)
  evicted : List (Nat × α)
  cleared : List (Nat × α)

def initial : State α where
  queue := []
  running := true
  totalProduced := 0
  totalConsumed := 0
  droppedSamples := 0
  gets := fun _ => .idle
  produced := []
  delivered := []
  evicted := []
  cleared := []

def GetCall.notify : GetCall α → GetCall α
  | .waiting _ => .waiting true
  | call => call

namespace State

/-- `_consumer_condition.notify_all()`. -/
def notifyAll (s : State α) : State α := { s with gets := fun i => (s.gets i).notify }

/-- `self.queue.append(sample)`. -/
def append (s : State α) (sample : α) : State α :=
  { s with
    queue := s.queue ++ [(s.totalProduced, sample)]
    totalProduced := s.totalProduced + 1
    produced := s.produced ++ [(s.totalProduced, sample)] }

/-- `put_sample`; `popleft` of an empty queue raises. -/
def putSample (capacity : Nat) (s : State α) (sample : α) : State α :=
  if capacity ≤ s.queue.length then
    match s.queue with
    | [] => s
    | oldest :: rest =>
      ({ s with
        queue := rest
        droppedSamples := s.droppedSamples + 1
        evicted := s.evicted ++ [oldest] }.append sample).notifyAll
  else (s.append sample).notifyAll

def setGet (s : State α) (i : Nat) (call : GetCall α) : State α :=
  { s with gets := Function.update s.gets i call }

/-- `get_sample` under the lock, up to its return or its next wait. -/
def getSample (s : State α) (i : Nat) : State α :=
  match s.queue with
  | [] =>
    if s.running then s.setGet i (.waiting false)
    else s.setGet i (.returned none)
  | data :: rest =>
    { s with
      queue := rest
      totalConsumed := s.totalConsumed + 1
      delivered := s.delivered ++ [data] }.setGet i (.returned (some (data, rest.length)))

def clearQueue (s : State α) : State α :=
  { s with queue := [], cleared := s.cleared ++ s.queue }

def shutdown (s : State α) : State α := { s with running := false }.notifyAll

end State

def GetCall.isIdle : GetCall α → Bool
  | .idle => true
  | _ => false

def GetCall.isNotified : GetCall α → Bool
  | .waiting notified => notified
  | _ => false

inductive Action (α : Type)
  | putSample (sample : α)
  /-- The call `i` of `get_sample` takes the lock. -/
  | getSample (i : Nat)
  /-- The call `i` is woken and has the lock again. -/
  | wake (i : Nat)
  | clearQueue
  | shutdown

def messageQueue (capacity : Nat) : StepSystem (State α) (Action α)
  | .putSample sample => {
      guard := fun _ => True
      effect := fun s => s.putSample capacity sample }
  | .getSample i => {
      guard := fun s => (s.gets i).isIdle = true
      effect := fun s => s.getSample i }
  | .wake i => {
      guard := fun s => (s.gets i).isNotified = true
      effect := fun s => s.getSample i }
  | .clearQueue => {
      guard := fun _ => True
      effect := State.clearQueue }
  | .shutdown => {
      guard := fun _ => True
      effect := State.shutdown }

/-! ## What always holds -/

/-- Where the samples are, and the counters. -/
structure Conserves (s : State α) : Prop where
  numbered : s.produced.map Prod.fst = List.range s.totalProduced
  /-- Delivered in the order of the puts, and before everything that is queued. -/
  ordered : (s.delivered ++ s.queue).Sublist s.produced
  placed : ∀ item ∈ s.produced,
    item ∈ s.delivered ∨ item ∈ s.queue ∨ item ∈ s.evicted ∨ item ∈ s.cleared
  consumed : s.totalConsumed = s.delivered.length
  dropped : s.droppedSamples = s.evicted.length
  accounting : s.totalProduced =
    s.totalConsumed + s.droppedSamples + s.cleared.length + s.queue.length

variable {s : State α}

theorem conserves_initial : Conserves (initial : State α) where
  numbered := rfl
  ordered := Sublist.refl _
  placed := by
    intro item h
    cases h
  consumed := rfl
  dropped := rfl
  accounting := rfl

theorem Conserves.congr {t : State α} (h : Conserves s) (hqueue : t.queue = s.queue)
    (hproduced : t.totalProduced = s.totalProduced) (hconsumed : t.totalConsumed = s.totalConsumed)
    (hdropped : t.droppedSamples = s.droppedSamples) (hput : t.produced = s.produced)
    (hdelivered : t.delivered = s.delivered) (hevicted : t.evicted = s.evicted)
    (hcleared : t.cleared = s.cleared) : Conserves t where
  numbered := by rw [hput, hproduced]; exact h.numbered
  ordered := by rw [hdelivered, hqueue, hput]; exact h.ordered
  placed := by rw [hput, hdelivered, hqueue, hevicted, hcleared]; exact h.placed
  consumed := by rw [hconsumed, hdelivered]; exact h.consumed
  dropped := by rw [hdropped, hevicted]; exact h.dropped
  accounting := by rw [hproduced, hconsumed, hdropped, hcleared, hqueue]; exact h.accounting

theorem Conserves.notifyAll (h : Conserves s) : Conserves s.notifyAll :=
  h.congr rfl rfl rfl rfl rfl rfl rfl rfl

theorem Conserves.setGet (h : Conserves s) (i : Nat) (call : GetCall α) :
    Conserves (s.setGet i call) :=
  h.congr rfl rfl rfl rfl rfl rfl rfl rfl

theorem Conserves.append (h : Conserves s) (sample : α) : Conserves (s.append sample) where
  numbered := by
    show (s.produced ++ [(s.totalProduced, sample)]).map Prod.fst = range (s.totalProduced + 1)
    rw [map_append, h.numbered, range_succ]
    rfl
  ordered := by
    show (s.delivered ++ (s.queue ++ [(s.totalProduced, sample)])).Sublist _
    rw [← append_assoc]
    exact h.ordered.append (Sublist.refl _)
  placed := by
    intro item hitem
    rcases mem_append.mp hitem with hitem | hitem
    · rcases h.placed item hitem with hp | hp | hp
      · exact .inl hp
      · exact .inr (.inl (mem_append_left _ hp))
      · exact .inr (.inr hp)
    · exact .inr (.inl (mem_append_right _ hitem))
  consumed := h.consumed
  dropped := h.dropped
  accounting := by
    have hcount := h.accounting
    show s.totalProduced + 1 = s.totalConsumed + s.droppedSamples + s.cleared.length +
      (s.queue ++ [(s.totalProduced, sample)]).length
    rw [length_append, length_singleton]
    omega

theorem Conserves.evict (h : Conserves s) {oldest : Nat × α}
    {rest : List (Nat × α)} (hqueue : s.queue = oldest :: rest) :
    Conserves { s with
      queue := rest
      droppedSamples := s.droppedSamples + 1
      evicted := s.evicted ++ [oldest] } where
  numbered := h.numbered
  ordered := by
    have hordered := h.ordered
    rw [hqueue] at hordered
    exact ((Sublist.refl _).append (sublist_cons_self _ _)).trans hordered
  placed := by
    intro item hitem
    rcases h.placed item hitem with hp | hp | hp | hp
    · exact .inl hp
    · grind
    · exact .inr (.inr (.inl (mem_append_left _ hp)))
    · exact .inr (.inr (.inr hp))
  consumed := h.consumed
  dropped := by simp [length_append, length_singleton, h.dropped]
  accounting := by
    have hcount := h.accounting
    rw [hqueue, length_cons] at hcount
    show s.totalProduced = s.totalConsumed + (s.droppedSamples + 1) + s.cleared.length + rest.length
    omega

theorem conserves_putSample {capacity : Nat} (h : Conserves s) (sample : α) :
    Conserves (s.putSample capacity sample) := by
  unfold State.putSample
  split
  · split
    · exact h
    · rename_i oldest rest hqueue
      exact ((h.evict hqueue).append sample).notifyAll
  · exact (h.append sample).notifyAll

theorem conserves_getSample (h : Conserves s) (i : Nat) : Conserves (s.getSample i) := by
  unfold State.getSample
  split
  · split
    · exact h.setGet i _
    · exact h.setGet i _
  · rename_i data rest hqueue
    refine Conserves.setGet ?_ i _
    exact {
      numbered := h.numbered
      ordered := by
        have hordered := h.ordered
        rw [hqueue] at hordered
        show (s.delivered ++ [data] ++ rest).Sublist s.produced
        rw [append_assoc]
        exact hordered
      placed := by
        intro item hitem
        rcases h.placed item hitem with hp | hp | hp
        · exact .inl (mem_append_left _ hp)
        · grind
        · exact .inr (.inr hp)
      consumed := by simp [length_append, length_singleton, h.consumed]
      dropped := h.dropped
      accounting := by
        have hcount := h.accounting
        rw [hqueue, length_cons] at hcount
        show s.totalProduced = s.totalConsumed + 1 + s.droppedSamples + s.cleared.length + rest.length
        omega }

theorem conserves_clearQueue (h : Conserves s) : Conserves s.clearQueue where
  numbered := h.numbered
  ordered := by
    show (s.delivered ++ []).Sublist s.produced
    rw [append_nil]
    exact (sublist_append_left _ _).trans h.ordered
  placed := by
    intro item hitem
    rcases h.placed item hitem with hp | hp | hp | hp
    · exact .inl hp
    · exact .inr (.inr (.inr (mem_append_right _ hp)))
    · exact .inr (.inr (.inl hp))
    · exact .inr (.inr (.inr (mem_append_left _ hp)))
  consumed := h.consumed
  dropped := h.dropped
  accounting := by
    have hcount := h.accounting
    show s.totalProduced =
      s.totalConsumed + s.droppedSamples + (s.cleared ++ s.queue).length + ([] : List (Nat × α)).length
    rw [length_append, length_nil]
    omega

theorem conserves_step {capacity : Nat} (s : State α) (a : Action α) (h : Conserves s) :
    Conserves ((messageQueue capacity a).effect s) := by
  cases a with
  | putSample sample => exact conserves_putSample h sample
  | getSample i => exact conserves_getSample h i
  | wake i => exact conserves_getSample h i
  | clearQueue => exact conserves_clearQueue h
  | shutdown => exact Conserves.notifyAll (h.congr rfl rfl rfl rfl rfl rfl rfl rfl)

/-! ## What one step does -/

/-- A step that takes a sample from the queue delivers it, drops it as the oldest one of a
full queue, or clears the queue; and a call returns `None` only from a queue that is shut
down and empty. -/
structure StepOk (capacity : Nat) (s : State α) (a : Action α) : Prop where
  leaves : ∀ item ∈ s.queue, item ∉ ((messageQueue capacity a).effect s).queue →
    ((messageQueue capacity a).effect s).delivered = s.delivered ++ [item] ∨
    (∃ sample, a = .putSample sample ∧ capacity ≤ s.queue.length ∧ s.queue.head? = some item) ∨
    a = .clearQueue
  none_returned : ∀ i, ((messageQueue capacity a).effect s).gets i = .returned none →
    s.gets i = .returned none ∨ s.running = false ∧ s.queue = []

theorem notify_eq_returned {call : GetCall α} {result : Option ((Nat × α) × Nat)}
    (h : call.notify = .returned result) : call = .returned result := by
  cases call with
  | idle => cases h
  | waiting notified => cases h
  | returned r => exact h

theorem stepOk_getSample (i : Nat) : (∀ item ∈ s.queue, item ∉ (s.getSample i).queue →
      (s.getSample i).delivered = s.delivered ++ [item]) ∧
    ∀ j, (s.getSample i).gets j = .returned none →
      s.gets j = .returned none ∨ s.running = false ∧ s.queue = [] := by
  unfold State.getSample
  split
  · rename_i hqueue
    split
    · refine ⟨fun item hitem hnot => absurd hitem hnot, fun j hj => ?_⟩
      by_cases hij : j = i
      · subst hij
        simp [State.setGet] at hj
      · left
        simpa [State.setGet, hij] using hj
    · grind
  · rename_i data rest hqueue
    refine ⟨fun item hitem hnot => ?_, fun j hj => ?_⟩
    · rw [hqueue] at hitem
      rcases mem_cons.mp hitem with rfl | hitem
      · rfl
      · exact absurd hitem hnot
    · by_cases hij : j = i
      · subst hij
        simp [State.setGet] at hj
      · left
        simpa [State.setGet, hij] using hj

theorem stepOk (capacity : Nat) (s : State α) (a : Action α) : StepOk capacity s a := by
  cases a with
  | putSample sample =>
    refine ⟨fun item hitem hnot => ?_, fun j hj => ?_⟩
    · simp only [messageQueue, State.putSample] at hnot
      split at hnot
      · rename_i hfull
        split at hnot
        · exact absurd hitem hnot
        · rename_i oldest rest hqueue
          rw [hqueue] at hitem
          rcases mem_cons.mp hitem with rfl | hitem
          · exact .inr (.inl ⟨sample, rfl, hfull, by rw [hqueue]; rfl⟩)
          · exact absurd (mem_append_left _ hitem) hnot
      · exact absurd (mem_append_left _ hitem) hnot
    · left
      simp only [messageQueue, State.putSample] at hj
      split at hj
      · split at hj
        · exact hj
        · exact notify_eq_returned hj
      · exact notify_eq_returned hj
  | getSample i =>
    obtain ⟨hleaves, hnone⟩ := stepOk_getSample (s := s) i
    exact ⟨fun item hitem hnot => .inl (hleaves item hitem hnot), hnone⟩
  | wake i =>
    obtain ⟨hleaves, hnone⟩ := stepOk_getSample (s := s) i
    exact ⟨fun item hitem hnot => .inl (hleaves item hitem hnot), hnone⟩
  | clearQueue => exact ⟨fun _ _ _ => .inr (.inr rfl), fun _ hj => .inl hj⟩
  | shutdown =>
    exact ⟨fun _ hitem hnot => absurd hitem hnot, fun _ hj => .inl (notify_eq_returned hj)⟩

/-- No sample is delivered twice: the numbers of the puts are distinct. -/
theorem Conserves.nodup_delivered (h : Conserves s) : (s.delivered.map Prod.fst).Nodup := by
  have hsub : s.delivered.Sublist s.produced := (sublist_append_left _ _).trans h.ordered
  refine (hsub.map Prod.fst).nodup ?_
  rw [h.numbered]
  exact nodup_range

/-- A call waits, is woken after a clear, and waits again until the shutdown. -/
def wokenAfterClear : List (Action Nat) :=
  [.getSample 0, .putSample 5, .clearQueue, .wake 0, .putSample 6, .putSample 7, .getSample 1,
    .shutdown, .wake 0]

end Verl.MessageQueue
