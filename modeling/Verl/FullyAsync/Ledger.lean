import Verl.Lib.StepSystem

/-! # The ledger of samples

What the flow control between the rollouter and the trainer is for, without coroutines
and locks: where the samples are, and a counter that bounds how many may be taken.

A sample is taken from the feed only after an admission, which needs the counter to be
below the limit; it is submitted, put into a queue that loses an item when it is full,
and consumed.  Now and then the counter is replaced by a count: of the tasks when the
count starts, and of the queue a little later.

* `Covered`: the counter covers every sample that is not yet consumed.  A count keeps
  it unless it replaces the counter while a sample is held (`covered_step`).
* `Supplied`: the counter still lets through what the consumer needs, or the queue has
  it.  A count keeps it unless it exceeds the samples there are by more than the
  limit leaves over (`supplied_step`). -/

namespace Verl.FullyAsync

open StepSystem

/-- The count that will replace the counter. -/
inductive Counting
  | none
  /-- The tasks are counted, the queue is not. -/
  | tasks (active : Nat)
  | total (count : Nat)
  deriving DecidableEq

structure Ledger where
  counter : Nat
  /-- One more sample may be taken. -/
  admitted : Bool
  /-- Taken, not submitted. -/
  held : Nat
  /-- Submitted, not in the queue. -/
  unput : Nat
  queued : Nat
  /-- The end signal is taken; it is held, or queued behind the samples. -/
  ended : Bool
  endHeld : Nat
  endQueued : Nat
  dropped : Nat
  counting : Counting
  /-- What the consumer takes before the next count, and whether it is taking. -/
  needed : Nat
  collecting : Bool
  deriving DecidableEq

inductive Event
  | allow
  | take
  | takeEnd
  | submit
  | put
  | putEnd
  | get
  | getEnd
  | leave
  | countTasks (active : Nat)
  | countQueue (active : Nat)
  | assign (count needed : Nat) (collecting : Bool)

namespace Ledger

/-- The samples that are not yet consumed. -/
def outstanding (l : Ledger) : Nat := l.queued + l.unput + l.held

/-- What is, or will be, in the queue unless it is consumed. -/
def total (l : Ledger) : Nat := l.outstanding + l.endHeld + l.endQueued

def queueSize (l : Ledger) : Nat := l.queued + l.endQueued

/-- A put into a queue of at most `limit` items; it holds a sample to lose. -/
def makeRoom (limit : Nat) (l : Ledger) : Ledger :=
  if limit ≤ l.queueSize then
    { l with
      queued := l.queued - 1
      endQueued := if 0 < l.queued then l.endQueued else 0
      dropped := l.dropped + 1 }
  else l

end Ledger

/-- The rules of the ledger, for a limit and the number of samples of one round. -/
def ledger (limit round : Nat) : StepSystem Ledger Event
  | .allow => {
      guard := fun l => l.counter < limit ∧ l.held = 0 ∧ l.ended = false
      effect := fun l => { l with admitted := true } }
  | .take => {
      guard := fun l => l.admitted = true
      effect := fun l =>
        { l with admitted := false, counter := l.counter + 1, held := l.held + 1 } }
  | .takeEnd => {
      guard := fun l => l.admitted = true
      effect := fun l =>
        { l with
          admitted := false
          counter := l.counter + 1
          ended := true
          endHeld := l.endHeld + 1 } }
  | .submit => {
      guard := fun l => 0 < l.held ∧ l.counting = .none
      effect := fun l => { l with held := l.held - 1, unput := l.unput + 1 } }
  | .put => {
      guard := fun l => 0 < l.unput
      effect := fun l =>
        { l.makeRoom limit with
          queued := (l.makeRoom limit).queued + 1
          unput := l.unput - 1 } }
  | .putEnd => {
      guard := fun l => 0 < l.endHeld ∧ l.ended = true
      effect := fun l => { l.makeRoom limit with endQueued := 1, endHeld := l.endHeld - 1 } }
  | .get => {
      guard := fun l => l.collecting = true ∧ 0 < l.queued ∧ 0 < l.needed
      effect := fun l => { l with queued := l.queued - 1, needed := l.needed - 1 } }
  | .getEnd => {
      guard := fun l => l.queued = 0
      effect := fun l => { l with endQueued := 0, collecting := false } }
  | .leave => {
      guard := fun _ => True
      effect := fun l => { l with needed := round, collecting := false } }
  | .countTasks active => {
      guard := fun l => l.unput ≤ active
      effect := fun l => { l with counting := .tasks active } }
  | .countQueue active => {
      guard := fun l => l.counting = .tasks active
      effect := fun l => { l with counting := .total (active + l.queueSize) } }
  | .assign count needed collecting => {
      guard := fun l => l.counting = .total count ∧ needed ≤ round
      effect := fun l =>
        { l with
          counter := count
          counting := .none
          needed := needed
          collecting := collecting } }

/-- The condition of runs that replace the counter only where `Q` holds. -/
def AtAssign (Q : Ledger → Prop) (l : Ledger) : Event → Prop
  | .assign _ _ _ => Q l
  | _ => True

namespace Ledger

/-! ## The counter covers the samples -/

/-- No sample is held. -/
def Unheld (l : Ledger) : Prop := l.held = 0

/-- What holds as long as every count is assigned while no sample is held. -/
structure Covered (limit : Nat) (l : Ledger) : Prop where
  total_le : l.total ≤ limit
  admitted_lt : l.admitted = true → l.total < limit
  admitted_unheld : l.admitted = true → l.held = 0 ∧ l.ended = false
  total_le_counter : l.ended = false → l.total ≤ l.counter
  no_end : l.ended = false → l.endHeld = 0 ∧ l.endQueued = 0
  tasks : ∀ a, l.counting = .tasks a → l.ended = false → l.unput ≤ a
  counted : ∀ c, l.counting = .total c → l.ended = false → l.queued + l.unput ≤ c
  dropped_eq : l.dropped = 0

theorem Covered.makeRoom_eq {limit : Nat} {l : Ledger} (h : l.Covered limit)
    (hput : 0 < l.unput ∨ 0 < l.endHeld) : l.makeRoom limit = l := by
  have htotal := h.total_le
  unfold total outstanding at htotal
  unfold makeRoom queueSize
  rw [if_neg]
  omega

section Covered

variable {limit round : Nat} {l : Ledger}

/-! ### Taking -/

theorem Covered.allow (h : l.Covered limit) (hg : (ledger limit round .allow).guard l) :
    ((ledger limit round .allow).effect l).Covered limit := by
  obtain ⟨hlt, hheld, hended⟩ := hg
  exact { h with
    admitted_lt := fun _ => Nat.lt_of_le_of_lt (h.total_le_counter hended) hlt
    admitted_unheld := fun _ => ⟨hheld, hended⟩ }

theorem Covered.take (h : l.Covered limit) (hg : (ledger limit round .take).guard l) :
    ((ledger limit round .take).effect l).Covered limit := by
  have hlt := h.admitted_lt hg
  have hle := h.total_le_counter (h.admitted_unheld hg).2
  have htotal : ((ledger limit round .take).effect l).total = l.total + 1 := by
    show l.queued + l.unput + (l.held + 1) + l.endHeld + l.endQueued = l.total + 1
    unfold total outstanding
    omega
  exact { h with
    total_le := htotal ▸ hlt
    total_le_counter := fun _ => htotal ▸ Nat.succ_le_succ hle
    admitted_lt := by rintro ⟨⟩
    admitted_unheld := by rintro ⟨⟩ }

theorem Covered.takeEnd (h : l.Covered limit) (hg : (ledger limit round .takeEnd).guard l) :
    ((ledger limit round .takeEnd).effect l).Covered limit := by
  have hlt := h.admitted_lt hg
  constructor
  case total_le =>
    unfold total outstanding at hlt
    show l.queued + l.unput + l.held + (l.endHeld + 1) + l.endQueued ≤ limit
    omega
  case dropped_eq => exact h.dropped_eq
  all_goals intros; contradiction

theorem Covered.submit (h : l.Covered limit) (hg : (ledger limit round .submit).guard l) :
    ((ledger limit round .submit).effect l).Covered limit := by
  obtain ⟨hheld, hnone⟩ := hg
  have htotal : ((ledger limit round .submit).effect l).total = l.total := by
    show l.queued + (l.unput + 1) + (l.held - 1) + l.endHeld + l.endQueued = l.total
    unfold total outstanding
    omega
  have hnot : l.admitted = true → False := fun hadmitted => by
    have := (h.admitted_unheld hadmitted).1
    omega
  exact { h with
    total_le := htotal ▸ h.total_le
    total_le_counter := htotal ▸ h.total_le_counter
    admitted_lt := fun hadmitted => (hnot hadmitted).elim
    admitted_unheld := fun hadmitted => (hnot hadmitted).elim
    tasks := fun a ha => by
      rw [show l.counting = .tasks a from ha] at hnone
      contradiction
    counted := fun c hc => by
      rw [show l.counting = .total c from hc] at hnone
      contradiction }

/-! ### The queue -/

theorem Covered.put (h : l.Covered limit) (hput : (ledger limit round .put).guard l) :
    ((ledger limit round .put).effect l).Covered limit := by
  have hput : 0 < l.unput := hput
  have htotal : total { l with queued := l.queued + 1, unput := l.unput - 1 } = l.total := by
    show l.queued + 1 + (l.unput - 1) + l.held + l.endHeld + l.endQueued = l.total
    unfold total outstanding
    omega
  show Covered limit { l.makeRoom limit with
    queued := (l.makeRoom limit).queued + 1, unput := l.unput - 1 }
  rw [h.makeRoom_eq (.inl hput)]
  exact { h with
    total_le := htotal ▸ h.total_le
    admitted_lt := htotal ▸ h.admitted_lt
    total_le_counter := htotal ▸ h.total_le_counter
    tasks := fun a ha hended => Nat.le_trans (Nat.sub_le _ _) (h.tasks a ha hended)
    counted := fun c hc hended => by
      have := h.counted c hc hended
      show l.queued + 1 + (l.unput - 1) ≤ c
      omega }

theorem Covered.putEnd (h : l.Covered limit) (hg : (ledger limit round .putEnd).guard l) :
    ((ledger limit round .putEnd).effect l).Covered limit := by
  obtain ⟨hput, hended⟩ := hg
  have hnot : l.ended = false → False := fun hne => by simp [hended] at hne
  show Covered limit { l.makeRoom limit with endQueued := 1, endHeld := l.endHeld - 1 }
  rw [h.makeRoom_eq (.inr hput)]
  exact { h with
    total_le := by
      have htotal := h.total_le
      unfold total outstanding at htotal
      show l.queued + l.unput + l.held + (l.endHeld - 1) + 1 ≤ limit
      omega
    admitted_lt := fun hadmitted => (hnot (h.admitted_unheld hadmitted).2).elim
    total_le_counter := fun hne => (hnot hne).elim
    no_end := fun hne => (hnot hne).elim
    tasks := fun _ _ hne => (hnot hne).elim
    counted := fun _ _ hne => (hnot hne).elim }

theorem Covered.get (h : l.Covered limit) : ((ledger limit round .get).effect l).Covered limit := by
  have htotal : ((ledger limit round .get).effect l).total ≤ l.total := by
    show l.queued - 1 + l.unput + l.held + l.endHeld + l.endQueued ≤ l.total
    unfold total outstanding
    omega
  exact { h with
    total_le := Nat.le_trans htotal h.total_le
    admitted_lt := fun hadmitted => Nat.lt_of_le_of_lt htotal (h.admitted_lt hadmitted)
    total_le_counter := fun hended => Nat.le_trans htotal (h.total_le_counter hended)
    counted := fun c hc hended => by
      have := h.counted c hc hended
      show l.queued - 1 + l.unput ≤ c
      omega }

theorem Covered.getEnd (h : l.Covered limit) :
    ((ledger limit round .getEnd).effect l).Covered limit := by
  have htotal : ((ledger limit round .getEnd).effect l).total ≤ l.total := by
    show l.queued + l.unput + l.held + l.endHeld + 0 ≤ l.total
    unfold total outstanding
    omega
  exact { h with
    total_le := Nat.le_trans htotal h.total_le
    admitted_lt := fun hadmitted => Nat.lt_of_le_of_lt htotal (h.admitted_lt hadmitted)
    total_le_counter := fun hended => Nat.le_trans htotal (h.total_le_counter hended)
    no_end := fun hended => ⟨(h.no_end hended).1, rfl⟩ }

/-! ### Counting -/

theorem Covered.countTasks {active : Nat} (h : l.Covered limit)
    (hg : (ledger limit round (.countTasks active)).guard l) :
    ((ledger limit round (.countTasks active)).effect l).Covered limit :=
  { h with
    tasks := by
      rintro a ⟨⟩ -
      exact hg
    counted := by rintro c ⟨⟩ }

theorem Covered.countQueue {active : Nat} (h : l.Covered limit)
    (hg : (ledger limit round (.countQueue active)).guard l) :
    ((ledger limit round (.countQueue active)).effect l).Covered limit :=
  { h with
    tasks := by rintro a ⟨⟩
    counted := by
      rintro c ⟨⟩ hended
      have := h.tasks active hg hended
      show l.queued + l.unput ≤ active + (l.queued + l.endQueued)
      omega }

theorem Covered.assign {count needed : Nat} {collecting : Bool} (h : l.Covered limit)
    (hg : (ledger limit round (.assign count needed collecting)).guard l) (hheld : l.Unheld) :
    ((ledger limit round (.assign count needed collecting)).effect l).Covered limit :=
  { h with
    total_le_counter := by
      intro hended
      have hheld : l.held = 0 := hheld
      have := h.counted count hg.1 hended
      have := h.no_end hended
      show l.queued + l.unput + l.held + l.endHeld + l.endQueued ≤ count
      omega
    tasks := by rintro a ⟨⟩
    counted := by rintro c ⟨⟩ }

end Covered

variable {limit round : Nat}

theorem covered_step (l : Ledger) (e : Event) (h : l.Covered limit)
    (hg : (ledger limit round e).guard l) (hc : AtAssign Unheld l e) :
    ((ledger limit round e).effect l).Covered limit := by
  cases e with
  | allow => exact h.allow hg
  | take => exact h.take hg
  | takeEnd => exact h.takeEnd hg
  | submit => exact h.submit hg
  | put => exact h.put hg
  | putEnd => exact h.putEnd hg
  | get => exact h.get
  | getEnd => exact h.getEnd
  | leave => exact { h with }
  | countTasks active => exact h.countTasks hg
  | countQueue active => exact h.countQueue hg
  | assign count needed collecting => exact h.assign hg hc

/-! ## The counter leaves what the consumer needs -/

/-- The count exceeds the samples there are by no more than the limit leaves over when a
round is taken off it. -/
def WithinSlack (limit round : Nat) (l : Ledger) : Prop :=
  ∀ c, l.counting = .total c → c + round ≤ limit + l.outstanding

/-- What holds as long as every count is assigned within the slack. -/
structure Supplied (limit round : Nat) (l : Ledger) : Prop where
  needed_le : l.needed ≤ round
  admitted_unheld : l.admitted = true → l.held = 0 ∧ l.ended = false
  no_end : l.ended = false → l.endQueued = 0
  supplied : l.ended = false → l.collecting = true →
    l.counter + l.needed ≤ limit + l.outstanding ∨ l.needed ≤ l.queued

theorem Supplied.put (hround : round ≤ limit) {l : Ledger}
    (h : l.Supplied limit round) (hg : (ledger limit round .put).guard l) :
    ((ledger limit round .put).effect l).Supplied limit round := by
  obtain ⟨hneeded, hunheld, hnoend, hsupplied⟩ := h
  unfold outstanding at hsupplied
  have hput : 0 < l.unput := hg
  show Supplied limit round { l.makeRoom limit with
    queued := (l.makeRoom limit).queued + 1, unput := l.unput - 1 }
  unfold makeRoom queueSize
  split
  · next hfull =>
    refine ⟨hneeded, hunheld, ?_, ?_⟩
    · grind
    · -- the queue is full, so the trainer finds there what it needs
      intro hended _
      have := hnoend hended
      right
      show l.needed ≤ l.queued - 1 + 1
      omega
  · next hroom =>
    refine ⟨hneeded, hunheld, hnoend, ?_⟩
    intro hended hcollecting
    have := hsupplied hended hcollecting
    show l.counter + l.needed ≤ limit + (l.queued + 1 + (l.unput - 1) + l.held) ∨
      l.needed ≤ l.queued + 1
    omega

theorem supplied_step (hround : round ≤ limit) (l : Ledger) (e : Event) (h : l.Supplied limit round)
    (hg : (ledger limit round e).guard l) (hc : AtAssign (WithinSlack limit round) l e) :
    ((ledger limit round e).effect l).Supplied limit round := by
  obtain ⟨hneeded, hunheld, hnoend, hsupplied⟩ := id h
  unfold outstanding at hsupplied
  cases e with
  | allow =>
    obtain ⟨-, hheld, hended⟩ := hg
    exact ⟨hneeded, fun _ => ⟨hheld, hended⟩, hnoend, hsupplied⟩
  | take =>
    refine ⟨hneeded, by rintro ⟨⟩, hnoend, ?_⟩
    intro hended hcollecting
    have := hsupplied hended hcollecting
    show l.counter + 1 + l.needed ≤ limit + (l.queued + l.unput + (l.held + 1)) ∨
      l.needed ≤ l.queued
    omega
  | takeEnd => exact ⟨hneeded, by rintro ⟨⟩, by rintro ⟨⟩, by rintro ⟨⟩⟩
  | submit =>
    obtain ⟨hheld, -⟩ := hg
    refine ⟨hneeded, ?_, hnoend, ?_⟩
    · intro hadmitted
      have := hunheld hadmitted
      omega
    · intro hended hcollecting
      have := hsupplied hended hcollecting
      show l.counter + l.needed ≤ limit + (l.queued + (l.unput + 1) + (l.held - 1)) ∨
        l.needed ≤ l.queued
      omega
  | put => exact h.put hround hg
  | putEnd =>
    obtain ⟨-, hended⟩ := hg
    have hne : l.ended ≠ false := by simp [hended]
    show Supplied limit round { l.makeRoom limit with endQueued := 1, endHeld := l.endHeld - 1 }
    unfold makeRoom
    split
    · exact ⟨hneeded, hunheld, fun h => absurd h hne, fun h => absurd h hne⟩
    · exact ⟨hneeded, hunheld, fun h => absurd h hne, fun h => absurd h hne⟩
  | get =>
    constructor
    case needed_le =>
      show l.needed - 1 ≤ round
      omega
    case admitted_unheld => exact hunheld
    case no_end => exact hnoend
    case supplied =>
      intro hended hcollecting
      have := hsupplied hended hcollecting
      show l.counter + (l.needed - 1) ≤ limit + (l.queued - 1 + l.unput + l.held) ∨
        l.needed - 1 ≤ l.queued - 1
      omega
  | getEnd => exact ⟨hneeded, hunheld, fun _ => rfl, by rintro - ⟨⟩⟩
  | leave => exact ⟨Nat.le_refl _, hunheld, hnoend, by rintro - ⟨⟩⟩
  | countTasks active => exact ⟨hneeded, hunheld, hnoend, hsupplied⟩
  | countQueue active => exact ⟨hneeded, hunheld, hnoend, hsupplied⟩
  | assign count needed collecting =>
    obtain ⟨hcount, hle⟩ := hg
    refine ⟨hle, hunheld, hnoend, ?_⟩
    intro _ _
    left
    have := hc count hcount
    unfold outstanding at this
    show count + needed ≤ limit + (l.queued + l.unput + l.held)
    omega

theorem Supplied.counter_lt {l : Ledger} (h : l.Supplied limit round)
    (hended : l.ended = false) (hcollecting : l.collecting = true) (hneeded : 0 < l.needed)
    (hempty : l.outstanding = 0) : l.counter < limit := by
  have := h.supplied hended hcollecting
  unfold outstanding at this hempty
  omega

end Ledger

end Verl.FullyAsync
