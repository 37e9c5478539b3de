import Verl.Lib.Parties
import Verl.Lib.StepSystem

/-! # The token bucket (`verl/experimental/reward_loop/reward_manager/limited.py`)

`AsyncTokenBucket.acquire` refills the bucket under its lock and takes its tokens, or sleeps.

    request                      under the lock                       after the sleep
    at most `max_tokens`         taken if they are there              the lock again
    more than `max_tokens`       taken at once, below zero            returns

The calls of `acquire` are tasks that take one section under the lock, or one wake-up, after the
other; no section suspends, and time passes between them.  A grant is the return of a call.

* `system`: the steps of the tasks and of the clock.
* `Started.due`: everything that may be granted until a time `τ`, even what is still asleep, is at
  most `max_tokens + rate * τ`.
* `Steady.since`: the tokens that are left make up for what was granted since a time.
* `tokenBucket_bounds`: the two bounds. -/

namespace Verl.TokenBucket

open Function Option

/-! ## Algorithm -/

/-- `rate_limit` and `max_tokens`, both not negative. -/
structure Limits where
  rateLimit : ℚ
  maxTokens : ℚ
  rate_nonneg : 0 ≤ rateLimit
  max_nonneg : 0 ≤ maxTokens

/-- `max_tokens or rate_limit` -/
def maxTokensOf (rateLimit : ℚ) : Option ℚ → ℚ
  | none => rateLimit
  | some maxTokens => if maxTokens = 0 then rateLimit else maxTokens

/-- `AsyncTokenBucket(rate_limit, max_tokens)` -/
def Limits.new {rateLimit : ℚ} (hrate : 0 ≤ rateLimit) {maxTokens : Option ℚ}
    (hmax : ∀ m ∈ maxTokens, 0 ≤ m) : Limits where
  rateLimit := rateLimit
  maxTokens := maxTokensOf rateLimit maxTokens
  rate_nonneg := hrate
  max_nonneg := by
    unfold maxTokensOf
    split
    · exact hrate
    · split
      · exact hrate
      · exact hmax _ rfl

structure Bucket where
  tokens : ℚ
  lastUpdate : Option ℚ

/-- How a section under the lock ends. -/
inductive Turn where
  | returns
  | sleeps (waitTime : ℚ)
  /-- `ZeroDivisionError` of a rate of zero. -/
  | raises

section Acquire

variable (limits : Limits) (numTokens now : ℚ) (b : Bucket)

/-- `min(self.max_tokens, self.tokens + new_tokens)` -/
def refilled : ℚ :=
  let elapsed := now - b.lastUpdate.getD now
  min limits.maxTokens (b.tokens + elapsed * limits.rateLimit)

/-- A request of more than `max_tokens`. -/
def oversizeSection : Bucket × Turn :=
  let tokens := refilled limits now b
  let tokensNeeded := numTokens - tokens
  let taken : Bucket := { tokens := tokens - numTokens, lastUpdate := some now }
  if 0 < tokensNeeded then
    if limits.rateLimit = 0 then
      ({ tokens := tokens, lastUpdate := some (b.lastUpdate.getD now) }, .raises)
    else
      let waitTime := tokensNeeded / limits.rateLimit
      (taken, if 0 < waitTime then .sleeps waitTime else .returns)
  else (taken, .returns)

/-- One turn of the loop of any other request. -/
def standardSection : Bucket × Turn :=
  let tokens := refilled limits now b
  let full : Bucket := { tokens := tokens, lastUpdate := some now }
  if numTokens ≤ tokens then ({ full with tokens := tokens - numTokens }, .returns)
  else if limits.rateLimit = 0 then (full, .raises)
  else (full, .sleeps ((numTokens - tokens) / limits.rateLimit))

def acquireSection : Bucket × Turn :=
  if limits.maxTokens < numTokens then oversizeSection limits numTokens now b
  else standardSection limits numTokens now b

end Acquire

/-! ## Steps -/

/-- A call of `acquire`. -/
inductive Task where
  | absent
  | atLock (numTokens : ℚ)
  | asleep (numTokens wakeAt : ℚ)
  | returned
  | raised

def Task.isAbsent : Task → Bool
  | absent => true
  | _ => false

def Task.isAtLock : Task → Bool
  | atLock _ => true
  | _ => false

/-- The requested sleep is over. -/
def Task.mayWake (now : ℚ) : Task → Bool
  | asleep _ wakeAt => wakeAt ≤ now
  | _ => false

structure Grant where
  time : ℚ
  numTokens : ℚ

/-- The bucket, the clock of the event loop, the calls, the time of the first of them, and what was
granted. -/
structure State (n : Nat) where
  bucket : Bucket
  time : ℚ
  tasks : Fin n → Task
  firstAcquire : Option ℚ
  grants : List Grant

inductive Event (n : Nat) where
  | tick (now : ℚ)
  | call (i : Fin n) (numTokens : ℚ)
  | lock (i : Fin n)
  | wake (i : Fin n)

namespace State

variable {n : Nat}

def setTask (s : State n) (i : Fin n) (task : Task) : State n :=
  { s with tasks := Function.update s.tasks i task }

/-- The call returns. -/
def grant (s : State n) (i : Fin n) (numTokens : ℚ) : State n :=
  { s.setTask i .returned with grants := s.grants ++ [⟨s.time, numTokens⟩] }

/-- What a call does after its section under the lock. -/
def afterSection (s : State n) (i : Fin n) (numTokens : ℚ) (result : Bucket × Turn) : State n :=
  let s := { s with bucket := result.1 }
  match result.2 with
  | .returns => s.grant i numTokens
  | .sleeps waitTime => s.setTask i (.asleep numTokens (s.time + waitTime))
  | .raises => s.setTask i .raised

def call (s : State n) (i : Fin n) (numTokens : ℚ) : State n :=
  { s.setTask i (.atLock numTokens) with firstAcquire := some (s.firstAcquire.getD s.time) }

def lock (limits : Limits) (s : State n) (i : Fin n) : State n :=
  match s.tasks i with
  | .atLock numTokens =>
    s.afterSection i numTokens (acquireSection limits numTokens s.time s.bucket)
  | _ => s

/-- After the sleep a large request returns, and any other takes the lock again. -/
def wake (limits : Limits) (s : State n) (i : Fin n) : State n :=
  match s.tasks i with
  | .asleep numTokens _ =>
    if limits.maxTokens < numTokens then s.grant i numTokens else s.setTask i (.atLock numTokens)
  | _ => s

end State

def system (limits : Limits) (n : Nat) : StepSystem (State n) (Event n)
  | .tick now => { guard := fun s => s.time ≤ now, effect := fun s => { s with time := now } }
  | .call i numTokens => {
      guard := fun s => (s.tasks i).isAbsent
      effect := fun s => s.call i numTokens }
  | .lock i => { guard := fun s => (s.tasks i).isAtLock, effect := fun s => s.lock limits i }
  | .wake i => { guard := fun s => (s.tasks i).mayWake s.time, effect := fun s => s.wake limits i }

/-- A full bucket, and no call yet. -/
def initial (limits : Limits) (n : Nat) (time : ℚ) : State n where
  bucket := { tokens := limits.maxTokens, lastUpdate := none }
  time := time
  tasks := fun _ => .absent
  firstAcquire := none
  grants := []

/-! ## Property -/

/-- The tokens of the grants that meet a test. -/
def tokensOf (test : Grant → Bool) (grants : List Grant) : ℚ :=
  ((grants.filter test).map Grant.numTokens).sum

/-- What was granted up to the time `x`. -/
def State.grantedUpTo {n : Nat} (s : State n) (x : ℚ) : ℚ := tokensOf (·.time ≤ x) s.grants

/-- What was granted from `a` to `b`. -/
def State.grantedIn {n : Nat} (s : State n) (a b : ℚ) : ℚ :=
  tokensOf (fun g => a ≤ g.time ∧ g.time ≤ b) s.grants

/-- No request is larger than the bucket. -/
def smallRequests (limits : Limits) {n : Nat} (_ : State n) : Event n → Prop
  | .call _ numTokens => numTokens ≤ limits.maxTokens
  | _ => True

instance (limits : Limits) {n : Nat} (s : State n) (a : Event n) :
    Decidable (smallRequests limits s a) :=
  match a with
  | .call _ numTokens => inferInstanceAs (Decidable (numTokens ≤ limits.maxTokens))
  | .tick _ | .lock _ | .wake _ => inferInstanceAs (Decidable True)

/-! ## Lemmas -/

section Sums

theorem tokensOf_append (test : Grant → Bool) (grants : List Grant) (g : Grant) :
    tokensOf test (grants ++ [g]) =
      tokensOf test grants + if test g then g.numTokens else 0 := by
  unfold tokensOf
  rw [List.filter_append, List.map_append, List.sum_append]
  congr 1
  by_cases h : test g
  · simp [h]
  · simp [h]

theorem tokensOf_congr {test test' : Grant → Bool} {grants : List Grant}
    (h : ∀ g ∈ grants, test g = test' g) : tokensOf test grants = tokensOf test' grants := by
  unfold tokensOf
  rw [List.filter_congr h]

theorem tokensOf_eq_zero {test : Grant → Bool} {grants : List Grant}
    (h : ∀ g ∈ grants, test g = false) : tokensOf test grants = 0 := by
  unfold tokensOf
  rw [List.filter_eq_nil_iff.2 fun g hg => by rw [h g hg]; exact Bool.false_ne_true]
  rfl

theorem sum_update {n : Nat} (f : Task → ℚ) (tasks : Fin n → Task) (i : Fin n) (task : Task) :
    ∑ j, f (update tasks i task j) = (∑ j, f (tasks j)) - f (tasks i) + f task := by
  have hsum := sum_update_add f tasks i task
  linarith

end Sums

section Turns

variable {limits : Limits} {numTokens now : ℚ} {b : Bucket}

theorem acquireSection_cases (limits : Limits) (numTokens now : ℚ) (b : Bucket) :
    (numTokens ≤ limits.maxTokens ∧ numTokens ≤ refilled limits now b ∧
      acquireSection limits numTokens now b =
        (⟨refilled limits now b - numTokens, some now⟩, .returns)) ∨
    (numTokens ≤ limits.maxTokens ∧ ∃ waitTime,
      acquireSection limits numTokens now b = (⟨refilled limits now b, some now⟩, .sleeps waitTime)) ∨
    (limits.maxTokens < numTokens ∧ ∃ waitTime,
      waitTime * limits.rateLimit = numTokens - refilled limits now b ∧
      acquireSection limits numTokens now b =
        (⟨refilled limits now b - numTokens, some now⟩, .sleeps waitTime)) ∨
    (limits.rateLimit = 0 ∧ ∃ last, (last = now ∨ last = b.lastUpdate.getD now) ∧
      (numTokens ≤ limits.maxTokens → last = now) ∧
      acquireSection limits numTokens now b = (⟨refilled limits now b, some last⟩, .raises)) := by
  unfold acquireSection
  by_cases hsize : limits.maxTokens < numTokens
  · have hneeded : 0 < numTokens - refilled limits now b := by
      have hle : refilled limits now b ≤ limits.maxTokens := min_le_left _ _
      linarith
    rw [if_pos hsize]
    unfold oversizeSection
    dsimp only
    rw [if_pos hneeded]
    by_cases hrate : limits.rateLimit = 0
    · grind
    · have hpos := lt_of_le_of_ne limits.rate_nonneg (Ne.symm hrate)
      rw [if_neg hrate, if_pos (div_pos hneeded hpos)]
      exact Or.inr (Or.inr (Or.inl ⟨hsize, _, div_mul_cancel₀ _ hrate, rfl⟩))
  · have hle := not_lt.1 hsize
    unfold standardSection
    by_cases henough : numTokens ≤ refilled limits now b
    · grind
    · grind

theorem refilled_le {last : ℚ} (hlast : last ≤ now) (h : ∀ u ∈ b.lastUpdate, u = last) :
    refilled limits now b ≤ b.tokens + (now - last) * limits.rateLimit := by
  refine le_trans (min_le_right _ _) ?_
  cases hupdate : b.lastUpdate with
  | none =>
    have hnonneg := mul_nonneg (sub_nonneg.2 hlast) limits.rate_nonneg
    rw [getD_none]
    linarith
  | some u =>
    rw [h u hupdate]
    exact le_rfl

end Turns

/-! ### Everything that falls due -/

/-- What a sleeping call has taken already. -/
def Task.reserved (limits : Limits) : Task → ℚ
  | asleep numTokens _ => if limits.maxTokens < numTokens then numTokens else 0
  | _ => 0

/-- What it has taken, if it may return at the time `τ`. -/
def Task.reservedBy (limits : Limits) (τ : ℚ) : Task → ℚ
  | asleep numTokens wakeAt => if limits.maxTokens < numTokens ∧ wakeAt ≤ τ then numTokens else 0
  | _ => 0

section Due

variable {n : Nat} {limits : Limits}

variable {numTokens : ℚ} {i : Fin n}

theorem Task.reservedBy_nonneg (τ : ℚ) (task : Task) : 0 ≤ task.reservedBy limits τ := by
  cases task with
  | asleep numTokens wakeAt =>
    unfold reservedBy
    dsimp only
    split
    · rename_i h
      exact limits.max_nonneg.trans h.1.le
    · exact le_rfl
  | absent | atLock _ | returned | raised => exact le_rfl

theorem Task.reservedBy_le (τ : ℚ) (task : Task) :
    task.reservedBy limits τ ≤ task.reserved limits := by
  cases task with
  | asleep numTokens wakeAt =>
    unfold reservedBy reserved
    dsimp only
    split
    · grind
    · split
      · rename_i h
        exact limits.max_nonneg.trans h.le
      · exact le_rfl
  | absent | atLock _ | returned | raised => exact le_rfl

theorem Task.sum_reservedBy_le (limits : Limits) (τ : ℚ) (tasks : Fin n → Task) :
    ∑ i, (tasks i).reservedBy limits τ ≤ ∑ i, (tasks i).reserved limits :=
  Finset.sum_le_sum fun i _ => reservedBy_le τ (tasks i)

def State.granted (s : State n) : ℚ := tokensOf (fun _ => true) s.grants

theorem granted_grant (s : State n) (i : Fin n) (numTokens : ℚ) :
    (s.grant i numTokens).granted = s.granted + numTokens :=
  tokensOf_append (fun _ => true) s.grants ⟨s.time, numTokens⟩

/-- What holds once a call was made, at the time `t0`. -/
structure Started (limits : Limits) (t0 : ℚ) (s : State n) : Prop where
  t0_le : ∀ u ∈ s.bucket.lastUpdate, t0 ≤ u
  last_le : s.bucket.lastUpdate.getD t0 ≤ s.time
  booked : s.granted + (∑ i, (s.tasks i).reserved limits) + s.bucket.tokens ≤
    limits.maxTokens + limits.rateLimit * (s.bucket.lastUpdate.getD t0 - t0)
  due : ∀ τ, s.time ≤ τ → s.granted + (∑ i, (s.tasks i).reservedBy limits τ) ≤
    limits.maxTokens + limits.rateLimit * (τ - t0)
  history : ∀ x, t0 ≤ x → s.grantedUpTo x ≤ limits.maxTokens + limits.rateLimit * (x - t0)
  grants_le : ∀ g ∈ s.grants, g.time ≤ s.time

variable {t0 : ℚ} {s : State n}

theorem Started.of_empty (hbucket : s.bucket = ⟨limits.maxTokens, none⟩)
    (htasks : ∀ j, s.tasks j = .absent) (hgrants : s.grants = []) :
    Started limits s.time (s.call i numTokens) := by
  have hsum : ∀ f : Task → ℚ, f .absent = 0 → f (.atLock numTokens) = 0 →
      ∑ j, f ((s.call i numTokens).tasks j) = 0 := by
    intro f habsent hlock
    show ∑ j, f (update s.tasks i (.atLock numTokens) j) = 0
    rw [sum_update, Finset.sum_eq_zero fun j _ => by rw [htasks j, habsent], htasks i, habsent,
      hlock]
    ring
  have hgranted : (s.call i numTokens).granted = 0 := congrArg (tokensOf _) hgrants
  have hupto : ∀ x, (s.call i numTokens).grantedUpTo x = 0 := fun x =>
    congrArg (tokensOf _) hgrants
  have hbucket' : (s.call i numTokens).bucket = ⟨limits.maxTokens, none⟩ := hbucket
  have hpos : ∀ x, s.time ≤ x → 0 ≤ limits.maxTokens + limits.rateLimit * (x - s.time) := fun x hx =>
    add_nonneg limits.max_nonneg (mul_nonneg limits.rate_nonneg (sub_nonneg.2 hx))
  constructor
  · grind
  · rw [hbucket']
    exact le_rfl
  · rw [hbucket', hsum _ rfl rfl, getD_none]
    linarith
  · intro τ hτ
    rw [hgranted, hsum _ rfl rfl, add_zero]
    exact hpos τ hτ
  · grind
  · intro g hg
    rw [show (s.call i numTokens).grants = [] from hgrants] at hg
    cases hg

section

variable (h : Started limits t0 s)
include h

theorem Started.tick {now : ℚ} (hnow : s.time ≤ now) :
    Started limits t0 { s with time := now } :=
  { h with
    last_le := h.last_le.trans hnow
    due := fun τ hτ => h.due τ (hnow.trans hτ)
    grants_le := fun g hg => (h.grants_le g hg).trans hnow }

theorem Started.setTask {task : Task}
    (hold : (s.tasks i).reserved limits = 0) (hnew : task.reserved limits = 0) :
    Started limits t0 (s.setTask i task) := by
  have hzero : ∀ {other : Task} (τ : ℚ), other.reserved limits = 0 →
      other.reservedBy limits τ = 0 := fun τ hother =>
    le_antisymm ((Task.reservedBy_le τ _).trans hother.le) (Task.reservedBy_nonneg τ _)
  refine ⟨h.t0_le, h.last_le, ?_, fun τ hτ => ?_, h.history, h.grants_le⟩
  · show s.granted + (∑ j, (update s.tasks i task j).reserved limits) + _ ≤ _
    rw [sum_update, hold, hnew, sub_zero, add_zero]
    exact h.booked
  · show s.granted + (∑ j, (update s.tasks i task j).reservedBy limits τ) ≤ _
    rw [sum_update, hzero τ hold, hzero τ hnew, sub_zero, add_zero]
    exact h.due τ hτ

theorem Started.refilled_le :
    s.granted + (∑ i, (s.tasks i).reserved limits) + refilled limits s.time s.bucket ≤
      limits.maxTokens + limits.rateLimit * (s.time - t0) := by
  have hrefilled : refilled limits s.time s.bucket ≤
      s.bucket.tokens + (s.time - s.bucket.lastUpdate.getD t0) * limits.rateLimit :=
    TokenBucket.refilled_le h.last_le fun u hu => by rw [hu, getD_some]
  have hbooked := h.booked
  linarith

theorem Started.history_grant (hnew : s.granted + numTokens ≤ limits.maxTokens + limits.rateLimit * (s.time - t0)) {x : ℚ}
    (hx : t0 ≤ x) :
    tokensOf (·.time ≤ x) (s.grants ++ [⟨s.time, numTokens⟩]) ≤
      limits.maxTokens + limits.rateLimit * (x - t0) := by
  rw [tokensOf_append]
  by_cases hnow : s.time ≤ x
  · have hall : tokensOf (·.time ≤ x) s.grants = s.granted :=
      tokensOf_congr fun g hg => decide_eq_true ((h.grants_le g hg).trans hnow)
    rw [hall, if_pos (decide_eq_true hnow)]
    have hrate := mul_le_mul_of_nonneg_left (sub_le_sub_right hnow t0) limits.rate_nonneg
    exact hnew.trans (by linarith)
  · rw [if_neg (by simpa using hnow), add_zero]
    exact h.history x hx

theorem Started.grants_le_grant : ∀ g ∈ s.grants ++ [⟨s.time, numTokens⟩], g.time ≤ s.time := by
  intro g hg
  rcases List.mem_append.1 hg with hg | hg
  · exact h.grants_le g hg
  · rw [List.mem_singleton.1 hg]

theorem Started.t0_le_time : t0 ≤ s.time := by
  cases hlast : s.bucket.lastUpdate with
  | none => simpa [hlast] using h.last_le
  | some u =>
    have hle := h.t0_le u hlast
    have hle' := h.last_le
    rw [hlast] at hle'
    exact hle.trans hle'

theorem Started.setBucket {last : ℚ} (hlast : t0 ≤ last)
    (hlast' : last ≤ s.time) (hrate : last = s.time ∨ limits.rateLimit = 0) :
    Started limits t0 { s with bucket := ⟨refilled limits s.time s.bucket, some last⟩ } :=
  { h with
    t0_le := fun u hu => by
      cases hu
      exact hlast
    last_le := hlast'
    booked := by
      have hbooked := h.refilled_le
      rcases hrate with rfl | hrate
      · exact hbooked
      · rw [hrate, zero_mul] at hbooked ⊢
        exact hbooked }

end

theorem reserved_of_atLock (limits : Limits) {task : Task} (h : task = .atLock numTokens) :
    task.reserved limits = 0 ∧ ∀ τ, task.reservedBy limits τ = 0 := by
  subst h
  exact ⟨rfl, fun _ => rfl⟩

theorem Started.take (h : Started limits t0 s)
    (hat : s.tasks i = .atLock numTokens) (henough : numTokens ≤ refilled limits s.time s.bucket) :
    Started limits t0 ({ s with bucket :=
      ⟨refilled limits s.time s.bucket - numTokens, some s.time⟩ }.grant i numTokens) := by
  obtain ⟨hreserved, hreservedBy⟩ := reserved_of_atLock limits hat
  have hbooked := h.refilled_le
  have hothers : 0 ≤ ∑ j, (s.tasks j).reserved limits := Finset.sum_nonneg fun j _ =>
    (Task.reservedBy_nonneg 0 _).trans (Task.reservedBy_le 0 _)
  have hgranted : ({ s with bucket :=
      ⟨refilled limits s.time s.bucket - numTokens, some s.time⟩ }.grant i numTokens).granted =
        s.granted + numTokens := granted_grant _ i numTokens
  refine ⟨?_, le_rfl, ?_, fun τ hτ => ?_, fun x hx => h.history_grant (by linarith) hx,
    h.grants_le_grant⟩
  · intro u hu
    cases hu
    exact h.t0_le_time
  · rw [hgranted]
    show s.granted + numTokens +
      (∑ j, (update s.tasks i .returned j).reserved limits) +
        (refilled limits s.time s.bucket - numTokens) ≤
          limits.maxTokens + limits.rateLimit * (s.time - t0)
    rw [sum_update, hreserved]
    show s.granted + numTokens + ((∑ j, (s.tasks j).reserved limits) - 0 + 0) + _ ≤ _
    linarith
  · rw [hgranted]
    show s.granted + numTokens +
      (∑ j, (update s.tasks i .returned j).reservedBy limits τ) ≤
        limits.maxTokens + limits.rateLimit * (τ - t0)
    have hle := Task.sum_reservedBy_le limits τ s.tasks
    have hτ : s.time ≤ τ := hτ
    have hrate := mul_le_mul_of_nonneg_left (sub_le_sub_right hτ t0) limits.rate_nonneg
    rw [sum_update, hreservedBy]
    show s.granted + numTokens + ((∑ j, (s.tasks j).reservedBy limits τ) - 0 + 0) ≤ _
    linarith

/-- A request that is too large takes its tokens and sleeps until they are due. -/
theorem Started.reserve (h : Started limits t0 s) {waitTime : ℚ}
    (hat : s.tasks i = .atLock numTokens) (hsize : limits.maxTokens < numTokens)
    (hwait : waitTime * limits.rateLimit = numTokens - refilled limits s.time s.bucket) :
    Started limits t0 ({ s with bucket :=
      ⟨refilled limits s.time s.bucket - numTokens, some s.time⟩ }.setTask i
        (.asleep numTokens (s.time + waitTime))) := by
  obtain ⟨hreserved, hreservedBy⟩ := reserved_of_atLock limits hat
  have hbooked := h.refilled_le
  refine ⟨?_, le_rfl, ?_, fun τ hτ => ?_, h.history, h.grants_le⟩
  · intro u hu
    cases hu
    exact h.t0_le_time
  · show s.granted + (∑ j, (update s.tasks i
      (.asleep numTokens (s.time + waitTime)) j).reserved limits) +
        (refilled limits s.time s.bucket - numTokens) ≤
          limits.maxTokens + limits.rateLimit * (s.time - t0)
    have hnew : (Task.asleep numTokens (s.time + waitTime)).reserved limits = numTokens :=
      if_pos hsize
    rw [sum_update]
    linarith
  · show s.granted + (∑ j, (update s.tasks i
      (.asleep numTokens (s.time + waitTime)) j).reservedBy limits τ) ≤
        limits.maxTokens + limits.rateLimit * (τ - t0)
    have hdue := h.due τ hτ
    rw [sum_update, hreservedBy]
    by_cases hwake : s.time + waitTime ≤ τ
    · -- until then the rate brings what is missing
      have hnew : (Task.asleep numTokens (s.time + waitTime)).reservedBy limits τ = numTokens :=
        if_pos ⟨hsize, hwake⟩
      have hle := Task.sum_reservedBy_le limits τ s.tasks
      have hrate := mul_le_mul_of_nonneg_left (sub_le_sub_right hwake t0) limits.rate_nonneg
      linarith
    · have hnew : (Task.asleep numTokens (s.time + waitTime)).reservedBy limits τ = 0 :=
        if_neg fun hand => hwake hand.2
      linarith

theorem firstAcquire_lock (limits : Limits) (s : State n) (i : Fin n) :
    (s.lock limits i).firstAcquire = s.firstAcquire := by
  unfold State.lock
  split
  · unfold State.afterSection
    split <;> rfl
  · rfl

theorem firstAcquire_wake (limits : Limits) (s : State n) (i : Fin n) :
    (s.wake limits i).firstAcquire = s.firstAcquire := by
  unfold State.wake
  split
  · split <;> rfl
  · rfl

theorem Started.lock (h : Started limits t0 s) (hat : (s.tasks i).isAtLock) :
    Started limits t0 (s.lock limits i) := by
  unfold State.lock
  cases htask : s.tasks i with
  | atLock numTokens =>
    obtain ⟨hreserved, -⟩ := reserved_of_atLock limits htask
    dsimp only
    rcases acquireSection_cases limits numTokens s.time s.bucket with
      ⟨-, henough, hsection⟩ | ⟨hsize, waitTime, hsection⟩ | ⟨hsize, waitTime, hwait, hsection⟩ |
        ⟨hrate, last, hlast, -, hsection⟩
    · rw [hsection]
      exact h.take htask henough
    · rw [hsection]
      exact (h.setBucket h.t0_le_time le_rfl (Or.inl rfl)).setTask hreserved
        (if_neg (not_lt.2 hsize))
    · rw [hsection]
      exact h.reserve htask hsize hwait
    · rw [hsection]
      have hbounds : t0 ≤ last ∧ last ≤ s.time := by
        rcases hlast with rfl | rfl
        · exact ⟨h.t0_le_time, le_rfl⟩
        · have hle := h.last_le
          cases hupdate : s.bucket.lastUpdate with
          | none => exact ⟨h.t0_le_time, le_rfl⟩
          | some u =>
            rw [hupdate] at hle
            exact ⟨h.t0_le u hupdate, hle⟩
      exact (h.setBucket hbounds.1 hbounds.2 (Or.inr hrate)).setTask hreserved rfl
  | absent | asleep _ _ | returned | raised =>
    rw [htask] at hat
    cases hat

theorem Started.wake (h : Started limits t0 s) (hwake : (s.tasks i).mayWake s.time) :
    Started limits t0 (s.wake limits i) := by
  unfold State.wake
  cases htask : s.tasks i with
  | asleep numTokens wakeAt =>
    rw [htask] at hwake
    have hdone : wakeAt ≤ s.time := of_decide_eq_true hwake
    dsimp only
    by_cases hsize : limits.maxTokens < numTokens
    · rw [if_pos hsize]
      have hreserved : (s.tasks i).reserved limits = numTokens := by
        rw [htask]
        exact if_pos hsize
      have hreservedBy : ∀ τ, s.time ≤ τ → (s.tasks i).reservedBy limits τ = numTokens := by
        intro τ hτ
        rw [htask]
        exact if_pos ⟨hsize, hdone.trans hτ⟩
      have hnew : s.granted + numTokens ≤
          limits.maxTokens + limits.rateLimit * (s.time - t0) := by
        have hdue := h.due s.time le_rfl
        have hle : (s.tasks i).reservedBy limits s.time ≤
            ∑ j, (s.tasks j).reservedBy limits s.time :=
          Finset.single_le_sum (fun j _ => Task.reservedBy_nonneg s.time (s.tasks j))
            (Finset.mem_univ i)
        rw [hreservedBy s.time le_rfl] at hle
        linarith
      refine ⟨h.t0_le, h.last_le, ?_, fun τ hτ => ?_, fun x hx => h.history_grant hnew hx,
        h.grants_le_grant⟩
      · have hbooked := h.booked
        rw [granted_grant]
        show s.granted + numTokens +
          (∑ j, (update s.tasks i .returned j).reserved limits) + s.bucket.tokens ≤
            limits.maxTokens + limits.rateLimit * (s.bucket.lastUpdate.getD t0 - t0)
        rw [sum_update, hreserved]
        show s.granted + numTokens + ((∑ j, (s.tasks j).reserved limits) - numTokens + 0) +
          s.bucket.tokens ≤
            limits.maxTokens + limits.rateLimit * (s.bucket.lastUpdate.getD t0 - t0)
        linarith
      · have hdue := h.due τ hτ
        rw [granted_grant]
        show s.granted + numTokens +
          (∑ j, (update s.tasks i .returned j).reservedBy limits τ) ≤
            limits.maxTokens + limits.rateLimit * (τ - t0)
        rw [sum_update, hreservedBy τ hτ]
        show s.granted + numTokens + ((∑ j, (s.tasks j).reservedBy limits τ) - numTokens + 0) ≤ _
        linarith
    · rw [if_neg hsize]
      refine h.setTask ?_ rfl
      rw [htask]
      exact if_neg hsize
  | absent | atLock _ | returned | raised =>
    rw [htask] at hwake
    cases hwake

/-- Before the first call nothing has happened. -/
def Sound (limits : Limits) (s : State n) : Prop :=
  match s.firstAcquire with
  | none => s.bucket = ⟨limits.maxTokens, none⟩ ∧ (∀ j, s.tasks j = .absent) ∧ s.grants = []
  | some t0 => Started limits t0 s

theorem sound_initial (limits : Limits) (n : Nat) (time : ℚ) : Sound limits (initial limits n time) :=
  ⟨rfl, fun _ => rfl, rfl⟩

theorem Sound.step (h : Sound limits s) (a : Event n) (hguard : (system limits n a).guard s) :
    Sound limits ((system limits n a).effect s) := by
  unfold Sound at h
  cases hfirst : s.firstAcquire with
  | none =>
    rw [hfirst] at h
    obtain ⟨hbucket, htasks, hgrants⟩ := h
    cases a with
    | tick now =>
      show match s.firstAcquire with | none => _ | some _ => _
      rw [hfirst]
      exact ⟨hbucket, htasks, hgrants⟩
    | call i numTokens =>
      show Started limits (s.firstAcquire.getD s.time) (s.call i numTokens)
      rw [hfirst]
      exact Started.of_empty hbucket htasks hgrants
    | lock i =>
      have hat : (s.tasks i).isAtLock = true := hguard
      rw [htasks i] at hat
      cases hat
    | wake i =>
      have hwake : (s.tasks i).mayWake s.time = true := hguard
      rw [htasks i] at hwake
      cases hwake
  | some t0 =>
    rw [hfirst] at h
    have hfirst' : ∀ s' : State n, s'.firstAcquire = s.firstAcquire → Started limits t0 s' →
        Sound limits s' := by
      intro s' hsame hstarted
      unfold Sound
      rw [hsame, hfirst]
      exact hstarted
    cases a with
    | tick now => exact hfirst' _ rfl (h.tick hguard)
    | call i numTokens =>
      have habsent : (s.tasks i).reserved limits = 0 := by
        have hguard : (s.tasks i).isAbsent = true := hguard
        cases htask : s.tasks i with
        | absent => rfl
        | atLock _ | asleep _ _ | returned | raised =>
          rw [htask] at hguard
          cases hguard
      have hstarted : Started limits t0 (s.setTask i (.atLock numTokens)) := h.setTask habsent rfl
      show Started limits (s.firstAcquire.getD s.time) (s.call i numTokens)
      rw [hfirst]
      exact ⟨hstarted.t0_le, hstarted.last_le, hstarted.booked, hstarted.due, hstarted.history,
        hstarted.grants_le⟩
    | lock i => exact hfirst' _ (firstAcquire_lock limits s i) (h.lock hguard)
    | wake i => exact hfirst' _ (firstAcquire_wake limits s i) (h.wake hguard)

end Due

/-! ### Windows -/

section Windows

variable {n : Nat} {limits : Limits} {s : State n}

/-- The request of a call is not larger than the bucket. -/
def Task.IsSmall (limits : Limits) : Task → Prop
  | atLock numTokens => numTokens ≤ limits.maxTokens
  | asleep numTokens _ => numTokens ≤ limits.maxTokens
  | _ => True

/-- What was granted since the time `a`. -/
def State.grantedSince (s : State n) (a : ℚ) : ℚ := tokensOf (fun g => a ≤ g.time) s.grants

theorem grantedSince_grant (s : State n) (i : Fin n) (numTokens a : ℚ) :
    (s.grant i numTokens).grantedSince a =
      s.grantedSince a + if a ≤ s.time then numTokens else 0 := by
  have happend := tokensOf_append (fun g => a ≤ g.time) s.grants ⟨s.time, numTokens⟩
  simp only [decide_eq_true_eq] at happend
  exact happend

theorem grantedIn_grant (s : State n) (i : Fin n) (numTokens a b : ℚ) :
    (s.grant i numTokens).grantedIn a b =
      s.grantedIn a b + if a ≤ s.time ∧ s.time ≤ b then numTokens else 0 := by
  have happend := tokensOf_append (fun g => a ≤ g.time ∧ g.time ≤ b) s.grants ⟨s.time, numTokens⟩
  simp only [decide_eq_true_eq] at happend
  exact happend

/-- What holds while no request is larger than the bucket. -/
structure Steady (limits : Limits) (s : State n) : Prop where
  small : ∀ i, (s.tasks i).IsSmall limits
  tokens_nonneg : 0 ≤ s.bucket.tokens
  last_le : ∀ u ∈ s.bucket.lastUpdate, u ≤ s.time
  grants_le : ∀ g ∈ s.grants, ∃ u ∈ s.bucket.lastUpdate, g.time ≤ u
  since : ∀ u ∈ s.bucket.lastUpdate, ∀ a ≤ u,
    s.grantedSince a + s.bucket.tokens ≤ limits.maxTokens + limits.rateLimit * (u - a)
  windows : ∀ a b, a ≤ b → s.grantedIn a b ≤ limits.maxTokens + limits.rateLimit * (b - a)

theorem steady_initial (limits : Limits) (n : Nat) (time : ℚ) :
    Steady limits (initial limits n time) where
  small := fun _ => trivial
  tokens_nonneg := limits.max_nonneg
  last_le := fun u hu => by cases hu
  grants_le := fun g hg => by cases hg
  since := fun u hu => by cases hu
  windows := fun a b hab =>
    add_nonneg limits.max_nonneg (mul_nonneg limits.rate_nonneg (sub_nonneg.2 hab))

section

variable (h : Steady limits s)
include h

theorem Steady.tick {now : ℚ} (hnow : s.time ≤ now) : Steady limits { s with time := now } :=
  { h with last_le := fun u hu => (h.last_le u hu).trans hnow }

theorem Steady.setTask {i : Fin n} {task : Task}
    (hsmall : task.IsSmall limits) : Steady limits (s.setTask i task) := by
  refine { h with small := fun j => ?_ }
  show (update s.tasks i task j).IsSmall limits
  by_cases hj : j = i
  · grind
  · rw [update_of_ne hj]
    exact h.small j

theorem Steady.refilled_bounds :
    0 ≤ refilled limits s.time s.bucket ∧ refilled limits s.time s.bucket ≤ limits.maxTokens := by
  refine ⟨le_min limits.max_nonneg (add_nonneg h.tokens_nonneg ?_), min_le_left _ _⟩
  refine mul_nonneg (sub_nonneg.2 ?_) limits.rate_nonneg
  cases hupdate : s.bucket.lastUpdate with
  | none => exact le_rfl
  | some u => exact h.last_le u hupdate

theorem Steady.since_refilled {a : ℚ} (ha : a ≤ s.time) :
    s.grantedSince a + refilled limits s.time s.bucket ≤
      limits.maxTokens + limits.rateLimit * (s.time - a) := by
  by_cases hbefore : ∃ u ∈ s.bucket.lastUpdate, a ≤ u
  · obtain ⟨u, hu, hau⟩ := hbefore
    have hsince := h.since u hu a hau
    have hrefilled : refilled limits s.time s.bucket ≤
        s.bucket.tokens + (s.time - u) * limits.rateLimit :=
      refilled_le (h.last_le u hu) fun v hv => some.inj (hv.symm.trans hu)
    linarith
  · -- every grant is older than `a`
    have hzero : s.grantedSince a = 0 := by
      refine tokensOf_eq_zero fun g hg => decide_eq_false fun hag => ?_
      obtain ⟨u, hu, hgu⟩ := h.grants_le g hg
      exact hbefore ⟨u, hu, le_trans hag hgu⟩
    have hnonneg := mul_nonneg limits.rate_nonneg (sub_nonneg.2 ha)
    have hle := h.refilled_bounds.2
    linarith

theorem Steady.setBucket :
    Steady limits { s with bucket := ⟨refilled limits s.time s.bucket, some s.time⟩ } where
  small := h.small
  tokens_nonneg := h.refilled_bounds.1
  last_le := fun u hu => by
    cases hu
    exact le_rfl
  grants_le := fun g hg => by
    obtain ⟨u, hu, hgu⟩ := h.grants_le g hg
    exact ⟨s.time, rfl, hgu.trans (h.last_le u hu)⟩
  since := fun u hu a ha => by
    cases hu
    exact h.since_refilled ha
  windows := h.windows

theorem Steady.take {i : Fin n} {numTokens : ℚ}
    (henough : numTokens ≤ refilled limits s.time s.bucket) :
    Steady limits ({ s with bucket :=
      ⟨refilled limits s.time s.bucket - numTokens, some s.time⟩ }.grant i numTokens) := by
  have holder : ∀ g ∈ s.grants, g.time ≤ s.time := by
    intro g hg
    obtain ⟨u, hu, hgu⟩ := h.grants_le g hg
    exact hgu.trans (h.last_le u hu)
  have hsmall : ∀ j, ((s.setTask i .returned).tasks j).IsSmall limits :=
    (h.setTask (show Task.returned.IsSmall limits from trivial)).small
  refine ⟨hsmall, sub_nonneg.2 henough, ?_, ?_, ?_, ?_⟩
  · intro u hu
    cases hu
    exact le_rfl
  · intro g hg
    refine ⟨s.time, rfl, ?_⟩
    rcases List.mem_append.1 hg with hg | hg
    · exact holder g hg
    · rw [List.mem_singleton.1 hg]
  · intro u hu a ha
    cases hu
    have hsince := h.since_refilled ha
    rw [grantedSince_grant]
    show s.grantedSince a + (if a ≤ s.time then numTokens else 0) +
      (refilled limits s.time s.bucket - numTokens) ≤
        limits.maxTokens + limits.rateLimit * (s.time - a)
    rw [if_pos ha]
    linarith
  · intro a b hab
    rw [grantedIn_grant]
    show s.grantedIn a b + (if a ≤ s.time ∧ s.time ≤ b then numTokens else 0) ≤
      limits.maxTokens + limits.rateLimit * (b - a)
    by_cases hin : a ≤ s.time ∧ s.time ≤ b
    · have hsame : s.grantedIn a b = s.grantedSince a := by
        refine tokensOf_congr fun g hg => decide_eq_decide.2 (and_iff_left ?_)
        exact (holder g hg).trans hin.2
      have hsince := h.since_refilled hin.1
      have hrate := mul_le_mul_of_nonneg_left (sub_le_sub_right hin.2 a) limits.rate_nonneg
      rw [if_pos hin]
      linarith
    · rw [if_neg hin, add_zero]
      exact h.windows a b hab

theorem Steady.lock (i : Fin n) : Steady limits (s.lock limits i) := by
  unfold State.lock
  cases htask : s.tasks i with
  | atLock numTokens =>
    have hsmall : numTokens ≤ limits.maxTokens := by
      have hi := h.small i
      rw [htask] at hi
      exact hi
    dsimp only
    rcases acquireSection_cases limits numTokens s.time s.bucket with
      ⟨-, henough, hsection⟩ | ⟨-, waitTime, hsection⟩ | ⟨hsize, -⟩ |
        ⟨-, last, -, hlast, hsection⟩
    · rw [hsection]
      exact h.take henough
    · rw [hsection]
      exact h.setBucket.setTask hsmall
    · exact absurd hsmall (not_le.2 hsize)
    · rw [hsection, hlast hsmall]
      exact h.setBucket.setTask trivial
  | absent | asleep _ _ | returned | raised => exact h

theorem Steady.wake (i : Fin n) : Steady limits (s.wake limits i) := by
  unfold State.wake
  cases htask : s.tasks i with
  | asleep numTokens wakeAt =>
    have hsmall : numTokens ≤ limits.maxTokens := by
      have hi := h.small i
      rw [htask] at hi
      exact hi
    dsimp only
    rw [if_neg (not_lt.2 hsmall)]
    exact h.setTask hsmall
  | absent | atLock _ | returned | raised => exact h

theorem Steady.step (a : Event n) (hguard : (system limits n a).guard s)
    (hsmall : smallRequests limits s a) : Steady limits ((system limits n a).effect s) := by
  cases a with
  | tick now => exact h.tick hguard
  | call i numTokens =>
    have hsteady : Steady limits (s.setTask i (.atLock numTokens)) := h.setTask hsmall
    exact { hsteady with }
  | lock i => exact h.lock i
  | wake i => exact h.wake i

end

end Windows

/-! ## Top theorem -/

theorem tokenBucket_bounds (limits : Limits) (n : Nat) (start : ℚ) :
    (∀ s, StepSystem.Reachable (system limits n) StepSystem.anyStep (initial limits n start) s →
      ∀ t0 ∈ s.firstAcquire, ∀ t, 0 ≤ t →
        s.grantedUpTo (t0 + t) ≤ limits.maxTokens + limits.rateLimit * t) ∧
    ∀ s, StepSystem.Reachable (system limits n) (smallRequests limits) (initial limits n start) s →
      ∀ a w, 0 ≤ w → s.grantedIn a (a + w) ≤ limits.maxTokens + limits.rateLimit * w := by
  constructor
  · intro s hs t0 ht0 t ht
    have hsound : Sound limits s := hs.invariant (sound_initial limits n start)
      fun s a h hguard _ => h.step a hguard
    unfold Sound at hsound
    rw [ht0] at hsound
    have hhistory := hsound.history (t0 + t) (by linarith)
    rwa [add_sub_cancel_left] at hhistory
  · intro s hs a w hw
    have hsteady : Steady limits s := hs.invariant (steady_initial limits n start)
      fun s a h hguard hsmall => h.step a hguard hsmall
    have hwindow := hsteady.windows a (a + w) (by linarith)
    rwa [add_sub_cancel_left] at hwindow

/-- One token a second, and two at most. -/
def twoTokens : Limits :=
  Limits.new (show (0 : ℚ) ≤ 1 from by decide) (show ∀ m ∈ some (2 : ℚ), 0 ≤ m from by decide)

/-- A request of three tokens returns after a second. -/
def largeRequest : List (Event 1) := [.call 0 3, .lock 0, .tick 1, .wake 0]

/-- Two tokens, and one more a second later. -/
def smallRequest : List (Event 2) :=
  [.call 0 2, .lock 0, .call 1 1, .lock 1, .tick 1, .wake 1, .lock 1]

/-- Both bounds are reached. -/
theorem tokenBucket_bounds_twoTokens :
    let large := StepSystem.run (system twoTokens 1) (initial twoTokens 1 0) largeRequest
    let small := StepSystem.run (system twoTokens 2) (initial twoTokens 2 0) smallRequest
    (large.grantedUpTo (0 + 1) = 3 ∧ (3 : ℚ) ≤ 2 + 1 * 1) ∧
      small.grantedIn 0 (0 + 1) = 3 ∧ (3 : ℚ) ≤ 2 + 1 * 1 := by
  have hlarge : StepSystem.Reachable (system twoTokens 1) StepSystem.anyStep
      (initial twoTokens 1 0) (StepSystem.run (system twoTokens 1) (initial twoTokens 1 0)
        largeRequest) := StepSystem.reachable_run (by decide +kernel)
  have hsmall : StepSystem.Reachable (system twoTokens 2) (smallRequests twoTokens)
      (initial twoTokens 2 0) (StepSystem.run (system twoTokens 2) (initial twoTokens 2 0)
        smallRequest) := StepSystem.reachable_run (by decide +kernel)
  have hfirst := (tokenBucket_bounds twoTokens 1 0).1 _ hlarge 0 (by decide +kernel) 1 (by decide)
  have hsecond := (tokenBucket_bounds twoTokens 2 0).2 _ hsmall 0 1 (by decide)
  have hthree : (StepSystem.run (system twoTokens 1) (initial twoTokens 1 0)
      largeRequest).grantedUpTo (0 + 1) = 3 := by decide +kernel
  have hthree' : (StepSystem.run (system twoTokens 2) (initial twoTokens 2 0)
      smallRequest).grantedIn 0 (0 + 1) = 3 := by decide +kernel
  rw [hthree] at hfirst
  rw [hthree'] at hsecond
  exact ⟨⟨hthree, hfirst⟩, hthree', hsecond⟩

end Verl.TokenBucket
