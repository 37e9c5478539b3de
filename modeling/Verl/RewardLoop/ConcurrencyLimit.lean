import Verl.Lib.Parties
import Verl.Lib.StepSystem

/-! # The concurrency limit (`verl/experimental/reward_loop/reward_manager/limited.py`)

`RateLimitedRewardManager.run_single` awaits `compute_score` inside a semaphore of `max_concurrent`
permits, and no longer than `timeout`.

    compute_score    runs                        after a timeout
    coroutine        on the event loop           is cancelled, and `wait_for` waits for its end
    function         in a thread of the          goes on in its thread, while the call leaves
                     default executor            the semaphore

* `system`: the steps of any number of calls, in any order.
* `executions_le_maxConcurrent`: the bound holds in the runs in which no thread outlives the stay of
  its call in the semaphore; whatever the timeouts, it holds for some managers only. -/

namespace Verl.ConcurrencyLimit

open Function

/-! ## Algorithm -/

structure Manager where
  isAsyncRewardScore : Bool
  maxConcurrent : Nat
  /-- The threads of the default executor of the event loop. -/
  maxWorkers : Nat

/-- Where a call of `run_single` is. -/
inductive Call where
  | absent
  /-- `tokenizer.decode` is queued in the executor. -/
  | called
  | decoding
  /-- At the rate limiters, or at the semaphore. -/
  | limited
  /-- Inside the semaphore; `compute_score` has not begun. -/
  | submitted
  | executing
  /-- Timed out, still inside the semaphore; `compute_score` runs. -/
  | cancelling
  /-- Inside the semaphore; `compute_score` is over, or was cancelled before it began. -/
  | settled
  /-- Returned after a timeout; the thread still runs `compute_score`. -/
  | detached
  | returned
  deriving DecidableEq

namespace Call

/-- `compute_score` runs. -/
def executes : Call → Bool
  | executing | cancelling | detached => true
  | _ => false

/-- The call holds a permit of the semaphore. -/
def isInside : Call → Bool
  | submitted | executing | cancelling | settled => true
  | _ => false

/-- The call keeps a thread of the executor busy. -/
def onThread (m : Manager) : Call → Bool
  | decoding => true
  | executing | cancelling | detached => !m.isAsyncRewardScore
  | _ => false

end Call

inductive Action where
  | call
  | decode
  | decoded
  | acquire
  | begin
  | finish
  | timeout
  | leave

/-- What an action does to a call and to the value of the semaphore.  A timeout after the end of
`compute_score` does nothing, and is left out. -/
def next (m : Manager) (threads semaphore : Nat) : Action → Call → Option (Call × Nat)
  | .call, .absent => some (.called, semaphore)
  | .decode, .called => if threads < m.maxWorkers then some (.decoding, semaphore) else none
  | .decoded, .decoding => some (.limited, semaphore)
  | .acquire, .limited => if 0 < semaphore then some (.submitted, semaphore - 1) else none
  | .begin, .submitted =>
    if m.isAsyncRewardScore ∨ threads < m.maxWorkers then some (.executing, semaphore) else none
  | .finish, .executing => some (.settled, semaphore)
  | .finish, .cancelling => some (.settled, semaphore)
  | .finish, .detached => some (.returned, semaphore)
  -- a queued item of the executor can be cancelled, and a coroutine that has not begun
  | .timeout, .submitted => some (.settled, semaphore)
  | .timeout, .executing => some (.cancelling, semaphore)
  | .leave, .settled => some (.returned, semaphore + 1)
  -- the future of a thread is cancelled at once, a coroutine when it ends
  | .leave, .cancelling =>
    if m.isAsyncRewardScore then none else some (.detached, semaphore + 1)
  | _, _ => none

/-! ## Steps -/

structure State (n : Nat) where
  semaphore : Nat
  calls : Fin n → Call

namespace State

variable {n : Nat}

def threads (m : Manager) (s : State n) : Nat := countOf (Call.onThread m) s.calls

/-- The executions of `compute_score` that run at the same time. -/
def executions (s : State n) : Nat := countOf Call.executes s.calls

def next? (m : Manager) (s : State n) (i : Fin n) (a : Action) : Option (Call × Nat) :=
  next m (s.threads m) s.semaphore a (s.calls i)

def put (s : State n) (i : Fin n) (result : Call × Nat) : State n where
  semaphore := result.2
  calls := Function.update s.calls i result.1

end State

def system (m : Manager) (n : Nat) : StepSystem (State n) (Fin n × Action) := fun (i, a) => {
  guard := fun s => (s.next? m i a).isSome
  effect := fun s => (s.next? m i a).elim s (s.put i) }

/-- `asyncio.Semaphore(cls._max_concurrent)`, and no call yet. -/
def initial (m : Manager) (n : Nat) : State n where
  semaphore := m.maxConcurrent
  calls := fun _ => .absent

/-! ## Property -/

/-- The call does not leave the semaphore while a thread still runs its `compute_score`. -/
def keepsThread {n : Nat} (s : State n) : Fin n × Action → Prop
  | (i, .leave) => s.calls i ≠ .cancelling
  | _ => True

instance {n : Nat} (s : State n) (a : Fin n × Action) : Decidable (keepsThread s a) :=
  match a with
  | (i, .leave) => inferInstanceAs (Decidable (s.calls i ≠ .cancelling))
  | (_, .call) | (_, .decode) | (_, .decoded) | (_, .acquire) | (_, .begin) | (_, .finish)
  | (_, .timeout) => inferInstanceAs (Decidable True)

/-! ## Lemmas on one step -/

section Next

variable {m : Manager} {threads semaphore : Nat} {a : Action} {c : Call} {r : Call × Nat}

section

variable (h : next m threads semaphore a c = some r)
include h

theorem next_conserves : r.1.isInside.toNat + r.2 = c.isInside.toNat + semaphore := by
  unfold next at h
  split at h <;> grind [Call.isInside]

theorem next_onThread (hr : r.1.onThread m) : c.onThread m ∨ threads < m.maxWorkers := by
  unfold next at h
  split at h <;> grind [Call.onThread]

theorem next_detached (hr : r.1 = .detached) :
    a = .leave ∧ c = .cancelling ∧ m.isAsyncRewardScore = false := by
  unfold next at h
  split at h <;> grind

end

end Next

section Steps

variable {m : Manager} {n : Nat} {s : State n}

variable {a : Action} {C : State n → Fin n × Action → Prop} {r : Call × Nat} {i : Fin n}

theorem exists_next_of_guard (h : (system m n (i, a)).guard s) :
    ∃ r, s.next? m i a = some r ∧ (system m n (i, a)).effect s = s.put i r := by
  obtain ⟨r, hr⟩ := Option.isSome_iff_exists.1 h
  refine ⟨r, hr, ?_⟩
  show (s.next? m i a).elim s (s.put i) = s.put i r
  rw [hr]
  rfl

/-! ### Permits -/

/-- The permits that are left and the calls inside. -/
def Conserved (m : Manager) (s : State n) : Prop :=
  countOf Call.isInside s.calls + s.semaphore = m.maxConcurrent

theorem conserved_initial (m : Manager) (n : Nat) : Conserved m (initial m n) := by
  have hnone : countOf Call.isInside (initial m n).calls = 0 := countOf_eq_zero fun _ => rfl
  show countOf Call.isInside (initial m n).calls + m.maxConcurrent = m.maxConcurrent
  omega

theorem Conserved.put (h : Conserved m s)
    (hr : s.next? m i a = some r) : Conserved m (s.put i r) := by
  have hcall := next_conserves hr
  have hcount := countOf_update Call.isInside s.calls i r.1
  unfold Conserved at h
  show countOf Call.isInside (update s.calls i r.1) + r.2 = m.maxConcurrent
  omega

theorem conserved_of_reachable
    (h : StepSystem.Reachable (system m n) C (initial m n) s) : Conserved m s := by
  refine h.invariant (conserved_initial m n) fun s (i, a) hs hguard _ => ?_
  obtain ⟨r, hr, heffect⟩ := exists_next_of_guard hguard
  rw [heffect]
  exact hs.put hr

/-! ### Threads -/

theorem threads_put_le (h : s.threads m ≤ m.maxWorkers)
    (hr : s.next? m i a = some r) : (s.put i r).threads m ≤ m.maxWorkers := by
  have hcount := countOf_update (Call.onThread m) s.calls i r.1
  have hcall := next_onThread hr
  show countOf (Call.onThread m) (update s.calls i r.1) ≤ m.maxWorkers
  unfold State.threads at h hcall
  cases hthread : r.1.onThread m with
  | false =>
    rw [hthread] at hcount
    have := Bool.toNat_false
    omega
  | true =>
    rw [hthread] at hcount
    have htrue := Bool.toNat_true
    rcases hcall hthread with hkeeps | hfree
    · grind
    · omega

theorem threads_le_of_reachable
    (h : StepSystem.Reachable (system m n) C (initial m n) s) : s.threads m ≤ m.maxWorkers := by
  refine h.invariant (I := fun s => s.threads m ≤ m.maxWorkers) ?_ fun s (i, a) hs hguard _ => ?_
  · have hnone : (initial m n).threads m = 0 := countOf_eq_zero fun _ => rfl
    omega
  · obtain ⟨r, hr, heffect⟩ := exists_next_of_guard hguard
    rw [heffect]
    exact threads_put_le hs hr

/-! ### Detached executions -/

/-- No thread outlives its call. -/
def NoneDetached (s : State n) : Prop := ∀ i, s.calls i ≠ .detached

theorem noneDetached_initial (m : Manager) (n : Nat) : NoneDetached (initial m n) :=
  fun _ hcall => Call.noConfusion hcall

theorem NoneDetached.put (h : NoneDetached s)
    (hr : r.1 ≠ .detached) : NoneDetached (s.put i r) := by
  intro j
  show update s.calls i r.1 j ≠ .detached
  by_cases hj : j = i
  · grind
  · rw [update_of_ne hj]
    exact h j

theorem executions_le_of_noneDetached (hs : Conserved m s) (h : NoneDetached s) :
    s.executions ≤ m.maxConcurrent := by
  have hinside : s.executions ≤ countOf Call.isInside s.calls := by
    refine countOf_mono fun i hi => ?_
    cases hcall : s.calls i with
    | executing | cancelling => rfl
    | detached => exact absurd hcall (h i)
    | absent | called | decoding | limited | submitted | settled | returned =>
      rw [hcall] at hi
      cases hi
  unfold Conserved at hs
  omega

theorem noneDetached_of_keepsThread
    (h : StepSystem.Reachable (system m n) keepsThread (initial m n) s) : NoneDetached s := by
  refine h.invariant (noneDetached_initial m n) fun s (i, a) hs hguard hkeeps => ?_
  obtain ⟨r, hr, heffect⟩ := exists_next_of_guard hguard
  rw [heffect]
  refine hs.put fun hdetached => ?_
  obtain ⟨rfl, hcancelling, -⟩ := next_detached hr hdetached
  exact hkeeps hcancelling

theorem noneDetached_of_manager (hm : m.isAsyncRewardScore ∨ m.maxConcurrent = 0)
    (h : StepSystem.Reachable (system m n) C (initial m n) s) : NoneDetached s := by
  refine h.invariant_of_reachable (noneDetached_initial m n)
    fun s (i, a) hreach hs hguard _ => ?_
  obtain ⟨r, hr, heffect⟩ := exists_next_of_guard hguard
  rw [heffect]
  refine hs.put fun hdetached => ?_
  obtain ⟨-, hcancelling, hsync⟩ := next_detached hr hdetached
  rcases hm with hasync | hzero
  · grind
  · have hconserved := conserved_of_reachable hreach
    have hinside : 0 < countOf Call.isInside s.calls :=
      countOf_pos (i := i) (by rw [hcancelling]; rfl)
    unfold Conserved at hconserved
    omega

/-! ### Timeouts of one call after the other -/

theorem put_put (s : State n) (i : Fin n) (r r' : Call × Nat) :
    (s.put i r).put i r' = s.put i r' := by
  unfold State.put
  rw [update_idem]

theorem threads_put (m : Manager) (habsent : s.calls i = .absent)
    (hr : r.1.onThread m = false) : (s.put i r).threads m = s.threads m := by
  have hcount := countOf_update (Call.onThread m) s.calls i r.1
  rw [habsent, hr] at hcount
  exact hcount

theorem reachable_put {s₀ : State n} {r' : Call × Nat}
    (h : StepSystem.Reachable (system m n) StepSystem.anyStep s₀ (s.put i r)) (a : Action)
    (hr : next m ((s.put i r).threads m) r.2 a r.1 = some r') :
    StepSystem.Reachable (system m n) StepSystem.anyStep s₀ (s.put i r') := by
  have hnext : (s.put i r).next? m i a = some r' := by
    have hcall : (s.put i r).calls i = r.1 := by
      show update s.calls i r.1 i = r.1
      rw [update_self]
    unfold State.next?
    rw [hcall]
    exact hr
  have hguard : (system m n (i, a)).guard (s.put i r) :=
    Option.isSome_iff_exists.2 ⟨r', hnext⟩
  have heffect : (system m n (i, a)).effect (s.put i r) = s.put i r' := by
    show ((s.put i r).next? m i a).elim (s.put i r) ((s.put i r).put i) = s.put i r'
    rw [hnext]
    exact put_put s i r r'
  exact heffect ▸ h.step (i, a) hguard trivial

theorem reachable_detached (hsync : m.isAsyncRewardScore = false) {s₀ : State n}
    (h : StepSystem.Reachable (system m n) StepSystem.anyStep s₀ s) (habsent : s.calls i = .absent)
    (hpermit : 0 < s.semaphore) (hthread : s.threads m < m.maxWorkers) :
    StepSystem.Reachable (system m n) StepSystem.anyStep s₀
      (s.put i (.detached, s.semaphore)) := by
  have hfree : ∀ r : Call × Nat, r.1.onThread m = false →
      (s.put i r).threads m < m.maxWorkers := by
    intro r hr
    rw [threads_put m habsent hr]
    exact hthread
  have habsent' : s = s.put i (.absent, s.semaphore) := by
    unfold State.put
    rw [← habsent, update_eq_self]
  have hcalled := reachable_put (habsent' ▸ h) .call rfl
  have hdecoding := reachable_put hcalled .decode (if_pos (hfree _ rfl))
  have hlimited := reachable_put hdecoding .decoded rfl
  have hsubmitted := reachable_put hlimited .acquire (if_pos hpermit)
  have hexecuting := reachable_put hsubmitted .begin (if_pos (Or.inr (hfree _ rfl)))
  have hcancelling := reachable_put hexecuting .timeout rfl
  have hleft := reachable_put hcancelling .leave (if_neg (by rw [hsync]; exact Bool.false_ne_true))
  have hpermits : s.semaphore - 1 + 1 = s.semaphore := Nat.sub_add_cancel hpermit
  rwa [hpermits] at hleft

/-- The first `k` calls have left their threads running. -/
def detachedFirst (m : Manager) (n k : Nat) : State n where
  semaphore := m.maxConcurrent
  calls := fun i => if i.val < k then .detached else .absent

theorem countOf_detachedFirst (m : Manager) {k : Nat} (hk : k ≤ n) {test : Call → Bool}
    (hdetached : test .detached = true) (habsent : test .absent = false) :
    countOf test (detachedFirst m n k).calls = k := by
  have hterm : ∀ i : Fin n, (test ((detachedFirst m n k).calls i)).toNat =
      if i.val < k then 1 else 0 := by
    intro i
    show (test (if i.val < k then .detached else .absent)).toNat = _
    by_cases hi : i.val < k
    · grind
    · grind
  unfold countOf
  rw [Finset.sum_congr rfl fun i _ => hterm i, Finset.sum_boole, Nat.cast_id,
    Fin.card_filter_val_lt, min_eq_right hk]

theorem reachable_detachedFirst (hsync : m.isAsyncRewardScore = false)
    (hpermit : 0 < m.maxConcurrent) {k : Nat} (hk : k ≤ n) (hthread : k ≤ m.maxWorkers) :
    StepSystem.Reachable (system m n) StepSystem.anyStep (initial m n) (detachedFirst m n k) := by
  induction k with
  | zero => exact .init
  | succ k ih =>
    have hbefore := ih (by omega) (by omega)
    have hthreads : (detachedFirst m n k).threads m = k :=
      countOf_detachedFirst m (by omega) (by unfold Call.onThread; rw [hsync]; rfl) rfl
    have hstep := reachable_detached hsync hbefore (i := ⟨k, hk⟩) (if_neg (lt_irrefl k)) hpermit
      (by omega)
    have hafter : (detachedFirst m n k).put ⟨k, hk⟩ (.detached, m.maxConcurrent) =
        detachedFirst m n (k + 1) := by
      unfold detachedFirst State.put
      congr 1
      funext i
      by_cases hi : i = ⟨k, hk⟩
      · grind
      · grind
    exact hafter ▸ hstep

end Steps

/-! ## Top theorem -/

theorem executions_le_maxConcurrent (m : Manager) (n : Nat) :
    (∀ s, StepSystem.Reachable (system m n) keepsThread (initial m n) s →
      s.executions ≤ m.maxConcurrent) ∧
    ((∀ s, StepSystem.Reachable (system m n) StepSystem.anyStep (initial m n) s →
      s.executions ≤ m.maxConcurrent) ↔
        m.isAsyncRewardScore ∨ m.maxWorkers ≤ m.maxConcurrent ∨ n ≤ m.maxConcurrent ∨
          m.maxConcurrent = 0) := by
  refine ⟨fun s hs => executions_le_of_noneDetached (conserved_of_reachable hs)
    (noneDetached_of_keepsThread hs), fun hbound => ?_, fun hm s hs => ?_⟩
  · by_contra hm
    simp only [not_or, Bool.not_eq_true, not_le] at hm
    obtain ⟨hsync, hthread, hcalls, hpermit⟩ := hm
    have hreach := reachable_detachedFirst hsync (Nat.pos_of_ne_zero hpermit)
      (show m.maxConcurrent + 1 ≤ n from hcalls) hthread
    have hcount : (detachedFirst m n (m.maxConcurrent + 1)).executions = m.maxConcurrent + 1 :=
      countOf_detachedFirst m hcalls rfl rfl
    have hle := hbound _ hreach
    omega
  · have hinside : m.isAsyncRewardScore ∨ m.maxConcurrent = 0 → s.executions ≤ m.maxConcurrent :=
      fun h => executions_le_of_noneDetached (conserved_of_reachable hs)
        (noneDetached_of_manager h hs)
    rcases hm with hasync | hthread | hcalls | hpermit
    · exact hinside (Or.inl hasync)
    · cases hkind : m.isAsyncRewardScore with
      | true => exact hinside (Or.inl hkind)
      | false =>
        have hthreads : s.executions ≤ s.threads m := by
          refine countOf_mono fun i hi => ?_
          cases hcall : s.calls i with
          | executing | cancelling | detached =>
            unfold Call.onThread
            rw [hkind]
            rfl
          | absent | called | decoding | limited | submitted | settled | returned =>
            rw [hcall] at hi
            cases hi
        exact (hthreads.trans (threads_le_of_reachable hs)).trans hthread
    · have hcard : s.executions ≤ Fintype.card (Fin n) := countOf_le_card
      rw [Fintype.card_fin] at hcard
      exact hcard.trans hcalls
    · exact hinside (Or.inr hpermit)

/-- `max_concurrent` is 1 by default, and the executor has at least five threads. -/
def oneAtATime : Manager where
  isAsyncRewardScore := false
  maxConcurrent := 1
  maxWorkers := 5

/-- From the call until `compute_score` begins. -/
def starts (i : Fin 2) : List (Fin 2 × Action) :=
  [(i, .call), (i, .decode), (i, .decoded), (i, .acquire), (i, .begin)]

/-- The thread of the first call ends before the call leaves. -/
def endedThread : List (Fin 2 × Action) :=
  starts 0 ++ [(0, .timeout), (0, .finish), (0, .leave)] ++ starts 1

theorem executions_le_maxConcurrent_endedThread :
    let s := StepSystem.run (system oneAtATime 2) (initial oneAtATime 2) endedThread
    s.executions = 1 ∧ 1 ≤ oneAtATime.maxConcurrent := by
  have hreach : StepSystem.Reachable (system oneAtATime 2) keepsThread (initial oneAtATime 2)
      (StepSystem.run (system oneAtATime 2) (initial oneAtATime 2) endedThread) :=
    StepSystem.reachable_run (by decide +kernel)
  have hone : (StepSystem.run (system oneAtATime 2) (initial oneAtATime 2)
      endedThread).executions = 1 := by decide +kernel
  have hle := (executions_le_maxConcurrent oneAtATime 2).1 _ hreach
  exact ⟨hone, hle⟩

/-- The first call leaves while its thread runs, and the second begins. -/
def leftThread : List (Fin 2 × Action) :=
  starts 0 ++ [(0, .timeout), (0, .leave)] ++ starts 1

theorem two_executions_leftThread :
    ¬∀ s, StepSystem.Reachable (system oneAtATime 2) StepSystem.anyStep (initial oneAtATime 2) s →
      s.executions ≤ oneAtATime.maxConcurrent := by
  intro hbound
  have hreach : StepSystem.Reachable (system oneAtATime 2) StepSystem.anyStep
      (initial oneAtATime 2) (StepSystem.run (system oneAtATime 2) (initial oneAtATime 2)
        leftThread) := StepSystem.reachable_run (by decide +kernel)
  have htwo : (StepSystem.run (system oneAtATime 2) (initial oneAtATime 2)
      leftThread).executions = 2 := by decide +kernel
  have hle : 2 ≤ oneAtATime.maxConcurrent := htwo ▸ hbound _ hreach
  exact absurd hle (by decide)

end Verl.ConcurrencyLimit
