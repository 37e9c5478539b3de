import Verl.Rollout.LoadBalancer

/-! # The request counts of `NaiveRouter` (`verl/experimental/reward_loop/router/naive_router.py`)

Requests run on one event loop and are interleaved at their awaits; the counts change where a
request is assigned and where it succeeds.

* `system`: the steps of any number of requests, each attempt with any outcome.
* `Releases`: the condition on a step, that it ends no request without a release
  (`counts_of_reachable`). -/

namespace Verl.NaiveRouter

open StepSystem List LoadBalancer Dict

/-! ## Algorithm -/

structure Router where
  workerUrls : List String
  requestCounts : Dict Nat
  maxAttempts : Nat

/-- `__init__`. -/
def Router.init (workerUrls : List String) (maxAttempts : Nat) : Router where
  workerUrls := workerUrls
  requestCounts := Dict.ofItems (workerUrls.map fun url => (url, 0))
  maxAttempts := maxAttempts

/-- What one attempt ends with. -/
inductive Outcome where
  | success
  | timeoutError
  | clientConnectorError
  | clientResponseError
  | exception
  deriving DecidableEq

/-- A request that is assigned and has neither returned nor raised. -/
structure Request where
  workerUrl : String
  attempt : Nat
  deriving DecidableEq

structure State where
  router : Router
  requests : List Request

namespace State

def setCount (s : State) (url : String) (n : Nat) : State :=
  { s with router.requestCounts := s.router.requestCounts.insert url n }

/-- `request_counts[url]`, of a key. -/
def count (s : State) (url : String) : Nat := (s.router.requestCounts.get? url).getD 0

/-- `_select_worker`, in a new request; without workers the answer is the status 503. -/
def selectWorker (s : State) : State :=
  match leastLoaded s.router.requestCounts with
  | none => s
  | some url => { s.setCount url (s.count url + 1) with requests := s.requests ++ [⟨url, 0⟩] }

/-- `_release_worker`. -/
def releaseWorker (s : State) (url : String) : State := s.setCount url (s.count url - 1)

def finish (s : State) (r : Request) : State := { s with requests := s.requests.erase r }

def retry (s : State) (r : Request) : State :=
  { s with requests := s.requests.erase r ++ [⟨r.workerUrl, r.attempt + 1⟩] }

/-- The end of one attempt. -/
def attempt (s : State) (r : Request) : Outcome → State
  | .success => (s.releaseWorker r.workerUrl).finish r
  | .timeoutError | .clientConnectorError => s.retry r
  | .clientResponseError => s.finish r
  | .exception => if r.attempt + 1 = s.router.maxAttempts then s.finish r else s.retry r

end State

inductive Action where
  | request
  | attempt (r : Request) (outcome : Outcome)
  /-- The loop is over: `RuntimeError`. -/
  | exhaust (r : Request)

def system : StepSystem State Action
  | .request => {
      guard := fun _ => True
      effect := fun s => s.selectWorker }
  | .attempt r outcome => {
      guard := fun s => r ∈ s.requests ∧ r.attempt < s.router.maxAttempts
      effect := fun s => s.attempt r outcome }
  | .exhaust r => {
      guard := fun s => r ∈ s.requests ∧ s.router.maxAttempts ≤ r.attempt
      effect := fun s => s.finish r }

def start (workerUrls : List String) (maxAttempts : Nat) : State where
  router := .init workerUrls maxAttempts
  requests := []

/-- The step ends no request by an HTTP error status, by another exception in the last attempt or
because the attempts are exhausted. -/
def Releases (s : State) : Action → Prop
  | .attempt _ .clientResponseError => False
  | .attempt r .exception => r.attempt + 1 ≠ s.router.maxAttempts
  | .exhaust _ => False
  | _ => True

/-- The requests of a worker that have not finished. -/
def unfinished (s : State) (url : String) : Nat := s.requests.countP (·.workerUrl = url)

/-- The workers have a count each, the number of their unfinished requests. -/
def Balanced (workerUrls : List String) (s : State) : Prop :=
  (∀ url, url ∈ s.router.requestCounts.keys ↔ url ∈ workerUrls) ∧
    ∀ url, s.count url = unfinished s url

/-! ## Steps -/

variable {workerUrls : List String} {s : State} {r : Request}

theorem count_setCount (s : State) (k url : String) (n : Nat) :
    (s.setCount k n).count url = if url = k then n else s.count url := by
  unfold State.setCount State.count
  rw [get?_insert]
  split <;> rfl

theorem Balanced.setCount (h : Balanced workerUrls s) {k : String} (hk : k ∈ workerUrls) (n : Nat)
    (requests : List Request)
    (hcount : ∀ url, (if url = k then n else s.count url) =
      requests.countP (·.workerUrl = url)) :
    Balanced workerUrls { s.setCount k n with requests := requests } := by
  constructor
  · intro url
    show url ∈ (s.router.requestCounts.insert k n).keys ↔ _
    rw [keys_insert, if_pos ((h.1 k).mpr hk)]
    exact h.1 url
  · intro url
    exact (count_setCount s k url n).trans (hcount url)

theorem Balanced.selectWorker (h : Balanced workerUrls s) : Balanced workerUrls s.selectWorker := by
  unfold State.selectWorker
  split
  · exact h
  · rename_i k hleast
    refine h.setCount ((h.1 k).mp (mem_keys_of_leastLoaded hleast)) _ _ fun url => ?_
    have hurl : s.count url = s.requests.countP (·.workerUrl = url) := h.2 url
    by_cases hk : url = k
    · subst hk
      simp [hurl]
    · simp [hurl, hk, Ne.symm hk]

theorem unfinished_eq (hr : r ∈ s.requests) (url : String) :
    unfinished s url =
      (s.requests.erase r).countP (·.workerUrl = url) + if r.workerUrl = url then 1 else 0 := by
  unfold unfinished
  rw [(perm_cons_erase hr).countP_eq, countP_cons]
  simp only [decide_eq_true_eq]

theorem Balanced.retry (h : Balanced workerUrls s) (hr : r ∈ s.requests) :
    Balanced workerUrls (s.retry r) := by
  refine ⟨h.1, fun url => (h.2 url).trans ?_⟩
  rw [unfinished_eq hr]
  show _ = (s.requests.erase r ++ [(⟨r.workerUrl, r.attempt + 1⟩ : Request)]).countP _
  rw [countP_append, countP_singleton]
  simp only [decide_eq_true_eq]

theorem Balanced.release (h : Balanced workerUrls s) (hr : r ∈ s.requests) :
    Balanced workerUrls ((s.releaseWorker r.workerUrl).finish r) := by
  have hone := unfinished_eq hr
  have hkey : r.workerUrl ∈ workerUrls := by
    by_contra hk
    have hzero : s.count r.workerUrl = 0 := by
      unfold State.count
      rw [get?_eq_none_iff.mpr fun hmem => hk ((h.1 _).mp hmem)]
      rfl
    have hpos := (h.2 r.workerUrl).symm.trans hzero
    rw [hone, if_pos rfl] at hpos
    cases hpos
  refine h.setCount hkey _ _ fun url => ?_
  have hurl := h.2 url
  rw [hone] at hurl
  by_cases hk : url = r.workerUrl
  · subst hk
    show _ = (s.requests.erase r).countP _
    rw [if_pos rfl] at hurl ⊢
    omega
  · rw [if_neg (Ne.symm hk)] at hurl
    rw [if_neg hk]
    exact hurl

theorem Balanced.step (h : Balanced workerUrls s) {a : Action} (hguard : (system a).guard s)
    (hrel : Releases s a) : Balanced workerUrls ((system a).effect s) := by
  cases a with
  | request => exact h.selectWorker
  | attempt r outcome =>
    cases outcome with
    | success => exact h.release hguard.1
    | timeoutError => exact h.retry hguard.1
    | clientConnectorError => exact h.retry hguard.1
    | clientResponseError => exact hrel.elim
    | exception =>
      show Balanced workerUrls (if _ then _ else _)
      rw [if_neg hrel]
      exact h.retry hguard.1
  | exhaust r => exact hrel.elim

/-! ## Runs -/

theorem balanced_start (workerUrls : List String) (maxAttempts : Nat) :
    Balanced workerUrls (start workerUrls maxAttempts) := by
  have hget : ∀ url, (Dict.ofItems (workerUrls.map fun url => (url, 0))).get? url =
      if url ∈ workerUrls then some 0 else none := by
    intro url
    unfold Dict.ofItems
    rw [get?_foldl_insert_of_forall (v := 0), map_map, map_id'']
    · rfl
    · intro url
      rfl
    · intro p hp _
      obtain ⟨_, -, rfl⟩ := mem_map.mp hp
      rfl
  constructor
  · intro url
    rw [← isSome_get?_iff]
    rw [start, Router.init, hget]
    split <;> simp [*]
  · intro url
    show (Dict.get? _ url).getD 0 = 0
    rw [start, Router.init, hget]
    split <;> rfl

/-- In every run that ends no request without a release, the counts are those of the unfinished
requests; when there are none, every count is zero. -/
theorem counts_of_reachable {maxAttempts : Nat}
    (hs : Reachable system Releases (start workerUrls maxAttempts) s) :
    Balanced workerUrls s ∧ (s.requests = [] → ∀ url, s.count url = 0) := by
  have h : Balanced workerUrls s :=
    hs.invariant (balanced_start _ _) fun _ _ h hguard hrel => h.step hguard hrel
  refine ⟨h, fun hnil url => ?_⟩
  rw [h.2 url]
  unfold unfinished
  rw [hnil]
  rfl

/-- The worker answers an HTTP error status: the request is over, and the count stays. -/
theorem not_balanced_clientResponseError :
    Admits system anyStep (start ["worker"] 3)
        [.request, .attempt ⟨"worker", 0⟩ .clientResponseError] ∧
      (run system (start ["worker"] 3)
        [.request, .attempt ⟨"worker", 0⟩ .clientResponseError]).requests = [] ∧
      (run system (start ["worker"] 3)
        [.request, .attempt ⟨"worker", 0⟩ .clientResponseError]).count "worker" = 1 := by
  decide

theorem balanced_retried : Balanced ["worker"] (run system (start ["worker"] 3)
    [.request, .attempt ⟨"worker", 0⟩ .timeoutError, .attempt ⟨"worker", 1⟩ .success]) :=
  have h : Admits system Releases (start ["worker"] 3)
      [.request, .attempt ⟨"worker", 0⟩ .timeoutError, .attempt ⟨"worker", 1⟩ .success] :=
    ⟨trivial, trivial, by decide, trivial, by decide, trivial, trivial⟩
  (counts_of_reachable (reachable_run h)).1

theorem Balanced.not_finish (h : Balanced workerUrls s) (hr : r ∈ s.requests) :
    ¬Balanced workerUrls (s.finish r) := by
  intro hfinish
  have hbefore : s.count r.workerUrl = unfinished s r.workerUrl := h.2 r.workerUrl
  have hafter : s.count r.workerUrl = unfinished (s.finish r) r.workerUrl := hfinish.2 r.workerUrl
  rw [unfinished_eq hr, if_pos rfl] at hbefore
  exact Nat.succ_ne_self _ (hbefore.symm.trans hafter)

theorem Balanced.releases (h : Balanced workerUrls s) {a : Action} (hguard : (system a).guard s)
    (hstep : Balanced workerUrls ((system a).effect s)) : Releases s a := by
  cases a with
  | request => trivial
  | attempt r outcome =>
    cases outcome with
    | success => trivial
    | timeoutError => trivial
    | clientConnectorError => trivial
    | clientResponseError => exact h.not_finish hguard.1 hstep
    | exception =>
      intro hlast
      change Balanced workerUrls (if _ then _ else _) at hstep
      rw [if_pos hlast] at hstep
      exact h.not_finish hguard.1 hstep
  | exhaust r => exact h.not_finish hguard.1 hstep

/-- All along a run the counts are those of the unfinished requests exactly if it ends no request
without a release. -/
theorem balanced_iff_releases {maxAttempts : Nat} {as : List Action}
    (h : Admits system anyStep (start workerUrls maxAttempts) as) :
    (∀ k, Balanced workerUrls (run system (start workerUrls maxAttempts) (as.take k))) ↔
      Admits system Releases (start workerUrls maxAttempts) as :=
  keeps_iff_admits (fun _ _ hs hguard => ⟨hs.releases hguard, hs.step hguard⟩)
    (balanced_start _ _) h

theorem balanced_iff_releases_clientResponseError :
    ¬∀ k, Balanced ["worker"] (run system (start ["worker"] 3)
      ([.request, .attempt ⟨"worker", 0⟩ .clientResponseError].take k)) := by
  rw [balanced_iff_releases (by decide)]
  exact fun h => h.2.2.2.1

end Verl.NaiveRouter
