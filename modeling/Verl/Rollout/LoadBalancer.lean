import Verl.Lib.Dict
import Verl.Lib.StepSystem

/-! # The global request load balancer

`GlobalRequestLoadBalancer` keeps a table of servers, the number of requests in flight on
each, and an LRU cache that sends the turns of one request to one server.  Servers come
and go while requests run, and a release names the server only.

* `Balancer`: the actor, with `acquireServer`, `releaseServer`, `addServers` and
  `removeServers`.
* `loadBalancer`: the step system of its callers; it records every grant that is not yet
  released, with the join of the server it was made in.
* `Balanced`: the tables agree, and the counts are those of the grants.
* `FreshServers`: the condition under which they stay so (`balanced_of_reachable`); without
  it the very next state is out of balance (`freshServers_of_balanced`). -/

namespace Verl.LoadBalancer

open StepSystem List Dict Option

variable {η : Type}

/-! ## Algorithm -/

structure Balancer (η : Type) where
  servers : Dict η
  inflightRequests : Dict Nat
  /-- `cachetools.LRUCache`, the least recently used entry first. -/
  requestIdToServer : List (String × String)
  maxCacheSize : Nat

/-- `__init__`. -/
def Balancer.init (servers : Dict η) (maxCacheSize : Nat) : Except PyErr (Balancer η) :=
  if servers.items = [] then .error (.valueError "servers must be non-empty")
  else .ok {
    servers := servers
    inflightRequests := servers.mapVals fun _ _ => 0
    requestIdToServer := []
    maxCacheSize := maxCacheSize }

/-- `min(d, key=d.get)`: the first key with the least value. -/
def leastLoaded (d : Dict Nat) : Option String :=
  (d.items.foldl (fun best p =>
    match best with
    | none => some p
    | some b => if p.2 < b.2 then some p else some b) none).map Prod.fst

namespace Balancer

def increment (b : Balancer η) (serverId : String) : Balancer η :=
  match b.inflightRequests.get? serverId with
  | some n => { b with inflightRequests := b.inflightRequests.insert serverId (n + 1) }
  | none => b

/-- `return server_id, self._servers[server_id]`. -/
def grant (b : Balancer η) (serverId : String) : Balancer η × Except PyErr (String × η) :=
  (b, match b.servers.get? serverId with
    | some handle => .ok (serverId, handle)
    | none => .error (.keyError serverId))

/-- A read of the cache makes the entry the most recent one. -/
def touchCache (b : Balancer η) (requestId serverId : String) : Balancer η :=
  { b with
    requestIdToServer :=
      b.requestIdToServer.filter (·.1 != requestId) ++ [(requestId, serverId)] }

def dropCache (b : Balancer η) (requestId : String) : Balancer η :=
  { b with requestIdToServer := b.requestIdToServer.filter (·.1 != requestId) }

/-- A new entry; a full cache loses its least recent one. -/
def setCache (b : Balancer η) (requestId serverId : String) : Balancer η :=
  { b with
    requestIdToServer :=
      (if b.maxCacheSize ≤ b.requestIdToServer.length then b.requestIdToServer.tail
        else b.requestIdToServer) ++ [(requestId, serverId)] }

/-- The selection of a new server. -/
def selectServer (b : Balancer η) (requestId : String) :
    Balancer η × Except PyErr (String × η) :=
  match leastLoaded b.inflightRequests with
  | none => (b, .error (.runtimeError "No available servers in load balancer"))
  | some serverId =>
    if b.maxCacheSize = 0 then (b, .error (.valueError "value too large"))
    else ((b.setCache requestId serverId).increment serverId).grant serverId

def acquireServer (b : Balancer η) (requestId : String) :
    Balancer η × Except PyErr (String × η) :=
  match b.requestIdToServer.lookup requestId with
  | some serverId =>
    if (b.inflightRequests.get? serverId).isSome then
      ((b.touchCache requestId serverId).increment serverId).grant serverId
    else (b.dropCache requestId).selectServer requestId
  | none => b.selectServer requestId

def releaseServer (b : Balancer η) (serverId : String) : Balancer η :=
  match b.inflightRequests.get? serverId with
  | some n =>
    if 0 < n then { b with inflightRequests := b.inflightRequests.insert serverId (n - 1) }
    else b
  | none => b

/-- The body of the loop of `add_servers`. -/
def addServer (b : Balancer η) (server : String × η) : Balancer η :=
  { b with
    inflightRequests := b.inflightRequests.insert server.1 0
    servers := b.servers.insert server.1 server.2 }

def addServers (b : Balancer η) (servers : Dict η) : Balancer η :=
  servers.items.foldl addServer b

/-- The body of the loop of `remove_servers`. -/
def removeServer (b : Balancer η) (serverId : String) : Balancer η :=
  { b with
    inflightRequests := b.inflightRequests.pop serverId
    servers := b.servers.pop serverId }

def removeServers (b : Balancer η) (serverIds : List String) : Balancer η :=
  serverIds.foldl removeServer b

end Balancer

/-! ## The callers -/

/-- An acquisition: the server, and which of its stays in the pool it was made in. -/
structure Grant where
  server : String
  join : Nat
  deriving DecidableEq, Repr

structure State (η : Type) where
  balancer : Balancer η
  /-- The grants that are not yet released. -/
  granted : List Grant
  /-- How often each server has joined the pool. -/
  joins : String → Nat

namespace State

def start (balancer : Balancer η) : State η where
  balancer := balancer
  granted := []
  joins := fun _ => 0

def acquire (s : State η) (requestId : String) : State η :=
  match s.balancer.acquireServer requestId with
  | (balancer, .ok (serverId, _)) =>
    { s with balancer := balancer, granted := s.granted ++ [⟨serverId, s.joins serverId⟩] }
  | (balancer, .error _) => { s with balancer := balancer }

def release (s : State η) (g : Grant) : State η :=
  { s with balancer := s.balancer.releaseServer g.server, granted := s.granted.erase g }

/-- A server joins when it was not in the pool. -/
def addServer (s : State η) (server : String × η) : State η :=
  { s with
    balancer := s.balancer.addServer server
    joins :=
      if server.1 ∈ s.balancer.inflightRequests.keys then s.joins
      else Function.update s.joins server.1 (s.joins server.1 + 1) }

def addServers (s : State η) (servers : Dict η) : State η := servers.items.foldl addServer s

def removeServers (s : State η) (serverIds : List String) : State η :=
  { s with balancer := s.balancer.removeServers serverIds }

end State

inductive Action (η : Type)
  | acquire (requestId : String)
  | release (g : Grant)
  | addServers (servers : Dict η)
  | removeServers (serverIds : List String)

/-- Every grant is released once, at any time. -/
def loadBalancer : StepSystem (State η) (Action η)
  | .acquire requestId => {
      guard := fun _ => True
      effect := fun s => s.acquire requestId }
  | .release g => {
      guard := fun s => g ∈ s.granted
      effect := fun s => s.release g }
  | .addServers servers => {
      guard := fun _ => True
      effect := fun s => s.addServers servers }
  | .removeServers serverIds => {
      guard := fun _ => True
      effect := fun s => s.removeServers serverIds }

/-- The unreleased grants of a server, of whatever stay. -/
def running (s : State η) (serverId : String) : Nat :=
  s.granted.countP (·.server = serverId)

/-- The tables have the same keys; the count of a server is the number of the grants since
it joined, and no request runs on it beside these. -/
structure Balanced (s : State η) : Prop where
  keys : s.balancer.servers.keys = s.balancer.inflightRequests.keys
  count : ∀ serverId n, s.balancer.inflightRequests.get? serverId = some n →
    n = s.granted.count ⟨serverId, s.joins serverId⟩
  running_le : ∀ serverId n, s.balancer.inflightRequests.get? serverId = some n →
    running s serverId ≤ n

/-- The condition on a step: a server is added while no grant of it is unreleased. -/
def FreshServers (s : State η) : Action η → Prop
  | .addServers servers => ∀ serverId ∈ servers.keys, running s serverId = 0
  | _ => True

instance (s : State η) : DecidablePred (FreshServers s)
  | .addServers servers =>
    inferInstanceAs (Decidable (∀ serverId ∈ servers.keys, running s serverId = 0))
  | .acquire _ | .release _ | .removeServers _ => inferInstanceAs (Decidable True)

/-! ## Steps -/

variable {s : State η} {serverId : String} {servers : Dict η} {b : Balancer η}

theorem start_balanced {maxCacheSize : Nat}
    (h : Balancer.init servers maxCacheSize = .ok b) : Balanced (State.start b) := by
  unfold Balancer.init at h
  split at h
  · cases h
  · obtain rfl := Except.ok.inj h
    refine ⟨(keys_mapVals _ _).symm, fun serverId n hn => ?_, fun _ _ _ => Nat.zero_le _⟩
    simp only [State.start, get?_mapVals, map_eq_some_iff] at hn
    obtain ⟨-, -, rfl⟩ := hn
    rfl

theorem Balanced.congr {t : State η} (h : Balanced s)
    (hservers : t.balancer.servers = s.balancer.servers)
    (hinflight : t.balancer.inflightRequests = s.balancer.inflightRequests)
    (hgranted : t.granted = s.granted) (hjoins : t.joins = s.joins) : Balanced t where
  keys := by rw [hservers, hinflight]; exact h.keys
  count := by rw [hinflight, hgranted, hjoins]; exact h.count
  running_le := by unfold running; rw [hinflight, hgranted]; exact h.running_le

theorem Balanced.granted (h : Balanced s) {n : Nat}
    (hn : s.balancer.inflightRequests.get? serverId = some n) :
    Balanced { s with
      balancer := s.balancer.increment serverId
      granted := s.granted ++ [⟨serverId, s.joins serverId⟩] } := by
  have hmem : serverId ∈ s.balancer.inflightRequests.keys :=
    isSome_get?_iff.mp (by rw [hn]; rfl)
  have hinc : s.balancer.increment serverId =
      { s.balancer with
        inflightRequests := s.balancer.inflightRequests.insert serverId (n + 1) } := by
    unfold Balancer.increment
    rw [hn]
  rw [hinc]
  refine ⟨?_, fun sid m hm => ?_, fun sid m hm => ?_⟩
  · show s.balancer.servers.keys = (s.balancer.inflightRequests.insert serverId (n + 1)).keys
    rw [keys_insert, if_pos hmem, h.keys]
  · simp only [get?_insert] at hm
    rw [count_append, count_singleton]
    by_cases hsid : sid = serverId
    · subst hsid
      rw [if_pos rfl] at hm
      have hcount := h.count sid n hn
      have hm' := some.inj hm
      simp only [beq_self_eq_true, if_true]
      omega
    · rw [if_neg hsid] at hm
      have hne : ((⟨serverId, s.joins serverId⟩ : Grant) == ⟨sid, s.joins sid⟩) = false := by grind
      rw [hne]
      exact h.count sid m hm
  · simp only [get?_insert] at hm
    show (s.granted ++ [Grant.mk serverId (s.joins serverId)]).countP
      (fun g => g.server = sid) ≤ m
    rw [countP_append, countP_singleton]
    by_cases hsid : sid = serverId
    · subst hsid
      rw [if_pos rfl] at hm
      have hle : s.granted.countP (·.server = sid) ≤ n := h.running_le sid n hn
      have hm' := some.inj hm
      simp only [decide_true, if_true]
      omega
    · rw [if_neg hsid] at hm
      have hne : decide (serverId = sid) = false := decide_eq_false fun heq => hsid heq.symm
      rw [hne]
      exact h.running_le sid m hm

theorem mem_keys_of_leastLoaded {d : Dict Nat}
    (h : leastLoaded d = some serverId) : serverId ∈ d.keys := by
  obtain ⟨p, hp, rfl⟩ := map_eq_some_iff.mp h
  -- the best so far is an entry that was passed
  have hfold : ∀ (items : List (String × Nat)) (best : Option (String × Nat)),
      items.foldl (fun best p =>
        match best with
        | none => some p
        | some b => if p.2 < b.2 then some p else some b) best = some p →
      best = some p ∨ p ∈ items := by
    intro items
    induction items with
    | nil => exact fun best h => .inl h
    | cons q items ih =>
      intro best h
      rcases ih _ h with h | h
      · cases best with
        | none =>
          obtain rfl := some.inj h
          exact .inr mem_cons_self
        | some b =>
          simp only at h
          split at h
          · grind
          · exact .inl h
      · exact .inr (mem_cons_of_mem _ h)
  rcases hfold _ _ hp with h | h
  · cases h
  · exact mem_map_of_mem h

/-- What `acquire_server` did, as far as the tables go. -/
def Acquired (b : Balancer η) (result : Balancer η × Except PyErr (String × η)) : Prop :=
  result.1.servers = b.servers ∧
    ((∃ e, result.2 = .error e ∧ result.1.inflightRequests = b.inflightRequests) ∨
      ∃ serverId handle n, result.2 = .ok (serverId, handle) ∧
        b.inflightRequests.get? serverId = some n ∧
        result.1.inflightRequests = b.inflightRequests.insert serverId (n + 1))

theorem acquired_grant {c : Balancer η} (hkeys : b.servers.keys = b.inflightRequests.keys)
    (hservers : c.servers = b.servers) (hinflight : c.inflightRequests = b.inflightRequests)
    (hmem : serverId ∈ b.inflightRequests.keys) :
    Acquired b ((c.increment serverId).grant serverId) := by
  obtain ⟨n, hn⟩ := isSome_iff_exists.mp (isSome_get?_iff.mpr hmem)
  rw [← hkeys] at hmem
  obtain ⟨handle, hhandle⟩ := isSome_iff_exists.mp (isSome_get?_iff.mpr hmem)
  have hinc : c.increment serverId =
      { c with inflightRequests := b.inflightRequests.insert serverId (n + 1) } := by
    unfold Balancer.increment
    rw [hinflight, hn]
  rw [hinc]
  refine ⟨hservers, .inr ⟨serverId, handle, n, ?_, hn, rfl⟩⟩
  simp only [Balancer.grant, hservers, hhandle]

theorem acquired_selectServer {c : Balancer η} (requestId : String)
    (hkeys : b.servers.keys = b.inflightRequests.keys)
    (hservers : c.servers = b.servers) (hinflight : c.inflightRequests = b.inflightRequests) :
    Acquired b (c.selectServer requestId) := by
  unfold Balancer.selectServer
  rw [hinflight]
  split
  · exact ⟨hservers, .inl ⟨_, rfl, hinflight⟩⟩
  · rename_i serverId hleast
    split
    · exact ⟨hservers, .inl ⟨_, rfl, hinflight⟩⟩
    · exact acquired_grant hkeys hservers hinflight (mem_keys_of_leastLoaded hleast)

theorem acquireServer_spec (requestId : String) (hkeys : b.servers.keys = b.inflightRequests.keys) :
    Acquired b (b.acquireServer requestId) := by
  unfold Balancer.acquireServer
  split
  · split
    · rename_i hsome
      exact acquired_grant hkeys rfl rfl (isSome_get?_iff.mp hsome)
    · exact acquired_selectServer requestId hkeys rfl rfl
  · exact acquired_selectServer requestId hkeys rfl rfl

theorem balanced_acquire (h : Balanced s) (requestId : String) :
    Balanced (s.acquire requestId) := by
  obtain ⟨hservers, hcase⟩ := acquireServer_spec requestId h.keys
  unfold State.acquire
  cases hacq : s.balancer.acquireServer requestId with
  | mk c result =>
    rw [hacq] at hservers hcase
    rcases hcase with ⟨e, herr, hinflight⟩ | ⟨serverId, handle, n, hok, hn, hinflight⟩
    · simp only at herr
      subst herr
      exact h.congr hservers hinflight rfl rfl
    · simp only at hok
      subst hok
      refine (h.granted hn).congr ?_ ?_ rfl rfl
      · simp only [Balancer.increment, hn]
        exact hservers
      · simp only [Balancer.increment, hn]
        exact hinflight

theorem Balanced.join_eq (h : Balanced s) {g : Grant} (hg : g ∈ s.granted) {n : Nat}
    (hn : s.balancer.inflightRequests.get? g.server = some n) : g.join = s.joins g.server := by
  by_contra hjoin
  have hcount : n = s.granted.count ⟨g.server, s.joins g.server⟩ := h.count g.server n hn
  have hle : s.granted.countP (·.server = g.server) ≤ n := h.running_le g.server n hn
  -- without `g` there are still as many grants of the last stay
  have hperm := perm_cons_erase hg
  rw [hperm.countP_eq, countP_cons_of_pos (by simp)] at hle
  rw [hperm.count_eq, count_cons_of_ne fun heq => hjoin (by rw [heq])] at hcount
  have hsub : (s.granted.erase g).count ⟨g.server, s.joins g.server⟩ ≤
      (s.granted.erase g).countP (·.server = g.server) := by
    apply countP_mono_left
    intro x _ hx
    rw [beq_iff_eq.mp hx]
    exact decide_eq_true rfl
  omega

theorem balanced_release (h : Balanced s) {g : Grant} (hg : g ∈ s.granted) :
    Balanced (s.release g) := by
  have hperm := perm_cons_erase hg
  cases hget : s.balancer.inflightRequests.get? g.server with
  | none =>
    -- the server has left the pool: the tables stay, no count is of this server
    have hrel : s.balancer.releaseServer g.server = s.balancer := by
      unfold Balancer.releaseServer
      rw [hget]
    unfold State.release
    rw [hrel]
    refine ⟨h.keys, fun sid m hm => ?_, fun sid m hm => ?_⟩
    · have hcount := h.count sid m hm
      rw [hperm.count_eq, count_cons_of_ne] at hcount
      · exact hcount
      · grind
    · have hle : s.granted.countP (·.server = sid) ≤ m := h.running_le sid m hm
      rw [hperm.countP_eq, countP_cons] at hle
      show (s.granted.erase g).countP (fun x => x.server = sid) ≤ m
      omega
  | some n =>
    have hjoin := h.join_eq hg hget
    have hg' : g = ⟨g.server, s.joins g.server⟩ := by rw [← hjoin]
    have hcount := h.count g.server n hget
    have hle : s.granted.countP (·.server = g.server) ≤ n := h.running_le g.server n hget
    have hpos : 0 < n := by grind
    have hrel : s.balancer.releaseServer g.server =
        { s.balancer with
          inflightRequests := s.balancer.inflightRequests.insert g.server (n - 1) } := by
      unfold Balancer.releaseServer
      rw [hget]
      exact if_pos hpos
    unfold State.release
    rw [hrel]
    refine ⟨?_, fun sid m hm => ?_, fun sid m hm => ?_⟩
    · show s.balancer.servers.keys = (s.balancer.inflightRequests.insert g.server (n - 1)).keys
      rw [keys_insert, if_pos (isSome_get?_iff.mp (by rw [hget]; rfl)), h.keys]
    · simp only [get?_insert] at hm
      by_cases hsid : sid = g.server
      · grind
      · rw [if_neg hsid] at hm
        rw [h.count sid m hm, count_erase_of_ne]
        intro heq
        exact hsid (by rw [← heq])
    · simp only [get?_insert] at hm
      rw [hperm.countP_eq] at hle
      show (s.granted.erase g).countP (fun x => x.server = sid) ≤ m
      by_cases hsid : sid = g.server
      · grind
      · rw [if_neg hsid] at hm
        have hle' : s.granted.countP (·.server = sid) ≤ m := h.running_le sid m hm
        rw [hperm.countP_eq, countP_cons] at hle'
        omega

theorem balanced_addServer (h : Balanced s) {server : String × η}
    (hfresh : running s server.1 = 0) : Balanced (s.addServer server) := by
  refine ⟨?_, fun sid m hm => ?_, fun sid m hm => ?_⟩
  · show (s.balancer.servers.insert server.1 server.2).keys =
      (s.balancer.inflightRequests.insert server.1 0).keys
    rw [keys_insert, keys_insert, h.keys]
  · simp only [State.addServer, Balancer.addServer, get?_insert] at hm ⊢
    by_cases hsid : sid = server.1
    · rw [if_pos hsid] at hm
      rw [← some.inj hm, eq_comm, count_eq_zero]
      intro hmem
      have hpos : 0 < s.granted.countP (·.server = server.1) :=
        countP_pos_iff.mpr ⟨_, hmem, decide_eq_true hsid⟩
      exact Nat.lt_irrefl 0 (hfresh ▸ hpos)
    · rw [if_neg hsid] at hm
      have hjoins : (if server.1 ∈ s.balancer.inflightRequests.keys then s.joins
          else Function.update s.joins server.1 (s.joins server.1 + 1)) sid = s.joins sid := by
        grind
      rw [hjoins]
      exact h.count sid m hm
  · simp only [State.addServer, Balancer.addServer, get?_insert] at hm
    by_cases hsid : sid = server.1
    · subst hsid
      exact hfresh.trans_le (Nat.zero_le m)
    · rw [if_neg hsid] at hm
      exact h.running_le sid m hm

theorem running_addServer (s : State η) (server : String × η) (serverId : String) :
    running (s.addServer server) serverId = running s serverId := rfl

theorem balanced_addServers (h : Balanced s)
    (hfresh : ∀ serverId ∈ servers.keys, running s serverId = 0) :
    Balanced (s.addServers servers) := by
  have hfold : ∀ (items : List (String × η)) (s : State η), Balanced s →
      (∀ p ∈ items, running s p.1 = 0) → Balanced (items.foldl State.addServer s) := by
    intro items
    induction items with
    | nil => exact fun s h _ => h
    | cons p items ih =>
      intro s h hfresh
      apply ih
      · exact balanced_addServer h (hfresh p mem_cons_self)
      · intro q hq
        exact hfresh q (mem_cons_of_mem _ hq)
  exact hfold _ s h fun p hp => hfresh _ (mem_map_of_mem hp)

theorem balanced_removeServers (h : Balanced s) (serverIds : List String) :
    Balanced (s.removeServers serverIds) := by
  induction serverIds generalizing s with
  | nil => exact h
  | cons serverId serverIds ih =>
    have hone : Balanced { s with balancer := s.balancer.removeServer serverId } := by
      refine ⟨?_, fun sid m hm => ?_, fun sid m hm => ?_⟩
      · show (s.balancer.servers.pop serverId).keys =
          (s.balancer.inflightRequests.pop serverId).keys
        rw [keys_pop, keys_pop, h.keys]
      · simp only [Balancer.removeServer, get?_pop] at hm
        split at hm
        · cases hm
        · exact h.count sid m hm
      · simp only [Balancer.removeServer, get?_pop] at hm
        split at hm
        · cases hm
        · exact h.running_le sid m hm
    exact ih hone

theorem balanced_step (h : Balanced s) {a : Action η}
    (hguard : (loadBalancer a).guard s) (hfresh : FreshServers s a) :
    Balanced ((loadBalancer a).effect s) := by
  cases a with
  | acquire requestId => exact balanced_acquire h requestId
  | release g => exact balanced_release h hguard
  | addServers servers => exact balanced_addServers h hfresh
  | removeServers serverIds => exact balanced_removeServers h serverIds

theorem get?_addServers (h : serverId ∈ servers.keys) :
    (s.addServers servers).balancer.inflightRequests.get? serverId = some 0 := by
  have hfold : ∀ (items : List (String × η)) (s : State η),
      s.balancer.inflightRequests.get? serverId = some 0 ∨ serverId ∈ items.map Prod.fst →
      (items.foldl State.addServer s).balancer.inflightRequests.get? serverId = some 0 := by
    intro items
    induction items with
    | nil =>
      rintro s (h | h)
      · exact h
      · cases h
    | cons p items ih =>
      intro s h
      apply ih
      simp only [State.addServer, Balancer.addServer, get?_insert]
      by_cases hp : serverId = p.1
      · exact .inl (if_pos hp)
      · grind
  exact hfold _ s (.inr h)

theorem running_addServers (s : State η) (servers : Dict η) (serverId : String) :
    running (s.addServers servers) serverId = running s serverId := by
  unfold State.addServers
  induction servers.items generalizing s with
  | nil => rfl
  | cons p items ih => exact (ih (s.addServer p)).trans (running_addServer s p serverId)

theorem freshServers_of_balanced {a : Action η}
    (h : Balanced ((loadBalancer a).effect s)) : FreshServers s a := by
  cases a with
  | addServers servers =>
    intro serverId hmem
    have hle : running (s.addServers servers) serverId ≤ 0 :=
      h.running_le serverId 0 (get?_addServers hmem)
    rw [running_addServers] at hle
    exact Nat.le_zero.mp hle
  | acquire requestId => trivial
  | release g => trivial
  | removeServers serverIds => trivial

/-! ## Runs -/

/-- In every run that adds a server only while none of its grants is unreleased, the tables
have the same keys and the counts are those of the grants. -/
theorem balanced_of_reachable {servers : Dict η} {maxCacheSize : Nat} {b : Balancer η}
    (hinit : Balancer.init servers maxCacheSize = .ok b) {s : State η}
    (hs : Reachable loadBalancer FreshServers (State.start b) s) : Balanced s :=
  hs.invariant (start_balanced hinit) fun _ _ h hguard hfresh => balanced_step h hguard hfresh

/-- A pool of one server. -/
def oneServer : Dict Nat := Dict.ofItems [("server", 0)]

def oneBalancer : Balancer Nat where
  servers := oneServer
  inflightRequests := Dict.ofItems [("server", 0)]
  requestIdToServer := []
  maxCacheSize := 4

/-- The server leaves and joins again while its first request is running; that request ends
when the server has another one. -/
def lateRelease : List (Action Nat) :=
  [.acquire "first", .removeServers ["server"], .addServers oneServer, .acquire "second",
    .release ⟨"server", 0⟩]

/-- The second request is running, the count is zero. -/
theorem not_balanced_lateRelease : Balancer.init oneServer 4 = .ok oneBalancer ∧
      Admits loadBalancer anyStep (State.start oneBalancer) lateRelease ∧
      (run loadBalancer (State.start oneBalancer) lateRelease).granted = [⟨"server", 1⟩] ∧
      ¬Balanced (run loadBalancer (State.start oneBalancer) lateRelease) := by
  refine ⟨rfl, by decide, by decide, fun h => ?_⟩
  have hle := h.running_le "server" 0 (by decide)
  revert hle
  decide

/-- The server leaves while a request is running, and joins again after it has ended. -/
def earlyRelease : List (Action Nat) :=
  [.acquire "first", .removeServers ["server"], .acquire "second", .release ⟨"server", 0⟩,
    .addServers oneServer, .acquire "second"]

theorem balanced_earlyRelease :
    Balanced (run loadBalancer (State.start oneBalancer) earlyRelease) :=
  have hinit : Balancer.init oneServer 4 = .ok oneBalancer := rfl
  balanced_of_reachable hinit (reachable_run (by decide))

/-- All along a run the counts are those of the grants exactly if it adds servers only while none
of their grants is unreleased. -/
theorem balanced_iff_freshServers {servers : Dict η} {maxCacheSize : Nat} {b : Balancer η}
    (hinit : Balancer.init servers maxCacheSize = .ok b) {as : List (Action η)}
    (h : Admits loadBalancer anyStep (State.start b) as) :
    (∀ k, Balanced (run loadBalancer (State.start b) (as.take k))) ↔
      Admits loadBalancer FreshServers (State.start b) as :=
  keeps_iff_admits (fun _ _ hs hguard => ⟨freshServers_of_balanced, balanced_step hs hguard⟩)
    (start_balanced hinit) h

theorem balanced_iff_freshServers_earlyRelease :
    Balanced (run loadBalancer (State.start oneBalancer) (earlyRelease.take 3)) :=
  have hinit : Balancer.init oneServer 4 = .ok oneBalancer := rfl
  (balanced_iff_freshServers hinit (by decide)).mpr (by decide) 3

end Verl.LoadBalancer
