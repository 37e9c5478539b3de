import Verl.Rollout.LoadBalancer

/-! # The server manager of fully asynchronous training

`FullyAsyncLLMServerManager` has the standalone replicas, which serve all the time, and the
hybrid replicas, which join and leave.  It keeps lists of the serving replicas beside the pool
of the load balancer.

* `Manager`: the manager and the balancer, with `addReplicas` and `removeReplicas`; a call to
  the balancer may raise.
* `Consistent`: the lists describe the pool.
* `NoRepeats`: the condition under which they do after every call; then a call that fails or
  reports 0 changes nothing, and the active servers are counted right exactly while no hybrid
  replica serves (`manager_spec`). -/

namespace Verl.ServerManager

open StepSystem LoadBalancer List Dict

/-! ## Algorithm -/

/-- Replicas are compared by identity, which the rank gives. -/
structure Replica (η : Type) where
  replicaRank : Nat
  serverAddress : String
  serverHandle : η
  deriving DecidableEq

structure Manager (η : Type) where
  rolloutReplicas : List (Replica η)
  serverHandles : List η
  serverAddresses : List String
  /-- All hybrid replicas by resource id, also those that sleep. -/
  hybridReplicas : Dict (Replica η)
  aliveReplicas : Dict (Replica η)
  aliveAddresses : Dict String
  /-- The remote actor. -/
  globalLoadBalancer : Balancer η

namespace Manager

variable {η : Type} [DecidableEq η]

/-- `_initialize_llm_servers` and `_init_global_load_balancer`. -/
def start (standalone : List (Replica η)) (hybridReplicas : Dict (Replica η))
    (maxCacheSize : Nat) : Except PyErr (Manager η) := do
  let servers := Dict.ofItems (standalone.map fun r => (r.serverAddress, r.serverHandle))
  let balancer ← Balancer.init servers maxCacheSize
  return {
    rolloutReplicas := standalone
    serverHandles := standalone.map (·.serverHandle)
    serverAddresses := standalone.map (·.serverAddress)
    hybridReplicas := hybridReplicas
    aliveReplicas := Dict.empty
    aliveAddresses := Dict.empty
    globalLoadBalancer := balancer }

/-- The first loop of `add_replicas`: `servers_to_add` and `valid_resource_ids`. -/
def candidate (m : Manager η) (s : Dict η × List String) (rid : String) :
    Dict η × List String :=
  if rid ∈ m.aliveReplicas.keys then s
  else
    match m.hybridReplicas.get? rid with
    | none => s
    | some replica =>
      (s.1.insert replica.serverAddress replica.serverHandle, s.2 ++ [rid])

def candidates (m : Manager η) (resourceIds : List String) : Dict η × List String :=
  resourceIds.foldl m.candidate (Dict.empty, [])

def track (m : Manager η) (rid : String) (replica : Replica η) : Manager η :=
  let m :=
    if replica.serverAddress ∈ m.serverAddresses then m
    else { m with
      serverHandles := m.serverHandles ++ [replica.serverHandle]
      serverAddresses := m.serverAddresses ++ [replica.serverAddress] }
  let m :=
    if replica ∈ m.rolloutReplicas then m
    else { m with rolloutReplicas := m.rolloutReplicas ++ [replica] }
  { m with
    aliveReplicas := m.aliveReplicas.insert rid replica
    aliveAddresses := m.aliveAddresses.insert rid replica.serverAddress }

/-- The second loop of `add_replicas`; `false` if it raises. -/
def trackAll (m : Manager η) : List String → Manager η × Bool
  | [] => (m, true)
  | rid :: rids =>
    match m.hybridReplicas.get? rid with
    | none => (m, false)
    | some replica => (m.track rid replica).trackAll rids

/-- `rpc` says whether the call of the balancer returns. -/
def addReplicas (m : Manager η) (resourceIds : List String) (rpc : Bool) :
    Manager η × Except PyErr Nat :=
  let (serversToAdd, validResourceIds) := m.candidates resourceIds
  if serversToAdd.items = [] then (m, .ok 0)
  else if !rpc then (m, .ok 0)
  else
    let m := { m with globalLoadBalancer := m.globalLoadBalancer.addServers serversToAdd }
    match m.trackAll validResourceIds with
    | (m, true) => (m, .ok validResourceIds.length)
    | (m, false) => (m, .ok 0)

def forget (m : Manager η) (rid : String) (replica : Replica η) : Manager η :=
  { m with
    rolloutReplicas := m.rolloutReplicas.erase replica
    aliveReplicas := m.aliveReplicas.pop rid
    aliveAddresses := m.aliveAddresses.pop rid }

/-- The body of the second loop of `remove_replicas`; `false` if it raises. -/
def untrack (m : Manager η) (rid : String) : Manager η × Bool :=
  match m.aliveAddresses.get? rid, m.aliveReplicas.get? rid with
  | some serverAddress, some replica =>
    if serverAddress ∈ m.serverAddresses then
      let idx := m.serverAddresses.idxOf serverAddress
      let m := { m with serverAddresses := m.serverAddresses.eraseIdx idx }
      if idx < m.serverHandles.length then
        (forget { m with serverHandles := m.serverHandles.eraseIdx idx } rid replica, true)
      else (m, false)
    else (m.forget rid replica, true)
  | _, _ => (m, false)

def untrackAll (m : Manager η) : List String → Manager η × Bool
  | [] => (m, true)
  | rid :: rids =>
    match m.untrack rid with
    | (m, true) => m.untrackAll rids
    | (m, false) => (m, false)

def removeReplicas (m : Manager η) (resourceIds : List String) (rpc : Bool) :
    Manager η × Except PyErr Nat :=
  let validResourceIds := resourceIds.filter (· ∈ m.aliveReplicas.keys)
  let addresses : Except PyErr (List String) := validResourceIds.mapM fun rid =>
    match m.aliveAddresses.get? rid with
    | some serverAddress => .ok serverAddress
    | none => .error (.keyError rid)
  match addresses with
  | .error e => (m, .error e)
  | .ok serverIdsToRemove =>
    if serverIdsToRemove = [] then (m, .ok 0)
    else if !rpc then (m, .ok 0)
    else
      let m := { m with
        globalLoadBalancer := m.globalLoadBalancer.removeServers serverIdsToRemove }
      match m.untrackAll validResourceIds with
      | (m, true) => (m, .ok validResourceIds.length)
      | (m, false) => (m, .ok 0)

def getActiveServerCount (m : Manager η) : Nat :=
  m.rolloutReplicas.length + m.aliveReplicas.items.length

end Manager

/-! ## Runs -/

inductive Action
  | addReplicas (resourceIds : List String) (rpc : Bool)
  | removeReplicas (resourceIds : List String) (rpc : Bool)
  deriving DecidableEq

variable {η : Type} [DecidableEq η]

def call (m : Manager η) : Action → Manager η × Except PyErr Nat
  | .addReplicas resourceIds rpc => m.addReplicas resourceIds rpc
  | .removeReplicas resourceIds rpc => m.removeReplicas resourceIds rpc

/-- One call after another. -/
def manager : StepSystem (Manager η) Action := fun a => {
  guard := fun _ => True
  effect := fun m => (call m a).1 }

/-- The condition on a call: it does not remove an active replica twice. -/
def NoRepeats (m : Manager η) : Action → Prop
  | .addReplicas _ _ => True
  | .removeReplicas resourceIds rpc =>
    rpc = true → (resourceIds.filter (· ∈ m.aliveReplicas.keys)).Nodup

instance (m : Manager η) : DecidablePred (NoRepeats m)
  | .addReplicas _ _ => inferInstanceAs (Decidable True)
  | .removeReplicas resourceIds rpc => inferInstanceAs (Decidable
      (rpc = true → (resourceIds.filter (· ∈ m.aliveReplicas.keys)).Nodup))

/-- A call that raises or reports 0 changes nothing. -/
def Atomic (m : Manager η) (a : Action) : Prop :=
  ∀ e, (call m a).2 = .error e ∨ (call m a).2 = .ok 0 → (call m a).1 = m

/-- The lists agree with each other; no server serves under two names. -/
structure Tracked (m : Manager η) : Prop where
  addresses : m.serverAddresses = m.rolloutReplicas.map (·.serverAddress)
  handles : m.serverHandles = m.rolloutReplicas.map (·.serverHandle)
  nodup : m.serverAddresses.Nodup
  aliveAddresses : ∀ rid,
    m.aliveAddresses.get? rid = (m.aliveReplicas.get? rid).map (·.serverAddress)
  alive : ∀ rid replica, m.aliveReplicas.get? rid = some replica →
    m.hybridReplicas.get? rid = some replica ∧ replica ∈ m.rolloutReplicas
  sleeping : ∀ rid replica, m.hybridReplicas.get? rid = some replica →
    m.aliveReplicas.get? rid = none → replica.serverAddress ∉ m.serverAddresses
  hybrid : ∀ rid rid' replica replica', m.hybridReplicas.get? rid = some replica →
    m.hybridReplicas.get? rid' = some replica' →
    replica.serverAddress = replica'.serverAddress → rid = rid'

/-- The lists describe the pool of the balancer. -/
structure Consistent (m : Manager η) : Prop where
  tracked : Tracked m
  pool : ∀ address handle, m.globalLoadBalancer.servers.get? address = some handle ↔
    ∃ replica ∈ m.rolloutReplicas,
      replica.serverAddress = address ∧ replica.serverHandle = handle
  keys : m.globalLoadBalancer.servers.keys = m.globalLoadBalancer.inflightRequests.keys

/-! ## The lists -/

variable {replica : Replica η} {rids : List String} {a : Action} {m : Manager η} {rid : String}

omit [DecidableEq η] in
theorem Tracked.of_balancer (h : Tracked m) (b : Balancer η) :
    Tracked { m with globalLoadBalancer := b } :=
  ⟨h.addresses, h.handles, h.nodup, h.aliveAddresses, h.alive, h.sleeping, h.hybrid⟩

/-- A server that is not on the lists goes to their end. -/
theorem track_of_notMem (h : Tracked m) (rid : String)
    (hnew : replica.serverAddress ∉ m.serverAddresses) :
    m.track rid replica = { m with
      rolloutReplicas := m.rolloutReplicas ++ [replica]
      serverHandles := m.serverHandles ++ [replica.serverHandle]
      serverAddresses := m.serverAddresses ++ [replica.serverAddress]
      aliveReplicas := m.aliveReplicas.insert rid replica
      aliveAddresses := m.aliveAddresses.insert rid replica.serverAddress } := by
  have hreplica : replica ∉ m.rolloutReplicas := by
    intro hmem
    rw [h.addresses] at hnew
    exact hnew (mem_map_of_mem hmem)
  unfold Manager.track
  rw [if_neg hnew]
  dsimp only
  rw [if_neg hreplica]

theorem track_of_mem (h : Tracked m) (rid : String) (hmem : replica ∈ m.rolloutReplicas) :
    m.track rid replica = { m with
      aliveReplicas := m.aliveReplicas.insert rid replica
      aliveAddresses := m.aliveAddresses.insert rid replica.serverAddress } := by
  have haddress : replica.serverAddress ∈ m.serverAddresses := by
    rw [h.addresses]
    exact mem_map_of_mem hmem
  unfold Manager.track
  rw [if_pos haddress]
  dsimp only
  rw [if_pos hmem]

theorem track_spec (h : Tracked m) (hrid : m.hybridReplicas.get? rid = some replica) :
    Tracked (m.track rid replica) ∧
      ∀ x, x ∈ (m.track rid replica).rolloutReplicas ↔ x ∈ m.rolloutReplicas ∨ x = replica := by
  have haliveAddresses : ∀ key,
      (m.aliveAddresses.insert rid replica.serverAddress).get? key =
        ((m.aliveReplicas.insert rid replica).get? key).map (·.serverAddress) := by
    intro key
    rw [get?_insert, get?_insert]
    split
    · rfl
    · exact h.aliveAddresses key
  cases halive : m.aliveReplicas.get? rid with
  | some old =>
    obtain ⟨hold, hmem⟩ := h.alive rid old halive
    obtain rfl := Option.some.inj (hold.symm.trans hrid)
    rw [track_of_mem h rid hmem]
    refine ⟨⟨h.addresses, h.handles, h.nodup, haliveAddresses, ?_, ?_, h.hybrid⟩, fun x => ?_⟩
    · intro key r hr
      rw [get?_insert] at hr
      split at hr
      · grind
      · exact h.alive key r hr
    · intro key r hr hsleep
      rw [get?_insert] at hsleep
      split at hsleep
      · cases hsleep
      · exact h.sleeping key r hr hsleep
    · exact ⟨.inl, fun hx => hx.elim id fun hx => hx ▸ hmem⟩
  | none =>
    have hnew := h.sleeping rid replica hrid halive
    rw [track_of_notMem h rid hnew]
    refine ⟨⟨?_, ?_, ?_, haliveAddresses, ?_, ?_, h.hybrid⟩, fun x => ?_⟩
    · rw [h.addresses, map_append]
      rfl
    · rw [h.handles, map_append]
      rfl
    · refine nodup_append.mpr ⟨h.nodup, nodup_singleton _, ?_⟩
      rintro a ha b hb rfl
      rw [mem_singleton.mp hb] at ha
      exact hnew ha
    · intro key r hr
      rw [get?_insert] at hr
      split at hr
      · grind
      · obtain ⟨hhybrid, hmem⟩ := h.alive key r hr
        exact ⟨hhybrid, mem_append_left _ hmem⟩
    · intro key r hr hsleep
      rw [get?_insert] at hsleep
      split at hsleep
      · cases hsleep
      · rename_i hkey
        intro hmem
        rcases mem_append.mp hmem with hmem | hmem
        · exact h.sleeping key r hr hsleep hmem
        · exact hkey (h.hybrid key rid r replica hr hrid (mem_singleton.mp hmem))
    · rw [mem_append, mem_singleton]

theorem track_frame (m : Manager η) (rid : String) (replica : Replica η) :
    (m.track rid replica).hybridReplicas = m.hybridReplicas ∧
      (m.track rid replica).globalLoadBalancer = m.globalLoadBalancer := by
  unfold Manager.track
  split
  · grind
  · grind

/-- The loop ends, and all replicas it names are on the lists. -/
theorem trackAll_spec (h : Tracked m)
    (hrids : ∀ rid ∈ rids, ∃ replica, m.hybridReplicas.get? rid = some replica) :
    ∃ m', m.trackAll rids = (m', true) ∧ Tracked m' ∧
      m'.hybridReplicas = m.hybridReplicas ∧
      m'.globalLoadBalancer = m.globalLoadBalancer ∧
      ∀ x, x ∈ m'.rolloutReplicas ↔
        x ∈ m.rolloutReplicas ∨ ∃ rid ∈ rids, m.hybridReplicas.get? rid = some x := by
  induction rids generalizing m with
  | nil => exact ⟨m, rfl, h, rfl, rfl, fun x => by simp⟩
  | cons rid rids ih =>
    obtain ⟨replica, hrid⟩ := hrids rid mem_cons_self
    obtain ⟨htracked, hmem⟩ := track_spec h hrid
    obtain ⟨hhybrid, hbalancer⟩ := track_frame m rid replica
    obtain ⟨m', hrun, htracked', hhybrid', hbalancer', hmem'⟩ := ih htracked fun rid' hrid' => by
      grind
    refine ⟨m', ?_, htracked', hhybrid'.trans hhybrid, hbalancer'.trans hbalancer, fun x => ?_⟩
    · unfold Manager.trackAll
      rw [hrid]
      exact hrun
    · grind

theorem eraseIdx_idxOf_map {α β γ : Type} [DecidableEq α] [DecidableEq β] {key : α → β}
    {l : List α} (hnodup : (l.map key).Nodup) {a : α} (ha : a ∈ l) (f : α → γ) :
    (l.map f).eraseIdx ((l.map key).idxOf (key a)) = (l.erase a).map f := by
  induction l with
  | nil => cases ha
  | cons b l ih =>
    by_cases hb : b = a
    · grind
    · grind

omit [DecidableEq η] in
theorem Tracked.nodup_replicas (h : Tracked m) : m.rolloutReplicas.Nodup := by
  have hnodup := h.nodup
  rw [h.addresses] at hnodup
  exact hnodup.of_map

omit [DecidableEq η] in
/-- Two resources do not have one replica. -/
theorem Tracked.rid_eq (h : Tracked m) {rid' : String}
    (hrid : m.aliveReplicas.get? rid = some replica)
    (hrid' : m.aliveReplicas.get? rid' = some replica) : rid = rid' :=
  h.hybrid rid rid' replica replica (h.alive _ _ hrid).1 (h.alive _ _ hrid').1 rfl

theorem untrack_eq (h : Tracked m) (hrid : m.aliveReplicas.get? rid = some replica) :
    m.untrack rid = ({ m with
      rolloutReplicas := m.rolloutReplicas.erase replica
      serverHandles := (m.rolloutReplicas.erase replica).map (·.serverHandle)
      serverAddresses := (m.rolloutReplicas.erase replica).map (·.serverAddress)
      aliveReplicas := m.aliveReplicas.pop rid
      aliveAddresses := m.aliveAddresses.pop rid }, true) := by
  have hmem := (h.alive rid replica hrid).2
  have haddress : m.aliveAddresses.get? rid = some replica.serverAddress := by
    rw [h.aliveAddresses, hrid]
    rfl
  have hlisted : replica.serverAddress ∈ m.serverAddresses := by
    rw [h.addresses]
    exact mem_map_of_mem hmem
  have hnodup := h.nodup
  rw [h.addresses] at hnodup
  have hlt : m.serverAddresses.idxOf replica.serverAddress < m.serverHandles.length := by
    rw [h.handles, length_map]
    have hlt' := idxOf_lt_length_of_mem hlisted
    rw [h.addresses, length_map] at hlt'
    rw [h.addresses]
    exact hlt'
  unfold Manager.untrack
  simp only [haddress, hrid]
  rw [if_pos hlisted, if_pos hlt, h.addresses, h.handles,
    eraseIdx_idxOf_map hnodup hmem, eraseIdx_idxOf_map hnodup hmem]
  rfl

theorem untrack_spec (h : Tracked m) (hrid : m.aliveReplicas.get? rid = some replica) :
    Tracked (m.untrack rid).1 ∧ (m.untrack rid).2 = true ∧
      (m.untrack rid).1.hybridReplicas = m.hybridReplicas ∧
      (m.untrack rid).1.globalLoadBalancer = m.globalLoadBalancer ∧
      (m.untrack rid).1.aliveReplicas = m.aliveReplicas.pop rid ∧
      ∀ x, x ∈ (m.untrack rid).1.rolloutReplicas ↔ x ∈ m.rolloutReplicas ∧ x ≠ replica := by
  have hmem : ∀ x, x ∈ m.rolloutReplicas.erase replica ↔ x ∈ m.rolloutReplicas ∧ x ≠ replica := by
    intro x
    rw [h.nodup_replicas.mem_erase_iff, and_comm]
  rw [untrack_eq h hrid]
  refine ⟨⟨rfl, rfl, ?_, ?_, ?_, ?_, h.hybrid⟩, rfl, rfl, rfl, rfl, hmem⟩
  · have hnodup := h.nodup
    rw [h.addresses] at hnodup
    exact hnodup.sublist (erase_sublist.map _)
  · intro key
    rw [get?_pop, get?_pop]
    split
    · rfl
    · exact h.aliveAddresses key
  · intro key r hr
    rw [get?_pop] at hr
    split at hr
    · cases hr
    · rename_i hkey
      obtain ⟨hhybrid, hlisted⟩ := h.alive key r hr
      refine ⟨hhybrid, (hmem r).mpr ⟨hlisted, ?_⟩⟩
      rintro rfl
      exact hkey (h.rid_eq hr hrid)
  · intro key r hr hsleep hlisted
    obtain ⟨x, hx, hxr⟩ := mem_map.mp hlisted
    obtain ⟨hxlisted, hxne⟩ := (hmem x).mp hx
    rw [get?_pop] at hsleep
    split at hsleep
    · -- the replica that left
      rename_i hkey
      subst hkey
      obtain rfl := Option.some.inj (hr.symm.trans (h.alive key replica hrid).1)
      have hnodup := h.nodup
      rw [h.addresses] at hnodup
      exact hxne (inj_on_of_nodup_map hnodup hxlisted (h.alive key r hrid).2 hxr)
    · apply h.sleeping key r hr hsleep
      rw [h.addresses]
      exact mem_map.mpr ⟨x, hxlisted, hxr⟩

/-- The loop ends if no active replica is named twice, and those it names are off the lists. -/
theorem untrackAll_spec (h : Tracked m) (hnodup : rids.Nodup)
    (hrids : ∀ rid ∈ rids, ∃ replica, m.aliveReplicas.get? rid = some replica) :
    ∃ m', m.untrackAll rids = (m', true) ∧ Tracked m' ∧
      m'.globalLoadBalancer = m.globalLoadBalancer ∧
      ∀ x, x ∈ m'.rolloutReplicas ↔
        x ∈ m.rolloutReplicas ∧ ∀ rid ∈ rids, m.aliveReplicas.get? rid ≠ some x := by
  induction rids generalizing m with
  | nil => exact ⟨m, rfl, h, rfl, fun x => by simp⟩
  | cons rid rids ih =>
    obtain ⟨hrid, hnodup⟩ := nodup_cons.mp hnodup
    obtain ⟨replica, halive⟩ := hrids rid mem_cons_self
    obtain ⟨htracked, hdone, -, hbalancer, hpop, hmem⟩ := untrack_spec h halive
    -- the other replicas are still active
    have hother : ∀ rid' ∈ rids, (m.untrack rid).1.aliveReplicas.get? rid' =
        m.aliveReplicas.get? rid' := by
      intro rid' hrid'
      rw [hpop, get?_pop, if_neg]
      rintro rfl
      exact hrid hrid'
    obtain ⟨m', hrun, htracked', hbalancer', hmem'⟩ := ih htracked hnodup fun rid' hrid' => by grind
    refine ⟨m', ?_, htracked', hbalancer'.trans hbalancer, fun x => ?_⟩
    · unfold Manager.untrackAll
      rw [← Prod.mk.eta (p := m.untrack rid), hdone]
      exact hrun
    · rw [hmem', hmem, and_assoc]
      apply and_congr_right
      intro _
      constructor
      · rintro ⟨hne, hrest⟩ rid' hrid'
        rcases mem_cons.mp hrid' with rfl | hrid'
        · rw [halive]
          exact fun heq => hne (Option.some.inj heq).symm
        · rw [← hother rid' hrid']
          exact hrest rid' hrid'
      · intro hall
        refine ⟨?_, fun rid' hrid' => ?_⟩
        · rintro rfl
          exact hall rid mem_cons_self halive
        · rw [hother rid' hrid']
          exact hall rid' (mem_cons_of_mem _ hrid')

/-! ## The pool -/

omit [DecidableEq η] in
theorem get?_addServers (b : Balancer η) (servers : Dict η) (address : String) :
    (b.addServers servers).servers.get? address =
      (servers.get? address).or (b.servers.get? address) := by
  have hservers : (b.addServers servers).servers =
      servers.items.foldl (fun d p => d.insert p.1 p.2) b.servers :=
    (foldl_hom Balancer.servers fun _ _ => rfl).symm
  rw [hservers, get?_foldl_insert servers.nodup]
  rfl

omit [DecidableEq η] in
theorem keys_addServers {b : Balancer η} (servers : Dict η)
    (h : b.servers.keys = b.inflightRequests.keys) :
    (b.addServers servers).servers.keys = (b.addServers servers).inflightRequests.keys := by
  unfold Balancer.addServers
  induction servers.items generalizing b with
  | nil => exact h
  | cons p items ih =>
    apply ih
    show (b.servers.insert p.1 p.2).keys = (b.inflightRequests.insert p.1 0).keys
    rw [keys_insert, keys_insert, h]

omit [DecidableEq η] in
theorem get?_removeServers (b : Balancer η) (serverIds : List String) (address : String) :
    (b.removeServers serverIds).servers.get? address =
      if address ∈ serverIds then none else b.servers.get? address := by
  unfold Balancer.removeServers
  induction serverIds generalizing b with
  | nil => simp
  | cons serverId serverIds ih =>
    rw [foldl_cons, ih]
    show (if address ∈ serverIds then none else (b.servers.pop serverId).get? address) = _
    rw [get?_pop]
    by_cases hmem : address ∈ serverIds
    · grind
    · grind

omit [DecidableEq η] in
theorem keys_removeServers {b : Balancer η} (serverIds : List String)
    (h : b.servers.keys = b.inflightRequests.keys) :
    (b.removeServers serverIds).servers.keys =
      (b.removeServers serverIds).inflightRequests.keys := by
  induction serverIds generalizing b with
  | nil => exact h
  | cons serverId serverIds ih =>
    apply ih
    show (b.servers.pop serverId).keys = (b.inflightRequests.pop serverId).keys
    rw [keys_pop, keys_pop, h]

omit [DecidableEq η] in
/-- What the first loop of `add_replicas` collects. -/
theorem candidates_spec (h : Tracked m) (resourceIds : List String) :
    (∀ rid ∈ (m.candidates resourceIds).2, m.aliveReplicas.get? rid = none ∧
      ∃ replica, m.hybridReplicas.get? rid = some replica) ∧
    ∀ address handle, (m.candidates resourceIds).1.get? address = some handle ↔
      ∃ rid ∈ (m.candidates resourceIds).2, ∃ replica,
        m.hybridReplicas.get? rid = some replica ∧ replica.serverAddress = address ∧
          replica.serverHandle = handle := by
  have hfold : ∀ (rids : List String) (s : Dict η × List String),
      (∀ rid ∈ s.2, m.aliveReplicas.get? rid = none ∧
        ∃ replica, m.hybridReplicas.get? rid = some replica) →
      (∀ address handle, s.1.get? address = some handle ↔
        ∃ rid ∈ s.2, ∃ replica, m.hybridReplicas.get? rid = some replica ∧
          replica.serverAddress = address ∧ replica.serverHandle = handle) →
      let s' := rids.foldl m.candidate s
      (∀ rid ∈ s'.2, m.aliveReplicas.get? rid = none ∧
        ∃ replica, m.hybridReplicas.get? rid = some replica) ∧
      ∀ address handle, s'.1.get? address = some handle ↔
        ∃ rid ∈ s'.2, ∃ replica, m.hybridReplicas.get? rid = some replica ∧
          replica.serverAddress = address ∧ replica.serverHandle = handle := by
    intro rids
    induction rids with
    | nil => exact fun s hvalid hadd => ⟨hvalid, hadd⟩
    | cons rid rids ih =>
      intro s hvalid hadd
      rw [foldl_cons]
      unfold Manager.candidate
      split
      · exact ih s hvalid hadd
      · rename_i hsleeping
        cases hrid : m.hybridReplicas.get? rid with
        | none => exact ih s hvalid hadd
        | some replica =>
          apply ih
          · intro rid' hrid'
            rcases mem_append.mp hrid' with hrid' | hrid'
            · exact hvalid rid' hrid'
            · rw [mem_singleton.mp hrid']
              exact ⟨get?_eq_none_iff.mpr hsleeping, replica, hrid⟩
          · intro address handle
            rw [get?_insert]
            by_cases haddress : address = replica.serverAddress
            · rw [if_pos haddress]
              constructor
              · grind
              · rintro ⟨rid', -, replica', hrid', haddress', rfl⟩
                -- an address belongs to one resource
                obtain rfl := h.hybrid rid' rid replica' replica hrid' hrid
                  (haddress'.trans haddress)
                rw [Option.some.inj (hrid'.symm.trans hrid)]
            · grind
  refine hfold resourceIds (Dict.empty, []) (fun rid hrid => by cases hrid) fun address handle => ?_
  constructor
  · intro hget
    cases hget
  · simp

/-- What `add_replicas` did: nothing, or the pool and the lists have the new replicas. -/
theorem addReplicas_spec (h : Consistent m) (resourceIds : List String) (rpc : Bool) :
    ((m.addReplicas resourceIds rpc).1 = m ∧ (m.addReplicas resourceIds rpc).2 = .ok 0) ∨
      (Consistent (m.addReplicas resourceIds rpc).1 ∧
        ∃ n, (m.addReplicas resourceIds rpc).2 = .ok (n + 1)) := by
  obtain ⟨hvalid, hadd⟩ := candidates_spec h.tracked resourceIds
  unfold Manager.addReplicas
  generalize m.candidates resourceIds = s at hvalid hadd ⊢
  obtain ⟨serversToAdd, validResourceIds⟩ := s
  dsimp only at ⊢
  by_cases hempty : serversToAdd.items = []
  · grind
  rw [if_neg hempty]
  cases rpc with
  | false => exact .inl ⟨rfl, rfl⟩
  | true =>
    right
    have hadded := h.tracked.of_balancer (m.globalLoadBalancer.addServers serversToAdd)
    obtain ⟨m', hrun, htracked, -, hbalancer, hmem⟩ := trackAll_spec hadded
      fun rid hrid => (hvalid rid hrid).2
    simp only [hrun, Bool.not_true, Bool.false_eq_true, if_false]
    refine ⟨⟨htracked, fun address handle => ?_, ?_⟩, ?_⟩
    · rw [hbalancer, get?_addServers, Option.or_eq_some_iff, hadd]
      constructor
      · rintro (⟨rid, hrid, replica, hreplica, hx⟩ | ⟨-, hold⟩)
        · exact ⟨replica, (hmem replica).mpr (.inr ⟨rid, hrid, hreplica⟩), hx⟩
        · obtain ⟨replica, hlisted, hx⟩ := (h.pool address handle).mp hold
          exact ⟨replica, (hmem replica).mpr (.inl hlisted), hx⟩
      · rintro ⟨replica, hlisted, haddress, hhandle⟩
        rcases (hmem replica).mp hlisted with hlisted | ⟨rid, hrid, hreplica⟩
        · refine .inr ⟨Option.eq_none_iff_forall_ne_some.mpr fun handle' hget => ?_,
            (h.pool address handle).mpr ⟨replica, hlisted, haddress, hhandle⟩⟩
          -- a replica that sleeps is not on the lists
          obtain ⟨rid, hrid, replica', hreplica', haddress', -⟩ := (hadd address handle').mp hget
          apply h.tracked.sleeping rid replica' hreplica' (hvalid rid hrid).1
          rw [h.tracked.addresses, haddress', ← haddress]
          exact mem_map_of_mem hlisted
        · exact .inl ⟨rid, hrid, replica, hreplica, haddress, hhandle⟩
    · rw [hbalancer]
      exact keys_addServers serversToAdd h.keys
    · obtain ⟨p, hp⟩ := exists_mem_of_ne_nil _ hempty
      obtain ⟨rid, hrid, -⟩ := (hadd p.1 p.2).mp (get?_eq_some hp)
      obtain ⟨n, hn⟩ := Nat.exists_eq_succ_of_ne_zero (length_pos_of_mem hrid).ne'
      exact ⟨n, by rw [hn]⟩

omit [DecidableEq η] in
theorem exists_alive (m : Manager η) (resourceIds : List String) :
    ∀ rid ∈ resourceIds.filter (· ∈ m.aliveReplicas.keys),
      ∃ replica, m.aliveReplicas.get? rid = some replica := by
  intro rid hrid
  have hmem := of_decide_eq_true (mem_filter.mp hrid).2
  exact Option.isSome_iff_exists.mp (isSome_get?_iff.mpr hmem)

/-- `server_ids_to_remove`. -/
def removedAddresses (m : Manager η) (rids : List String) : List String :=
  rids.map fun rid => (m.aliveAddresses.get? rid).getD ""

/-- The balancer has dropped the servers of the replicas, the manager has not. -/
def dropServers (m : Manager η) (rids : List String) : Manager η :=
  { m with globalLoadBalancer := m.globalLoadBalancer.removeServers (removedAddresses m rids) }

omit [DecidableEq η] in
theorem mem_removedAddresses (h : Tracked m)
    (halive : ∀ rid ∈ rids, ∃ replica, m.aliveReplicas.get? rid = some replica) (address : String) :
    address ∈ removedAddresses m rids ↔
      ∃ rid ∈ rids, ∃ replica, m.aliveReplicas.get? rid = some replica ∧
        replica.serverAddress = address := by
  unfold removedAddresses
  rw [mem_map]
  apply exists_congr
  intro rid
  apply and_congr_right
  intro hrid
  obtain ⟨replica, hreplica⟩ := halive rid hrid
  rw [h.aliveAddresses, hreplica]
  constructor
  · exact fun haddress => ⟨replica, rfl, haddress⟩
  · simp

/-- The first loop of `remove_replicas` does not raise. -/
theorem removeReplicas_eq (h : Tracked m) (resourceIds : List String)
    (rpc : Bool) :
    let rids := resourceIds.filter (· ∈ m.aliveReplicas.keys)
    m.removeReplicas resourceIds rpc =
      if rids = [] then (m, .ok 0)
      else if !rpc then (m, .ok 0)
      else
        match (dropServers m rids).untrackAll rids with
        | (m, true) => (m, .ok rids.length)
        | (m, false) => (m, .ok 0) := by
  intro rids
  have haddresses : rids.mapM (fun rid => match m.aliveAddresses.get? rid with
      | some serverAddress => Except.ok serverAddress
      | none => Except.error (PyErr.keyError rid)) = .ok (removedAddresses m rids) := by
    apply mapM_eq_ok_map
    intro rid hrid
    obtain ⟨replica, hreplica⟩ := exists_alive m resourceIds rid hrid
    rw [h.aliveAddresses, hreplica]
    rfl
  unfold Manager.removeReplicas
  dsimp only
  rw [haddresses]
  simp only [removedAddresses, map_eq_nil_iff]
  rfl

theorem removeReplicas_spec (h : Consistent m) {resourceIds : List String}
    {rpc : Bool} (hnodup : rpc = true → (resourceIds.filter (· ∈ m.aliveReplicas.keys)).Nodup) :
    ((m.removeReplicas resourceIds rpc).1 = m ∧ (m.removeReplicas resourceIds rpc).2 = .ok 0) ∨
      (Consistent (m.removeReplicas resourceIds rpc).1 ∧
        ∃ n, (m.removeReplicas resourceIds rpc).2 = .ok (n + 1)) := by
  have halive := exists_alive m resourceIds
  rw [removeReplicas_eq h.tracked]
  generalize resourceIds.filter (· ∈ m.aliveReplicas.keys) = rids at hnodup halive
  by_cases hempty : rids = []
  · grind
  rw [if_neg hempty]
  cases rpc with
  | false => exact .inl ⟨rfl, rfl⟩
  | true =>
    right
    have hremoved : Tracked (dropServers m rids) := h.tracked.of_balancer _
    obtain ⟨m', hrun, htracked, hbalancer, hmem⟩ :=
      untrackAll_spec hremoved (hnodup rfl) halive
    have hids := mem_removedAddresses h.tracked halive
    simp only [hrun, Bool.not_true, Bool.false_eq_true, if_false]
    refine ⟨⟨htracked, fun address handle => ?_, ?_⟩, ?_⟩
    · rw [hbalancer]
      show (m.globalLoadBalancer.removeServers (removedAddresses m rids)).servers.get? address =
        some handle ↔ _
      rw [get?_removeServers]
      constructor
      · intro hget
        split at hget
        · cases hget
        · rename_i hnot
          obtain ⟨replica, hlisted, haddress, hhandle⟩ := (h.pool address handle).mp hget
          refine ⟨replica, (hmem replica).mpr ⟨hlisted, fun rid hrid hreplica => ?_⟩, haddress,
            hhandle⟩
          exact hnot ((hids address).mpr ⟨rid, hrid, replica, hreplica, haddress⟩)
      · rintro ⟨replica, hlisted, haddress, hhandle⟩
        obtain ⟨hold, hnot⟩ := (hmem replica).mp hlisted
        rw [if_neg]
        · exact (h.pool address handle).mpr ⟨replica, hold, haddress, hhandle⟩
        · intro hgone
          obtain ⟨rid, hrid, replica', hreplica', haddress'⟩ := (hids address).mp hgone
          have hnodup' := h.tracked.nodup
          rw [h.tracked.addresses] at hnodup'
          have heq := inj_on_of_nodup_map hnodup' hold
            (h.tracked.alive rid replica' hreplica').2 (haddress.trans haddress'.symm)
          exact hnot rid hrid (heq ▸ hreplica')
    · rw [hbalancer]
      exact keys_removeServers _ h.keys
    · obtain ⟨n, hn⟩ := Nat.exists_eq_succ_of_ne_zero (length_pos_of_ne_nil hempty).ne'
      exact ⟨n, by rw [hn]⟩

section

variable (h : Consistent m) (ha : NoRepeats m a)
include h ha

/-- A call changes nothing and reports 0, or it keeps the lists and the pool together. -/
theorem call_spec : ((call m a).1 = m ∧ (call m a).2 = .ok 0) ∨
      (Consistent (call m a).1 ∧ ∃ n, (call m a).2 = .ok (n + 1)) := by
  cases a with
  | addReplicas resourceIds rpc => exact addReplicas_spec h resourceIds rpc
  | removeReplicas resourceIds rpc => exact removeReplicas_spec h ha

theorem consistent_call : Consistent (call m a).1 := by
  rcases call_spec h ha with ⟨hsame, -⟩ | ⟨hnew, -⟩
  · rw [hsame]
    exact h
  · exact hnew

theorem atomic_call : Atomic m a := by
  intro e hresult
  rcases call_spec h ha with ⟨hsame, -⟩ | ⟨-, n, hn⟩
  · exact hsame
  · grind

end

omit [DecidableEq η] in
/-- The replicas on the lists are counted right; every active hybrid replica is counted again. -/
theorem Consistent.getActiveServerCount_eq (h : Consistent m) : m.getActiveServerCount =
      m.globalLoadBalancer.servers.keys.length + m.aliveReplicas.items.length := by
  have hperm : m.serverAddresses.Perm m.globalLoadBalancer.servers.keys := by
    refine (perm_ext_iff_of_nodup h.tracked.nodup
      m.globalLoadBalancer.servers.nodup).mpr fun address => ?_
    show _ ↔ address ∈ m.globalLoadBalancer.servers.keys
    rw [← isSome_get?_iff, Option.isSome_iff_exists, h.tracked.addresses, mem_map]
    constructor
    · rintro ⟨replica, hlisted, haddress⟩
      exact ⟨replica.serverHandle, (h.pool _ _).mpr ⟨replica, hlisted, haddress, rfl⟩⟩
    · rintro ⟨handle, hget⟩
      obtain ⟨replica, hlisted, haddress, -⟩ := (h.pool _ _).mp hget
      exact ⟨replica, hlisted, haddress⟩
  unfold Manager.getActiveServerCount
  rw [← hperm.length_eq, h.tracked.addresses, length_map]

/-! ## Repeats -/

theorem untrack_balancer (m : Manager η) (rid : String) :
    (m.untrack rid).1.globalLoadBalancer = m.globalLoadBalancer := by
  unfold Manager.untrack
  split
  · split
    · dsimp only
      split
      · rfl
      · rfl
    · rfl
  · rfl

theorem untrackAll_balancer (m : Manager η) (rids : List String) :
    (m.untrackAll rids).1.globalLoadBalancer = m.globalLoadBalancer := by
  induction rids generalizing m with
  | nil => rfl
  | cons rid rids ih =>
    unfold Manager.untrackAll
    rw [← untrack_balancer m rid]
    split
    · grind
    · grind

theorem untrack_of_none (h : Tracked m)
    (hrid : m.aliveReplicas.get? rid = none) : m.untrack rid = (m, false) := by
  have haddress : m.aliveAddresses.get? rid = none := by
    rw [h.aliveAddresses, hrid]
    rfl
  unfold Manager.untrack
  rw [haddress]

/-- The loop of `remove_replicas` ends only if no replica is named twice. -/
theorem nodup_of_untrackAll (h : Tracked m) (hdone : (m.untrackAll rids).2 = true) :
    rids.Nodup ∧ ∀ rid ∈ rids, m.aliveReplicas.get? rid ≠ none := by
  induction rids generalizing m with
  | nil => exact ⟨nodup_nil, fun rid hrid => by cases hrid⟩
  | cons rid rids ih =>
    cases halive : m.aliveReplicas.get? rid with
    | none =>
      unfold Manager.untrackAll at hdone
      rw [untrack_of_none h halive] at hdone
      cases hdone
    | some replica =>
      obtain ⟨htracked, hflag, -, -, hpop, -⟩ := untrack_spec h halive
      unfold Manager.untrackAll at hdone
      rw [← Prod.mk.eta (p := m.untrack rid), hflag] at hdone
      obtain ⟨hnodup, hrest⟩ := ih htracked hdone
      -- the replica is not active any more
      have hother : ∀ rid' ∈ rids, rid' ≠ rid ∧ m.aliveReplicas.get? rid' ≠ none := by
        intro rid' hrid'
        have hne := hrest rid' hrid'
        rw [hpop, get?_pop] at hne
        split at hne
        · exact absurd rfl hne
        · grind
      refine ⟨nodup_cons.mpr ⟨fun hmem => (hother rid hmem).1 rfl, hnodup⟩, ?_⟩
      intro rid' hrid'
      rcases mem_cons.mp hrid' with rfl | hrid'
      · grind
      · exact (hother rid' hrid').2

/-- A call that removes an active replica twice reports 0 and has changed the pool. -/
theorem noRepeats_of_atomic (h : Consistent m) (ha : Atomic m a) : NoRepeats m a := by
  cases a with
  | addReplicas resourceIds rpc => trivial
  | removeReplicas resourceIds rpc =>
    rintro rfl
    by_contra hrepeat
    obtain ⟨rid, hrid⟩ : ∃ rid, rid ∈ resourceIds.filter (· ∈ m.aliveReplicas.keys) := by grind
    have hmem := exists_alive m resourceIds
    have hresult := removeReplicas_eq h.tracked resourceIds true
    generalize resourceIds.filter (· ∈ m.aliveReplicas.keys) = rids at hrepeat hrid hmem hresult
    obtain ⟨replica, hreplica⟩ := hmem rid hrid
    have hremoved : Tracked (dropServers m rids) := h.tracked.of_balancer _
    dsimp only at hresult
    rw [if_neg (ne_nil_of_mem hrid)] at hresult
    cases hrun : (dropServers m rids).untrackAll rids with
    | mk m' done =>
      cases done with
      | true => exact hrepeat (nodup_of_untrackAll hremoved (by rw [hrun])).1
      | false =>
        simp only [hrun] at hresult
        -- the pool has lost the server of the replica
        have hsame : m' = m := by
          have hcall : call m (.removeReplicas resourceIds true) = (m', .ok 0) := hresult
          have hkept := ha .indexError
          rw [hcall] at hkept
          exact hkept (.inr rfl)
        have hbalancer : m.globalLoadBalancer =
            m.globalLoadBalancer.removeServers (removedAddresses m rids) := by
          have hkept := untrackAll_balancer (dropServers m rids) rids
          rw [hrun, hsame] at hkept
          exact hkept
        have hpool := (h.pool replica.serverAddress replica.serverHandle).mpr
          ⟨replica, (h.tracked.alive rid replica hreplica).2, rfl, rfl⟩
        rw [hbalancer, get?_removeServers, if_pos] at hpool
        · cases hpool
        · exact (mem_removedAddresses h.tracked hmem _).mpr ⟨rid, hrid, replica, hreplica, rfl⟩

/-! ## Runs from the start -/

/-- Every replica has its own address. -/
def OwnAddresses (standalone : List (Replica η)) (hybridReplicas : Dict (Replica η)) : Prop :=
  (standalone.map (·.serverAddress) ++
    hybridReplicas.items.map fun p => p.2.serverAddress).Nodup

omit [DecidableEq η] in
theorem consistent_start {standalone : List (Replica η)} {hybridReplicas : Dict (Replica η)}
    (haddresses : OwnAddresses standalone hybridReplicas) {maxCacheSize : Nat}
    (hstart : Manager.start standalone hybridReplicas maxCacheSize = .ok m) : Consistent m := by
  obtain ⟨hstandalone, hhybrid, hdisjoint⟩ := nodup_append.mp haddresses
  obtain ⟨b, hb, hm⟩ := bind_eq_ok.mp hstart
  obtain rfl := Except.ok.inj hm
  have hkeys : ((standalone.map fun r => (r.serverAddress, r.serverHandle)).map Prod.fst).Nodup := by
    grind
  unfold Balancer.init at hb
  split at hb
  · cases hb
  obtain rfl := Except.ok.inj hb
  refine ⟨⟨rfl, rfl, hstandalone, fun rid => rfl, ?_, ?_, ?_⟩, fun address handle => ?_,
    (keys_mapVals _ _).symm⟩
  · intro rid replica hrid
    cases hrid
  · intro rid replica hrid _ hmem
    have hitem := mem_items_of_get? hrid
    exact hdisjoint _ hmem _ (mem_map_of_mem (f := fun p => p.2.serverAddress) hitem) rfl
  · intro rid rid' replica replica' hrid hrid' haddress
    have heq := inj_on_of_nodup_map hhybrid (mem_items_of_get? hrid)
      (mem_items_of_get? hrid') haddress
    exact (Prod.mk.inj heq).1
  · show (Dict.ofItems _).get? address = some handle ↔ _
    rw [get?_ofItems hkeys]
    constructor
    · intro hget
      have hitem := mem_items_of_get? (d := ⟨_, hkeys⟩) hget
      obtain ⟨replica, hlisted, heq⟩ := mem_map.mp hitem
      obtain ⟨haddress, hhandle⟩ := Prod.mk.inj heq
      exact ⟨replica, hlisted, haddress, hhandle⟩
    · rintro ⟨replica, hlisted, rfl, rfl⟩
      exact get?_eq_some (d := ⟨_, hkeys⟩)
        (mem_map.mpr ⟨replica, hlisted, rfl⟩)

/-- In every run whose calls do not remove an active replica twice, the lists describe the pool
after every call; the active servers are counted right exactly if no hybrid replica is active;
and a call leaves everything as it was when it fails or reports 0, unless it repeats. -/
theorem manager_spec {standalone : List (Replica η)} {hybridReplicas : Dict (Replica η)}
    (haddresses : OwnAddresses standalone hybridReplicas) {maxCacheSize : Nat} {m₀ m : Manager η}
    (hstart : Manager.start standalone hybridReplicas maxCacheSize = .ok m₀)
    (hm : Reachable manager NoRepeats m₀ m) :
    Consistent m ∧
      (m.getActiveServerCount = m.globalLoadBalancer.servers.keys.length ↔
        m.aliveReplicas.items = []) ∧
      ∀ a, Atomic m a ↔ NoRepeats m a := by
  have h : Consistent m := hm.invariant (consistent_start haddresses hstart)
    fun _ _ hconsistent _ hrepeats => consistent_call hconsistent hrepeats
  refine ⟨h, ?_, fun a => ⟨noRepeats_of_atomic h, atomic_call h⟩⟩
  rw [h.getActiveServerCount_eq, Nat.add_eq_left, length_eq_zero_iff]

/-- One standalone replica and one hybrid replica. -/
def standaloneReplica : Replica Nat := ⟨1, "10.0.0.2:8000", 1⟩

def hybridReplica : Replica Nat := ⟨0, "10.0.0.1:8000", 0⟩

def twoServers : Manager Nat where
  rolloutReplicas := [standaloneReplica]
  serverHandles := [1]
  serverAddresses := ["10.0.0.2:8000"]
  hybridReplicas := Dict.ofItems [("hybrid_0", hybridReplica)]
  aliveReplicas := Dict.empty
  aliveAddresses := Dict.empty
  globalLoadBalancer := {
    servers := Dict.ofItems [("10.0.0.2:8000", 1)]
    inflightRequests := Dict.ofItems [("10.0.0.2:8000", 0)]
    requestIdToServer := []
    maxCacheSize := 4 }

/-- With the hybrid replica active three servers are counted and two serve; removing it twice in
one call reports 0, and it is gone. -/
theorem not_manager_hybridReplica :
    let active := (twoServers.addReplicas ["hybrid_0"] true).1
    let removed := active.removeReplicas ["hybrid_0", "hybrid_0"] true
    Manager.start [standaloneReplica] (Dict.ofItems [("hybrid_0", hybridReplica)]) 4 =
        .ok twoServers ∧
      active.getActiveServerCount = 3 ∧ active.globalLoadBalancer.servers.keys.length = 2 ∧
      removed.2 = .ok 0 ∧ removed.1.globalLoadBalancer.servers.keys.length = 1 :=
  ⟨rfl, by decide, by decide, by decide, by decide⟩

/-- The hybrid replica joins, a call of the balancer fails, and the replica leaves. -/
def joinAndLeave : List Action :=
  [.addReplicas ["hybrid_0", "hybrid_0"] true, .removeReplicas ["hybrid_0"] false,
    .removeReplicas ["hybrid_0"] true]

theorem manager_joinAndLeave : Consistent (run manager twoServers joinAndLeave) ∧
      (run manager twoServers joinAndLeave).getActiveServerCount = 1 := by
  have hstart : Manager.start [standaloneReplica] (Dict.ofItems [("hybrid_0", hybridReplica)]) 4 =
      .ok twoServers := rfl
  have haddresses : OwnAddresses [standaloneReplica]
      (Dict.ofItems [("hybrid_0", hybridReplica)]) := by
    unfold OwnAddresses
    decide
  exact ⟨(manager_spec haddresses hstart (reachable_run (by decide))).1, by decide⟩

end Verl.ServerManager
