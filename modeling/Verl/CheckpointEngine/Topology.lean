import Verl.Lib.PySlice

/-! # The topology of the NIXL chain

`NIXLCheckpointEngine.build_topology` makes the keyword arguments of every worker from the
metadata of their agents (trainers first), `CheckpointEngineManager.build_process_group` checks
the lengths and calls `init_process_group` on every worker.

    metadata:             trainers             rollouts
                      t0  t1 .. t(T-1)      r0  r1 .. r(R-1)

    chain:            t0 -> r0 -> r1 -> ... -> r(R-1)

* `buildTopology_iff`: they do, and all assertions pass, exactly for two rollout workers or more.
  For one, the slice `metadata[-1 + 1:]` is the whole list. -/

namespace Verl.CheckpointEngine.Topology

open List

structure NixlAgentMetadata where
  agentName : String
  agentMetadata : List UInt8
  zmqIp : String
  zmqPort : Nat
  deriving DecidableEq, Repr

/-- The keyword arguments of a group of workers, one value for each worker. -/
structure Kwargs where
  method : List String
  rank : List Int
  worldSize : List Nat
  prevAgentMetadata : List (Option NixlAgentMetadata)
  nextAgentMetadata : List (Option NixlAgentMetadata)
  deriving DecidableEq, Repr

/-- The keys of the dictionary with the lengths of their values. -/
def Kwargs.lengths (k : Kwargs) : List (String × Nat) :=
  [ ("method", k.method.length), ("rank", k.rank.length), ("world_size", k.worldSize.length),
    ("prev_agent_metadata", k.prevAgentMetadata.length),
    ("next_agent_metadata", k.nextAgentMetadata.length) ]

def buildTopology (trainerWorldSize rolloutWorldSize : Nat) (metadata : List NixlAgentMetadata) :
    Except PyErr (Kwargs × Kwargs) := do
  let first ← pyGet metadata (-(rolloutWorldSize : Int))
  let trainerKwargs : Kwargs :=
    { method := List.replicate trainerWorldSize "init_process_group"
      rank := [0] ++ List.replicate (trainerWorldSize - 1) (-1)
      worldSize := List.replicate trainerWorldSize (rolloutWorldSize + 1)
      prevAgentMetadata := List.replicate trainerWorldSize none
      nextAgentMetadata := [some first] ++ List.replicate (trainerWorldSize - 1) none }
  let trainer ← pyGet metadata 0
  let rolloutKwargs : Kwargs :=
    { method := List.replicate rolloutWorldSize "init_process_group"
      rank := (List.range rolloutWorldSize).map fun i : Nat => (i : Int) + 1
      worldSize := List.replicate rolloutWorldSize (rolloutWorldSize + 1)
      prevAgentMetadata := [some trainer] ++
        (plainSlice metadata (some (-(rolloutWorldSize : Int))) (some (-1))).map some
      nextAgentMetadata :=
        (plainSlice metadata (some (-(rolloutWorldSize : Int) + 1)) none).map some ++ [none] }
  .ok (trainerKwargs, rolloutKwargs)

/-- What a worker knows of its group. -/
structure ProcessGroup where
  rank : Int
  worldSize : Nat
  prevAgent : Option String
  nextAgent : Option String
  deriving DecidableEq, Repr

/-- The agents are added under the names of their metadata, which `add_remote_agent` checks. -/
def initProcessGroup (rank : Int) (worldSize : Nat) (prev next : Option NixlAgentMetadata) :
    Except PyErr ProcessGroup := do
  if rank < 0 then
    pyAssert (!prev.isSome && !next.isSome)
      s!"rank {rank} should not have prev_agent_metadata or next_agent_metadata"
  else if rank = 0 then
    pyAssert (!prev.isSome && next.isSome) s!"rank {rank} should have next_agent_metadata"
  else if 0 < rank ∧ rank < (worldSize : Int) - 1 then
    pyAssert (prev.isSome && next.isSome)
      s!"rank {rank} should have prev_agent_metadata and next_agent_metadata"
  else if rank = (worldSize : Int) - 1 then
    pyAssert (prev.isSome && !next.isSome)
      s!"rank {rank} should have prev_agent_metadata and not next_agent_metadata"
  .ok
    { rank := rank
      worldSize := worldSize
      prevAgent := prev.map NixlAgentMetadata.agentName
      nextAgent := next.map NixlAgentMetadata.agentName }

/-- `for k, v in kwargs.items(): assert len(v) == world_size`. -/
def checkLengths (name : String) (kwargs : Kwargs) (worldSize : Nat) : Except PyErr Unit :=
  kwargs.lengths.forM fun (k, length) =>
    pyAssert (length == worldSize) s!"{name}[{k}] must have length of {worldSize}"

/-- The call on each worker, with the values at its place. -/
def executeCheckpointEngine (kwargs : Kwargs) : Except PyErr (List ProcessGroup) :=
  (((kwargs.rank.zip kwargs.worldSize).zip kwargs.prevAgentMetadata).zip
    kwargs.nextAgentMetadata).mapM fun (((rank, worldSize), prev), next) =>
      initProcessGroup rank worldSize prev next

/-- What `prepare` returned for the trainers and for the rollout workers. -/
def buildProcessGroup (trainers rollouts : List NixlAgentMetadata) :
    Except PyErr (List ProcessGroup × List ProcessGroup) := do
  let (trainerKwargs, rolloutKwargs) ←
    buildTopology trainers.length rollouts.length (trainers ++ rollouts)
  checkLengths "trainer_kwargs" trainerKwargs trainers.length
  checkLengths "rollout_kwargs" rolloutKwargs rollouts.length
  let trainerGroups ← executeCheckpointEngine
    { trainerKwargs with method := List.replicate trainers.length "init_process_group" }
  let rolloutGroups ← executeCheckpointEngine
    { rolloutKwargs with method := List.replicate rollouts.length "init_process_group" }
  .ok (trainerGroups, rolloutGroups)

/-! ## The chain -/

/-- The agents of the chain, by rank. -/
def chain (trainers rollouts : List NixlAgentMetadata) : List NixlAgentMetadata :=
  trainers.take 1 ++ rollouts

/-- One value for each of `n` workers. -/
def Kwargs.HasLength (k : Kwargs) (n : Nat) : Prop := ∀ p ∈ k.lengths, p.2 = n

/-- The arguments describe the chain: trainer 0 and the rollout workers have their neighbours, the
other trainers have none. -/
structure IsChain (trainers rollouts : List NixlAgentMetadata) (tk rk : Kwargs) : Prop where
  trainerLength : tk.HasLength trainers.length
  rolloutLength : rk.HasLength rollouts.length
  trainer : ∀ i < trainers.length,
    tk.rank[i]? = some (if i = 0 then 0 else -1) ∧
    tk.worldSize[i]? = some (rollouts.length + 1) ∧
    tk.prevAgentMetadata[i]? = some none ∧
    tk.nextAgentMetadata[i]? = some (if i = 0 then (chain trainers rollouts)[1]? else none)
  rollout : ∀ k < rollouts.length,
    rk.rank[k]? = some ((k : Int) + 1) ∧
    rk.worldSize[k]? = some (rollouts.length + 1) ∧
    rk.prevAgentMetadata[k]? = some (chain trainers rollouts)[k]? ∧
    rk.nextAgentMetadata[k]? = some (chain trainers rollouts)[k + 2]?

/-- `build_topology` describes the chain, and no assertion fails with what it returns. -/
def BuildsChain (trainers rollouts : List NixlAgentMetadata) : Prop :=
  (∃ tk rk, buildTopology trainers.length rollouts.length (trainers ++ rollouts) = .ok (tk, rk) ∧
    IsChain trainers rollouts tk rk) ∧
  ∃ groups, buildProcessGroup trainers rollouts = .ok groups

/-! ## What `build_topology` returns -/

variable {trainers rollouts : List NixlAgentMetadata}

theorem checkLengths_eq_ok {name : String} {k : Kwargs} {n : Nat} (h : k.HasLength n) :
    checkLengths name k n = .ok () := by
  have hassert : ∀ l : List (String × Nat), (∀ p ∈ l, p.2 = n) →
      (l.forM fun (k, length) => pyAssert (length == n)
        s!"{name}[{k}] must have length of {n}") = Except.ok () := by
    intro l
    induction l with
    | nil => exact fun _ => rfl
    | cons p l ih =>
      intro hl
      have hp : (p.2 == n) = true := beq_iff_eq.2 (hl p mem_cons_self)
      show (pyAssert (p.2 == n) _ >>= fun _ => l.forM _) = _
      rw [hp]
      exact ih fun q hq => hl q (mem_cons_of_mem _ hq)
  exact hassert k.lengths h

theorem slice_prev (hT : trainers ≠ []) (hR : 2 ≤ rollouts.length) :
    plainSlice (trainers ++ rollouts) (some (-(rollouts.length : Int))) (some (-1)) =
      rollouts.take (rollouts.length - 1) := by
  refine (plainSlice_neg (a := rollouts.length) (b := 1) Nat.one_pos (by omega)
    (by rw [length_append]; omega)).trans ?_
  have hpos := length_pos_iff.2 hT
  have hstart : (trainers ++ rollouts).length - rollouts.length = trainers.length := by simp
  have hstop : (trainers ++ rollouts).length - 1 = trainers.length + (rollouts.length - 1) := by
    omega
  rw [hstart, hstop, take_length_add_append, drop_left]

theorem slice_next (hR : 2 ≤ rollouts.length) :
    plainSlice (trainers ++ rollouts) (some (-(rollouts.length : Int) + 1)) none =
      rollouts.drop 1 := by
  have hneg : -(rollouts.length : Int) + 1 = -((rollouts.length - 1 : Nat) : Int) := by omega
  rw [hneg, plainSlice_from_neg (by omega) (by rw [length_append]; omega)]
  have hstart : (trainers ++ rollouts).length - (rollouts.length - 1) = trainers.length + 1 := by
    grind
  rw [hstart, drop_length_add_append]

theorem slice_next_of_one (hR : rollouts.length = 1) :
    plainSlice (trainers ++ rollouts) (some (-(rollouts.length : Int) + 1)) none =
      trainers ++ rollouts := by
  have hneg : -(rollouts.length : Int) + 1 = -((0 : Nat) : Int) := by omega
  rw [hneg, plainSlice_from_zero]

theorem buildTopology_eq {t r : NixlAgentMetadata} {ts rs : List NixlAgentMetadata} :
    buildTopology (t :: ts).length (r :: rs).length (t :: ts ++ r :: rs) = .ok
      ({ method := replicate (ts.length + 1) "init_process_group"
         rank := [0] ++ replicate ts.length (-1)
         worldSize := replicate (ts.length + 1) (rs.length + 2)
         prevAgentMetadata := replicate (ts.length + 1) none
         nextAgentMetadata := [some r] ++ replicate ts.length none },
       { method := replicate (rs.length + 1) "init_process_group"
         rank := (range (rs.length + 1)).map fun i : Nat => (i : Int) + 1
         worldSize := replicate (rs.length + 1) (rs.length + 2)
         prevAgentMetadata := [some t] ++ (plainSlice (t :: ts ++ r :: rs)
           (some (-((r :: rs).length : Int))) (some (-1))).map some
         nextAgentMetadata := (plainSlice (t :: ts ++ r :: rs)
           (some (-((r :: rs).length : Int) + 1)) none).map some ++ [none] }) := by
  have hfirst : pyGet (t :: ts ++ r :: rs) (-((r :: rs).length : Int)) = .ok r := by
    apply pyGet_neg
    · simp
    · grind
    · grind
  have htrainer : pyGet (t :: ts ++ r :: rs) 0 = .ok t := pyGet_nat (k := 0) rfl
  unfold buildTopology
  rw [hfirst, htrainer]
  rfl

/-! ## Two rollout workers or more -/

theorem isChain_of_two (t r : NixlAgentMetadata) (ts : List NixlAgentMetadata)
    {rs : List NixlAgentMetadata} (hR : rs ≠ []) :
    ∃ tk rk, buildTopology (t :: ts).length (r :: rs).length (t :: ts ++ r :: rs) =
      .ok (tk, rk) ∧ IsChain (t :: ts) (r :: rs) tk rk := by
  have htwo : 2 ≤ (r :: rs).length := by
    have := length_pos_iff.2 hR
    rw [length_cons]
    omega
  refine ⟨_, _, buildTopology_eq, ?_⟩
  rw [slice_prev (cons_ne_nil t ts) htwo, slice_next htwo]
  constructor
  case trainerLength =>
    intro p hp
    simp only [Kwargs.lengths, mem_cons, not_mem_nil, or_false] at hp
    rcases hp with rfl | rfl | rfl | rfl | rfl <;>
      simp only [length_replicate, length_append, length_cons, length_nil] <;>
      omega
  case rolloutLength =>
    intro p hp
    simp only [Kwargs.lengths, mem_cons, not_mem_nil, or_false] at hp
    rcases hp with rfl | rfl | rfl | rfl | rfl <;>
      simp only [length_replicate, length_append, length_cons, length_nil,
        length_map, length_range, length_take, length_drop] <;>
      omega
  case trainer =>
    intro i hi
    cases i with
    | zero => exact ⟨rfl, rfl, rfl, rfl⟩
    | succ i =>
      refine ⟨?_, ?_, ?_, ?_⟩
      · grind
      · exact getElem?_replicate_of_lt hi
      · exact getElem?_replicate_of_lt hi
      · grind
  case rollout =>
    intro k hk
    rw [length_cons] at hk
    refine ⟨?_, getElem?_replicate_of_lt hk, ?_, ?_⟩
    · grind
    · -- the neighbour before worker `k` is at place `k` of the chain
      cases k with
      | zero => rfl
      | succ k =>
        show (((r :: rs).take _).map some)[k]? = some (r :: rs)[k]?
        rw [getElem?_map, getElem?_take_of_lt (by rw [length_cons]; omega),
          getElem?_eq_getElem (by rw [length_cons]; omega)]
        rfl
    · show (((r :: rs).drop 1).map some ++ [none])[k]? = some rs[k]?
      by_cases hlast : k < rs.length
      · grind
      · grind

theorem exists_executeCheckpointEngine {k : Kwargs}
    (h : ∀ (i : Nat) rank worldSize prev next, k.rank[i]? = some rank → k.worldSize[i]? = some worldSize →
      k.prevAgentMetadata[i]? = some prev → k.nextAgentMetadata[i]? = some next →
        ∃ group, initProcessGroup rank worldSize prev next = .ok group) :
    ∃ groups, executeCheckpointEngine k = .ok groups := by
  refine exists_mapM_iff.2 fun x hx => ?_
  obtain ⟨⟨⟨rank, worldSize⟩, prev⟩, next⟩ := x
  obtain ⟨i, hi⟩ := mem_iff_getElem?.1 hx
  obtain ⟨hi, hnext⟩ := getElem?_zip_eq_some.1 hi
  obtain ⟨hi, hprev⟩ := getElem?_zip_eq_some.1 hi
  obtain ⟨hrank, hworld⟩ := getElem?_zip_eq_some.1 hi
  exact h i rank worldSize prev next hrank hworld hprev hnext

section

variable {tk rk : Kwargs} (h : IsChain trainers rollouts tk rk)
include h

theorem IsChain.trainers_ok (hR : rollouts ≠ []) : ∃ groups, executeCheckpointEngine tk = .ok groups := by
  refine exists_executeCheckpointEngine fun i rank worldSize prev next hrank hworld hprev hnext => ?_
  have hlt : i < trainers.length := by
    have hlen := h.trainerLength ("rank", tk.rank.length) (by simp [Kwargs.lengths])
    rw [← hlen]
    exact (List.getElem?_eq_some_iff.1 hrank).1
  obtain ⟨hrank', -, hprev', hnext'⟩ := h.trainer i hlt
  rw [hrank] at hrank'
  rw [hprev] at hprev'
  rw [hnext] at hnext'
  cases hprev'
  cases hrank'
  cases hnext'
  by_cases hi : i = 0
  · subst hi
    have hone : (chain trainers rollouts)[1]?.isSome = true := by
      have hpos := length_pos_iff.2 hR
      have hlen : (chain trainers rollouts).length = 1 + rollouts.length := by
        unfold chain
        rw [length_append, length_take]
        omega
      rw [getElem?_eq_getElem (by omega)]
      rfl
    unfold initProcessGroup
    simp only [if_pos, hone]
    exact ⟨_, rfl⟩
  · unfold initProcessGroup
    simp only [if_neg hi]
    exact ⟨_, rfl⟩

theorem IsChain.rollouts_ok (hT : trainers ≠ []) : ∃ groups, executeCheckpointEngine rk = .ok groups := by
  refine exists_executeCheckpointEngine fun k rank worldSize prev next hrank hworld hprev hnext => ?_
  have hlt : k < rollouts.length := by
    have hlen := h.rolloutLength ("rank", rk.rank.length) (by simp [Kwargs.lengths])
    rw [← hlen]
    exact (List.getElem?_eq_some_iff.1 hrank).1
  obtain ⟨hrank', hworld', hprev', hnext'⟩ := h.rollout k hlt
  rw [hrank] at hrank'
  rw [hworld] at hworld'
  rw [hprev] at hprev'
  rw [hnext] at hnext'
  cases hrank'
  cases hworld'
  cases hprev'
  cases hnext'
  have hlen : (chain trainers rollouts).length = 1 + rollouts.length := by
    have hpos := length_pos_iff.2 hT
    unfold chain
    rw [length_append, length_take]
    omega
  have hprevSome : (chain trainers rollouts)[k]?.isSome = true := by grind
  have hnextSome : (chain trainers rollouts)[k + 2]?.isSome = decide (k + 1 < rollouts.length) := by
    grind
  unfold initProcessGroup
  rw [if_neg (by omega), if_neg (by omega), hprevSome, hnextSome]
  by_cases hnext : k + 1 < rollouts.length
  · rw [if_pos (by omega), decide_eq_true hnext]
    exact ⟨_, rfl⟩
  · rw [if_neg (by omega), if_pos (by omega), decide_eq_false hnext]
    exact ⟨_, rfl⟩

theorem IsChain.buildProcessGroup_ok (hbuild : buildTopology trainers.length rollouts.length (trainers ++ rollouts) = .ok (tk, rk))
    (hT : trainers ≠ []) (hR : rollouts ≠ []) :
    ∃ groups, buildProcessGroup trainers rollouts = .ok groups := by
  obtain ⟨trainerGroups, htrainers⟩ := h.trainers_ok hR
  obtain ⟨rolloutGroups, hrollouts⟩ := h.rollouts_ok hT
  refine ⟨(trainerGroups, rolloutGroups), ?_⟩
  unfold buildProcessGroup
  rw [hbuild, ok_bind]
  dsimp only
  rw [checkLengths_eq_ok h.trainerLength, checkLengths_eq_ok h.rolloutLength]
  show (do
    let trainerGroups ← executeCheckpointEngine tk
    let rolloutGroups ← executeCheckpointEngine rk
    Except.ok (trainerGroups, rolloutGroups)) = _
  rw [htrainers, hrollouts]
  rfl

end

/-! ## All world sizes -/

/-- With one rollout worker `next_agent_metadata` has a value for every agent and one more. -/
theorem not_isChain_of_one {t r : NixlAgentMetadata} {ts : List NixlAgentMetadata} {tk rk : Kwargs}
    (hbuild : buildTopology (t :: ts).length [r].length (t :: ts ++ [r]) = .ok (tk, rk)) :
    ¬IsChain (t :: ts) [r] tk rk := by
  intro h
  rw [buildTopology_eq, slice_next_of_one rfl] at hbuild
  cases hbuild
  have hlen := h.rolloutLength (_, _)
    (mem_cons_of_mem _ (mem_cons_of_mem _ (mem_cons_of_mem _
      (mem_cons_of_mem _ mem_cons_self))))
  simp only [length_append, length_map, length_cons] at hlen
  omega

theorem buildsChain_iff (hT : trainers ≠ []) (hR : rollouts ≠ []) :
    BuildsChain trainers rollouts ↔ 2 ≤ rollouts.length := by
  obtain ⟨t, ts, rfl⟩ := exists_cons_of_ne_nil hT
  obtain ⟨r, rs, rfl⟩ := exists_cons_of_ne_nil hR
  constructor
  · rintro ⟨⟨tk, rk, hbuild, hchain⟩, -⟩
    by_contra hlt
    have hnil : rs = [] := by
      rw [length_cons] at hlt
      exact length_eq_zero_iff.1 (by omega)
    subst hnil
    exact not_isChain_of_one hbuild hchain
  · intro htwo
    have hrs : rs ≠ [] := by
      rintro rfl
      simp at htwo
    obtain ⟨tk, rk, hbuild, hchain⟩ := isChain_of_two t r ts hrs
    exact ⟨⟨tk, rk, hbuild, hchain⟩, hchain.buildProcessGroup_ok hbuild hT hR⟩

/-- The metadata of an agent of this name. -/
def agent (name : String) : NixlAgentMetadata where
  agentName := name
  agentMetadata := []
  zmqIp := "127.0.0.1"
  zmqPort := 5555

theorem buildsChain_iff_twoRollouts :
    BuildsChain [agent "trainer0", agent "trainer1"] [agent "rollout0", agent "rollout1"] :=
  (buildsChain_iff (cons_ne_nil _ _) (cons_ne_nil _ _)).2 (Nat.le_refl 2)

/-- One trainer and one rollout worker. -/
theorem not_buildsChain_oneRollout : ¬BuildsChain [agent "trainer0"] [agent "rollout0"] := by
  rintro ⟨-, groups, hgroups⟩
  cases hgroups

end Verl.CheckpointEngine.Topology
