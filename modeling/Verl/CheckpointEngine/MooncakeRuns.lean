import Verl.CheckpointEngine.MooncakeDelivery

/-! # The Mooncake chain in every state of a careful run

* `Trainer.Inv`: what the trainer has sent, packed and still to pack are the weights.
* `State.InvWith`: the invariants of all agents and links, for the logs of the agents.
* `State.Inv.step`: a careful step keeps them. -/

namespace Verl.CheckpointEngine.Mooncake

open List Function

variable {bucketSize n : Nat} {cast : Weight → Weight}

/-! ## Writing -/

theorem exists_transferRead (dst src : Memory bucketSize) (b : Bool) {srcPtr len : Nat}
    (hlen : len ≤ bucketSize) (hsrc : srcPtr + len ≤ 2 * bucketSize) :
    ∃ mem, transferRead dst src (start bucketSize b) srcPtr len = .ok mem ∧
      mem.slice (start bucketSize b) len = src.slice srcPtr len ∧
      ∀ c ≠ b, SameBuffer dst mem c := by
  have hdst := start_add_le b hlen
  have hdata : (src.slice srcPtr len).length = len :=
    length_getSlice (by rw [src.length_eq]; exact hsrc)
  obtain ⟨mem, hassign, hwritten, hkept⟩ := dst.exists_assign_outside hdst hdata
  refine ⟨mem, ?_, hwritten, fun c hc => ?_⟩
  · unfold transferRead
    rw [if_pos ⟨hdst, hsrc⟩, hassign]
  · have hsame : SameOutside dst mem (start bucketSize b + 0) (start bucketSize b + 0 + len) :=
      hkept
    exact hsame.other (by omega) hc

theorem exists_transferMagic (hfour : 4 ≤ bucketSize) (mem : Memory bucketSize) (b : Bool) :
    ∃ mem', transferMagic mem (start bucketSize b) = .ok mem' ∧ head mem' b = magic ∧
      ∀ c ≠ b, SameBuffer mem mem' c := by
  have hle := start_add_le b hfour
  have hlen : magic.length = 4 := rfl
  obtain ⟨mem', hassign, hwritten, hkept⟩ := mem.exists_assign_outside hle hlen
  refine ⟨mem', ?_, ?_, fun c hc => ?_⟩
  · unfold transferMagic
    rw [if_pos hle, hassign]
  · unfold head
    rw [Nat.min_eq_left hfour]
    exact hwritten
  · have hsame : SameOutside mem mem' (start bucketSize b + 0) (start bucketSize b + 0 + 4) :=
      hkept
    exact hsame.other (by omega) hc

/-! ## The trainer -/

namespace Trainer

/-- The buffer belongs to the first worker. -/
def offered (t : Trainer) (b : Bool) : Bool := if b = t.idx then t.waiting else t.shouldWait

/-- The tensors that are packed and not sent. -/
def unsent (t : Trainer) (mem : Memory bucketSize) : List Named :=
  if t.lastSent then [] else
    readTensors mem (start bucketSize t.idx) (metasOf t.bucketMeta)

/-- `is_last`, once it is sent. -/
def endFlag (t : Trainer) : List Bool := if t.lastSent then [true] else []

/-- What the workers are to yield. -/
def goal (cast : Weight → Weight) (weights : List Weight) : List Named :=
  weights.map fun w => (cast w).toNamed

/-- A trainer that has sent the buckets `log` of the weights `all`. -/
structure Inv (cast : Weight → Weight) (all : List Weight) (log : List Bucket)
    (mem : Memory bucketSize) (t : Trainer) : Prop where
  error : t.error = none
  offset_le : t.offset ≤ bucketSize
  inside : ∀ m ∈ metasOf t.bucketMeta, m.offset + m.size ≤ t.offset
  name : ∀ p ∈ t.bucketMeta.items, p.2.name = p.1
  flushed : t.flushed = true → t.bucketMeta = Dict.empty ∧ t.offset = 0
  waiting : t.waiting = true → t.lastSent = false → t.bucketMeta = Dict.empty
  todo : t.todo <:+ all
  sent : log.flatMap Bucket.tensors ++ t.unsent mem ++ goal cast t.todo = goal cast all
  lastSent : t.lastSent = true → t.todo = []
  flags : ∃ k, log.map Bucket.isLast = List.replicate k false ++ t.endFlag

variable {all : List Weight} {log : List Bucket} {mem mem' : Memory bucketSize} {t : Trainer}

/-- The first worker writes into a buffer that is offered. -/
theorem Inv.congr_mem (h : t.Inv cast all log mem) {b : Bool} (hb : t.offered b = true)
    (hother : ∀ c ≠ b, SameBuffer mem mem' c) : t.Inv cast all log mem' := by
  have hunsent : t.unsent mem' = t.unsent mem := by
    unfold unsent
    cases hlast : t.lastSent with
    | true => rfl
    | false =>
      show readTensors _ _ _ = readTensors _ _ _
      by_cases hidx : t.idx = b
      · have hwaiting : t.waiting = true := by simpa [offered, if_pos hidx.symm] using hb
        rw [h.waiting hwaiting hlast]
        rfl
      · refine readTensors_congr h.inside fun o k hle => ?_
        have hle' := h.offset_le
        exact hother _ hidx o k (by omega)
  exact
    { h with
      sent := by rw [hunsent]; exact h.sent }

theorem nextFits_eq_true (h : t.nextFits bucketSize cast = some true) :
    ∃ w rest, t.todo = w :: rest ∧ (t.flushed = true ∨ t.offset + (cast w).nbytes ≤ bucketSize) := by
  unfold nextFits at h
  cases htodo : t.todo with
  | nil => rw [htodo] at h; cases h
  | cons w rest =>
    rw [htodo] at h
    have hfits := Option.some.inj h
    rw [Bool.or_eq_true, decide_eq_true_iff] at hfits
    exact ⟨w, rest, rfl, hfits⟩

theorem lastSent_eq_false (h : t.Inv cast all log mem) (htodo : t.todo ≠ []) :
    t.lastSent = false := by
  cases hlast : t.lastSent with
  | false => rfl
  | true => exact absurd (h.lastSent hlast) htodo

theorem metasOf_insert {d : Dict TensorMeta} {m : TensorMeta} {name : String}
    (h : name ∉ d.keys) : metasOf (d.insert name m) = metasOf d ++ [m] := by
  unfold metasOf
  rw [Dict.items_insert_of_notMem m h, map_append]
  rfl

/-- The names of the weights are different, so a bucket holds each name once. -/
theorem Inv.name_notMem (h : t.Inv cast all log mem) (hnodup : ((goal cast all).map Named.name).Nodup)
    {w : Weight} {rest : List Weight} (htodo : t.todo = w :: rest) :
    (cast w).name ∉ t.bucketMeta.keys := by
  intro hname
  have hlast := lastSent_eq_false h (by rw [htodo]; exact cons_ne_nil _ _)
  obtain ⟨p, hp, hpname⟩ := mem_map.1 hname
  have hunsent : (cast w).name ∈ (t.unsent mem).map Named.name := by
    unfold unsent readTensors metasOf
    rw [hlast]
    refine mem_map.2 ⟨_, mem_map.2 ⟨p.2, mem_map_of_mem hp, rfl⟩, ?_⟩
    exact (h.name p hp).trans hpname
  rw [← h.sent, htodo, append_assoc, map_append] at hnodup
  have hright := (nodup_append.1 hnodup).2.1
  rw [map_append] at hright
  exact (nodup_append.1 hright).2.2 _ hunsent _ (mem_map_of_mem mem_cons_self) rfl

/-- What packing changes. -/
structure Packs (t t' : Trainer) (mem mem' : Memory bucketSize) : Prop where
  idx : t'.idx = t.idx
  waiting : t'.waiting = t.waiting
  shouldWait : t'.shouldWait = t.shouldWait
  todo : t.todo.length = t'.todo.length + 1
  lastSent : t'.lastSent = t.lastSent
  other : ∀ c ≠ t.idx, SameBuffer mem mem' c

section

variable (h : t.Inv cast all log mem)
include h

/-- A weight that fits goes behind the others: no assertion fails. -/
theorem Inv.pack (hnodup : ((goal cast all).map Named.name).Nodup)
    (hall : ∀ w ∈ all, (cast w).nbytes ≤ bucketSize) (hwaiting : t.waiting = false)
    (hfits : t.nextFits bucketSize cast = some true) :
    Inv cast all log (t.pack cast mem).2 (t.pack cast mem).1 ∧
      t.Packs (t.pack cast mem).1 mem (t.pack cast mem).2 := by
  obtain ⟨w, rest, htodo, hfits⟩ := nextFits_eq_true hfits
  have hlast := lastSent_eq_false h (by rw [htodo]; exact cons_ne_nil _ _)
  have hname := h.name_notMem hnodup htodo
  have hmem : w ∈ all := h.todo.subset (by rw [htodo]; exact mem_cons_self)
  have hle : t.offset + (cast w).nbytes ≤ bucketSize := by
    rcases hfits with hflushed | hfits
    · have hsize := hall w hmem
      rw [(h.flushed hflushed).2]
      omega
    · exact hfits
  have hin : start bucketSize t.idx + t.offset + (cast w).nbytes ≤ 2 * bucketSize := by
    rw [Nat.add_assoc]
    exact start_add_le t.idx hle
  have hlen : (cast w).bytes.length = (cast w).nbytes := (cast w).length_eq
  obtain ⟨mem', hassign, hwritten, hkept⟩ := mem.exists_assign_outside hin hlen
  have hpack : t.pack cast mem =
      ({ t with
          bucketMeta := t.bucketMeta.insert (cast w).name
            { name := (cast w).name, shape := (cast w).shape, dtype := (cast w).dtype,
              offset := t.offset }
          offset := t.offset + (cast w).nbytes
          flushed := false
          todo := rest }, mem') := by
    unfold Trainer.pack store
    simp only [htodo, hassign, hle, decide_true, pyAssert_true, ok_bind]
  have hsame : SameOutside mem mem' (start bucketSize t.idx + t.offset)
      (start bucketSize t.idx + t.offset + (cast w).nbytes) := hkept
  have htensors : readTensors mem' (start bucketSize t.idx)
      (metasOf (t.bucketMeta.insert (cast w).name
        { name := (cast w).name, shape := (cast w).shape, dtype := (cast w).dtype,
          offset := t.offset })) =
      readTensors mem (start bucketSize t.idx) (metasOf t.bucketMeta) ++ [(cast w).toNamed] := by
    rw [metasOf_insert hname]
    unfold readTensors
    rw [map_append]
    congr 1
    · exact readTensors_congr h.inside fun o k hle' => hkept _ k (.inl (by omega))
    · exact congrArg (fun bytes => [Named.mk (cast w).name (cast w).dtype (cast w).shape bytes])
        hwritten
  rw [hpack]
  constructor
  · exact
      { h with
        offset_le := hle
        inside := by
          intro m hm
          rw [metasOf_insert hname] at hm
          show m.offset + m.size ≤ t.offset + (cast w).nbytes
          rcases mem_append.1 hm with hm | hm
          · have hle' := h.inside m hm
            omega
          · cases mem_singleton.1 hm
            exact Nat.le_refl _
        name := by
          intro p hp
          rcases Dict.mem_items_insert hp with hp | rfl
          · exact h.name p hp
          · rfl
        flushed := fun hflushed => by cases hflushed
        waiting := fun hw _ => by grind
        todo := by
          have hsuffix := h.todo
          rw [htodo] at hsuffix
          exact (suffix_cons w rest).trans hsuffix
        sent := by
          have hsent := h.sent
          unfold unsent at hsent ⊢
          rw [hlast] at hsent ⊢
          rw [htensors, ← hsent, htodo]
          show _ ++ (_ ++ _) ++ goal cast rest = _ ++ _ ++ ((cast w).toNamed :: goal cast rest)
          simp only [append_assoc, singleton_append]
          rfl
        lastSent := fun hsent => by grind }
  · exact
      { idx := rfl
        waiting := rfl
        shouldWait := rfl
        todo := by rw [htodo]; rfl
        lastSent := rfl
        other := fun c hc => hsame.other hle hc }

theorem Inv.send (hlast : t.lastSent = false) (isLast : Bool)
    {t' : Trainer} (herror : t'.error = t.error) (htodo : t'.todo = t.todo)
    (hunsent : t'.unsent mem = []) (hflag : t'.endFlag = if isLast then [true] else [])
    (hoffset : t'.offset ≤ bucketSize)
    (hinside : ∀ m ∈ metasOf t'.bucketMeta, m.offset + m.size ≤ t'.offset)
    (hname : ∀ p ∈ t'.bucketMeta.items, p.2.name = p.1)
    (hflushed : t'.flushed = true → t'.bucketMeta = Dict.empty ∧ t'.offset = 0)
    (hwaiting : t'.waiting = true → t'.lastSent = false → t'.bucketMeta = Dict.empty)
    (hlast' : t'.lastSent = true → t'.todo = []) :
    t'.Inv cast all (log ++ [(t.info bucketSize isLast).bucket mem]) mem where
  error := herror.trans h.error
  offset_le := hoffset
  inside := hinside
  name := hname
  flushed := hflushed
  waiting := hwaiting
  todo := by rw [htodo]; exact h.todo
  sent := by
    have hsent := h.sent
    unfold unsent at hsent
    rw [hlast] at hsent
    rw [hunsent, htodo, flatMap_append, append_nil, flatMap_singleton]
    exact hsent
  lastSent := hlast'
  flags := by
    obtain ⟨k, hk⟩ := h.flags
    unfold endFlag at hk
    rw [hlast] at hk
    have hk : log.map Bucket.isLast = replicate k false := by grind
    rw [map_append, hk, hflag]
    cases isLast with
    | true => exact ⟨k, rfl⟩
    | false => exact ⟨k + 1, by rw [replicate_succ']; exact (append_nil _).symm⟩

theorem Inv.fits (isLast : Bool) : (t.info bucketSize isLast).Fits bucketSize where
  len := h.offset_le
  inside := h.inside

theorem Inv.flush (hlast : t.lastSent = false) :
    t.flush.Inv cast all (log ++ [(t.info bucketSize false).bucket mem]) mem := by
  refine h.send hlast false rfl rfl ?_ ?_ (Nat.zero_le _) (fun m hm => by cases hm)
    (fun p hp => by cases hp) (fun _ => ⟨rfl, rfl⟩) (fun _ _ => rfl) (fun hl => h.lastSent hl)
  · show (if t.lastSent then [] else []) = []
    rw [ite_self]
  · show (if t.lastSent then [true] else []) = _
    rw [hlast]

theorem Inv.last (hlast : t.lastSent = false) (hfits : t.nextFits bucketSize cast = none) :
    Inv cast all (log ++ [(t.info bucketSize true).bucket mem]) mem
      { t with lastSent := true, waiting := true } :=
  h.send hlast true rfl rfl rfl rfl h.offset_le h.inside h.name h.flushed
    (fun _ hl => by cases hl) fun _ => head?_eq_none_iff.1 (Option.map_eq_none_iff.1 hfits)

theorem Inv.wait : Inv cast all log mem { t with waiting := false } :=
  { h with
    waiting := fun hw => by cases hw }

end

end Trainer

/-! ## One worker -/

namespace Worker

variable {w : Worker} {log : List Bucket} {mem mem' : Memory bucketSize}

/-- The next worker writes its magic word into a buffer that is offered and yielded. -/
theorem congr_magic {b : Bool} (hb : w.offered b = true)
    (hyielded : (w.phase.canYield && start bucketSize w.current == start bucketSize b) = false)
    (hother : ∀ c ≠ b, SameBuffer mem mem' c)
    (hfits : ∀ info rest, w.phase = .yielding info rest → ∀ m ∈ rest, m.offset + m.size ≤ bucketSize)
    (hsending : ∀ info, w.phase = .sending info → info.Fits bucketSize) :
    w.unyielded mem' = w.unyielded mem ∧ w.held mem' = w.held mem := by
  cases hphase : w.phase with
  | yielding info rest =>
    refine ⟨?_, by unfold held; rw [hphase]⟩
    unfold unyielded
    rw [hphase]
    cases rest with
    | nil => rfl
    | cons m rest =>
      rw [hphase] at hyielded
      have hne : w.current ≠ b := by
        rintro rfl
        rw [beq_self_eq_true] at hyielded
        cases hyielded
      exact readTensors_congr (hfits info _ hphase) fun o k hle => hother _ hne o k hle
  | sending info =>
    refine ⟨by unfold unyielded; rw [hphase], ?_⟩
    have hne : w.current ≠ b := by
      rintro rfl
      rw [offered_current_of_sending hphase] at hb
      cases hb
    unfold held
    rw [hphase]
    have htensors : readTensors mem' (start bucketSize w.current) (metasOf info.bucketMeta) =
        readTensors mem (start bucketSize w.current) (metasOf info.bucketMeta) := by
      refine readTensors_congr (hsending info hphase).inside fun o k hle => ?_
      have hlen := (hsending info hphase).len
      exact hother _ hne o k (by omega)
    dsimp only
    rw [htensors]
  | receiving => exact ⟨by unfold unyielded; rw [hphase], by unfold held; rw [hphase]⟩
  | waiting info => exact ⟨by unfold unyielded; rw [hphase], by unfold held; rw [hphase]⟩
  | reading info => exact ⟨by unfold unyielded; rw [hphase], by unfold held; rw [hphase]⟩
  | returned => exact ⟨by unfold unyielded; rw [hphase], by unfold held; rw [hphase]⟩

/-- Before the first tensor of a bucket, or behind the last one. -/
theorem Inv.idle (h : w.Inv log mem) (hunyielded : w.unyielded mem = []) {phase : Phase}
    {mem' : Memory bucketSize} (hnone : ∀ v : Worker, v.phase = phase → v.unyielded mem' = [])
    (hended : phase.ended = w.phase.ended) (hwaiting : ∀ info, phase = .waiting info → 2 ≤ w.idx)
    (hphase : ∀ info rest, phase ≠ .yielding info rest) :
    Inv log mem' { w with phase := phase } :=
  h.congr rfl rfl (by rw [hunyielded]; exact hnone _ rfl) hended
    (fun info rest heq => absurd heq (hphase info rest)) hwaiting

section

variable (h : w.Inv log mem) {info : Info}
include h

theorem Inv.sendInfo (hphase : w.phase = .sending info) (hfits : info.Fits bucketSize) :
    Inv (log ++ [⟨readTensors mem (start bucketSize w.current) (metasOf info.bucketMeta),
        info.isLast⟩]) mem
      { w with phase := .yielding info (info.bucketMeta.items.map Prod.snd) } where
  error := h.error
  tensors := by
    have htensors := h.tensors
    unfold unyielded at htensors
    rw [hphase] at htensors
    rw [flatMap_append, htensors, append_nil, flatMap_singleton]
    rfl
  ended := by
    have hended := h.ended
    rw [hphase] at hended
    rw [any_append, hended]
    show (false || (info.isLast || false)) = info.isLast
    rw [Bool.false_or, Bool.or_false]
  fits := by
    intro info' rest heq m hm
    cases heq
    have hle := hfits.inside m hm
    have hlen := hfits.len
    omega
  waiting := fun info' heq => by cases heq

theorem Inv.yield {m : TensorMeta} {rest : List TensorMeta}
    (hphase : w.phase = .yielding info (m :: rest)) :
    w.yield mem =
        { w with phase := .yielding info rest, yielded := w.yielded ++ [w.tensor mem m] } ∧
      (w.yield mem).Inv log mem := by
  have hle := h.fits info _ hphase m mem_cons_self
  have hyield : w.yield mem =
      { w with phase := .yielding info rest, yielded := w.yielded ++ [w.tensor mem m] } := by
    unfold Worker.yield
    rw [hphase]
    exact if_pos hle
  refine ⟨hyield, ?_⟩
  rw [hyield]
  exact
    { error := h.error
      tensors := by
        have htensors := h.tensors
        unfold unyielded at htensors ⊢
        rw [hphase] at htensors
        rw [htensors]
        show _ ++ (w.tensor mem m :: _) = _ ++ [w.tensor mem m] ++ _
        rw [append_assoc]
        rfl
      ended := by
        have hended := h.ended
        rw [hphase] at hended
        exact hended
      fits := by
        intro info' rest' heq m' hm'
        cases heq
        exact h.fits info _ hphase m' (mem_cons_of_mem _ hm')
      waiting := fun info' heq => by cases heq }

theorem Inv.swap (hphase : w.phase = .yielding info []) : (w.swap info).Inv log mem := by
  have hnone : (w.swap info).unyielded mem = [] := by
    unfold unyielded Worker.swap
    dsimp only
    cases info.isLast <;> rfl
  have hbefore : w.unyielded mem = [] := by
    unfold unyielded
    rw [hphase]
    rfl
  refine h.congr rfl rfl (by rw [hnone, hbefore]) ?_ ?_ ?_
  · rw [hphase]
    unfold Worker.swap
    show (if info.isLast then Phase.returned else Phase.receiving).ended = info.isLast
    cases info.isLast <;> rfl
  · intro info' rest heq
    have heq : (if info.isLast then Phase.returned else Phase.receiving) = .yielding info' rest :=
      heq
    cases hl : info.isLast <;> rw [hl] at heq <;> cases heq
  · intro info' heq
    have heq : (if info.isLast then Phase.returned else Phase.receiving) = .waiting info' := heq
    cases hl : info.isLast <;> rw [hl] at heq <;> cases heq

end

end Worker

/-! ## Every state of a careful run -/

/-- The buckets that each agent has sent. -/
abbrev Logs (n : Nat) := Fin (n + 1) → List Bucket

namespace State

/-- The buffer belongs to the agent behind this rank. -/
def offered (s : State bucketSize n) (rank : Fin (n + 1)) : Bool → Bool :=
  Fin.cases s.trainer.offered (fun i => (s.workers i).offered) rank

variable {w : Worker} {info : Info} {i : Fin n}

theorem offered_succ (s : State bucketSize n) (i : Fin n) :
    s.offered i.succ = (s.workers i).offered := rfl

theorem offered_of_ne (s s' : State bucketSize n)
    (htrainer : s'.trainer = s.trainer) (hworkers : s'.workers = update s.workers i w)
    {rank : Fin (n + 1)} (hrank : rank ≠ i.succ) : s'.offered rank = s.offered rank := by
  unfold offered
  cases rank using Fin.cases with
  | zero =>
    show s'.trainer.offered = _
    rw [htrainer]
    rfl
  | succ j =>
    have hij : j ≠ i := fun h => hrank (congrArg Fin.succ h)
    show (s'.workers j).offered = (s.workers j).offered
    rw [hworkers, update_of_ne hij]

/-- What holds on the link to worker `i`. -/
def LinkAt (log : Logs n) (s : State bucketSize n) (i : Fin n) : Prop :=
  LinkInv (log i.castSucc) (log i.succ) (s.mems i.castSucc) (s.mems i.succ) (s.sent i.castSucc)
    (s.offered i.castSucc) (s.infos i) (s.workers i)

structure InvWith (cast : Weight → Weight) (all : List Weight) (log : Logs n)
    (s : State bucketSize n) : Prop where
  trainer : s.trainer.Inv cast all (log 0) (s.mems 0)
  worker : ∀ i, (s.workers i).Inv (log i.succ) (s.mems i.succ)
  link : ∀ i, s.LinkAt log i
  waitingNext : ∀ i info, (s.workers i).phase = .waiting info → (nextLink i.succ).isSome = true

def Inv (cast : Weight → Weight) (all : List Weight) (s : State bucketSize n) : Prop :=
  ∃ log, s.InvWith cast all log

variable {all : List Weight} {log : Logs n} {s : State bucketSize n}

theorem inv_initial (mems : Fin (n + 1) → Memory bucketSize) (weights : List Weight) :
    (initial mems weights).Inv cast weights :=
  ⟨fun _ => [],
    { trainer :=
        { error := rfl
          offset_le := Nat.zero_le _
          inside := fun _ hm => by cases hm
          name := fun _ hp => by cases hp
          flushed := fun h => by cases h
          waiting := fun h => by cases h
          todo := suffix_refl _
          sent := rfl
          lastSent := fun h => by cases h
          flags := ⟨0, rfl⟩ }
      worker := fun i =>
        { error := rfl
          tensors := rfl
          ended := rfl
          fits := fun _ _ h => by cases h
          waiting := fun _ h => by cases h }
      link := fun i =>
        { stream := rfl
          offers := fun _ h => by cases h
          free := by
            intro b hb
            have hnone : (initial mems weights).offered i.castSucc b = false := by
              cases i.castSucc using Fin.cases with
              | zero =>
                exact ite_self _
              | succ j =>
                show (if b = false then decide (2 ≤ 0) else decide (1 ≤ 0)) = false
                split <;> rfl
            rw [hnone] at hb
            cases hb
          nodup := nodup_nil
          fits := fun _ h => by cases h }
      waitingNext := fun _ _ h => by cases h }⟩

section

variable (h : s.InvWith cast all log)
include h

theorem InvWith.fits_taken (htaken : info ∈ (s.workers i).phase.taken) : info.Fits bucketSize :=
  (h.link i).fits info (mem_append_left _ htaken)

/-- Worker `i` and the link to it step, and its memory stays. -/
theorem InvWith.setWorker (i : Fin n) {infos : List Info}
    (hworker : w.Inv (log i.succ) (s.mems i.succ))
    (hlink : LinkInv (log i.castSucc) (log i.succ) (s.mems i.castSucc) (s.mems i.succ) (s.sent i.castSucc) (s.offered i.castSucc) infos w)
    (hout : ∀ j : Fin n, j.castSucc = i.succ → LinkInv (log j.castSucc) (log j.succ) (s.mems j.castSucc) (s.mems j.succ) (s.sent j.castSucc) w.offered (s.infos j) (s.workers j))
    (hwaiting : ∀ info, w.phase = .waiting info → (nextLink i.succ).isSome = true) :
    InvWith cast all log { s.setWorker i w with infos := update s.infos i infos } := by
  set s' : State bucketSize n :=
    { s.setWorker i w with infos := update s.infos i infos } with hs'
  have hself : s'.workers i = w := update_self ..
  have hother : ∀ j ≠ i, s'.workers j = s.workers j := fun j hij => update_of_ne hij _ _
  have hinfos : ∀ j ≠ i, s'.infos j = s.infos j := fun j hij => update_of_ne hij _ _
  have hinfo : s'.infos i = infos := update_self ..
  exact
    { trainer := h.trainer
      worker := fun j => by
        by_cases hij : j = i
        · subst hij
          rw [hself]
          exact hworker
        · rw [hother j hij]
          exact h.worker j
      link := fun j => by
        unfold LinkAt
        by_cases hij : j = i
        · subst hij
          rw [hself, hinfo, offered_of_ne s s' rfl rfl (castSucc_ne_succ j)]
          exact hlink
        · rw [hother j hij, hinfos j hij]
          by_cases hrank : j.castSucc = i.succ
          · have hoffered : s'.offered j.castSucc = w.offered := by
              rw [hrank, offered_succ, hself]
            rw [hoffered]
            exact hout j hrank
          · rw [offered_of_ne s s' rfl rfl hrank]
            exact h.link j
      waitingNext := fun j info hphase => by
        by_cases hij : j = i
        · grind
        · rw [hother j hij] at hphase
          exact h.waitingNext j info hphase }

/-- As `setWorker`, for a step that takes no info from the queue. -/
theorem InvWith.setWorker_only (i : Fin n) (hworker : w.Inv (log i.succ) (s.mems i.succ))
    (hlink : LinkInv (log i.castSucc) (log i.succ) (s.mems i.castSucc) (s.mems i.succ) (s.sent i.castSucc) (s.offered i.castSucc) (s.infos i) w)
    (hout : ∀ j : Fin n, j.castSucc = i.succ → LinkInv (log j.castSucc) (log j.succ) (s.mems j.castSucc) (s.mems j.succ) (s.sent j.castSucc) w.offered (s.infos j) (s.workers j))
    (hwaiting : ∀ info, w.phase = .waiting info → (nextLink i.succ).isSome = true) :
    InvWith cast all log (s.setWorker i w) := by
  have hset := h.setWorker i hworker hlink hout hwaiting
  rw [update_eq_self] at hset
  exact hset

/-- The link behind worker `i`, with the same buffers offered. -/
theorem InvWith.link_next (i : Fin n)
    (hoffered : ∀ j : Fin n, j.castSucc = i.succ → ∀ b, w.offered b = (s.workers i).offered b)
    (j : Fin n) (hj : j.castSucc = i.succ) :
    LinkInv (log j.castSucc) (log j.succ) (s.mems j.castSucc) (s.mems j.succ) (s.sent j.castSucc)
      w.offered (s.infos j) (s.workers j) := by
  refine (h.link j).congr_offered fun b => ?_
  rw [hj]
  exact hoffered j hj b

end

/-! ## The steps of the trainer -/

theorem InvWith.pack (h : s.InvWith cast all log)
    (hnodup : ((Trainer.goal cast all).map Named.name).Nodup)
    (hall : ∀ w ∈ all, (cast w).nbytes ≤ bucketSize) (hwaiting : s.trainer.waiting = false)
    (hfits : s.trainer.nextFits bucketSize cast = some true) :
    (s.pack cast).InvWith cast all log := by
  obtain ⟨htrainer, hpacks⟩ := h.trainer.pack hnodup hall hwaiting hfits
  exact
    { trainer := by
        exact htrainer
      worker := fun i => by
        exact h.worker i
      link := fun j => by
        have hlink := h.link j
        unfold LinkAt at hlink ⊢
        cases hrank : j.castSucc using Fin.cases with
        | zero =>
          rw [hrank] at hlink
          have hsame : ∀ b, s.offered 0 b = true →
              SameBuffer (s.mems 0) (s.trainer.pack cast (s.mems 0)).2 b := by
            intro b hb
            refine hpacks.other b ?_
            rintro rfl
            have hb : (if s.trainer.idx = s.trainer.idx then s.trainer.waiting
              else s.trainer.shouldWait) = true := hb
            rw [if_pos rfl, hwaiting] at hb
            cases hb
          refine (hlink.congr_mem hsame).congr_offered fun b => ?_
          show (s.trainer.pack cast (s.mems 0)).1.offered b = s.trainer.offered b
          unfold Trainer.offered
          rw [hpacks.idx, hpacks.waiting, hpacks.shouldWait]
        | succ k =>
          rw [hrank] at hlink
          exact hlink
      waitingNext := h.waitingNext }

theorem InvWith.wait (h : s.InvWith cast all log)
    (hmagic : head (s.mems 0) s.trainer.idx = magic) (hsent : s.sent 0 s.trainer.idx ≠ magic) :
    InvWith cast all log { s with trainer := { s.trainer with waiting := false } } where
  trainer := h.trainer.wait
  worker := h.worker
  link := fun j => by
    have hlink := h.link j
    unfold LinkAt at hlink ⊢
    cases hrank : j.castSucc using Fin.cases with
    | zero =>
      rw [hrank] at hlink
      refine hlink.wait hmagic hsent ?_ fun c hc => ?_
      · show (if s.trainer.idx = s.trainer.idx then false else s.trainer.shouldWait) = false
        rw [if_pos rfl]
      · show (if c = s.trainer.idx then false else s.trainer.shouldWait) =
          if c = s.trainer.idx then s.trainer.waiting else s.trainer.shouldWait
        rw [if_neg hc, if_neg hc]
    | succ k =>
      rw [hrank] at hlink
      exact hlink
  waitingNext := h.waitingNext

/-- The agent of this rank sends the bucket in its buffer `b`. -/
theorem InvWith.link_send (h : s.InvWith cast all log) (hpos : 0 < bucketSize) (rank : Fin (n + 1))
    {b : Bool} (hptr : info.ptr = start bucketSize b) (hfits : info.Fits bucketSize)
    (hown : s.offered rank b = false) {offered' : Fin (n + 1) → Bool → Bool}
    (hb : offered' rank b = true) (hother : ∀ c ≠ b, offered' rank c = s.offered rank c)
    (hranks : ∀ rank' ≠ rank, offered' rank' = s.offered rank') (j : Fin n) :
    LinkInv (update log rank (log rank ++ [info.bucket (s.mems rank)]) j.castSucc)
      (log j.succ) (s.mems j.castSucc) (s.mems j.succ) (s.record rank b j.castSucc)
      (offered' j.castSucc) (s.send rank info j) (s.workers j) := by
  have hlink := h.link j
  by_cases hrank : j.castSucc = rank
  · subst hrank
    have hinfos : s.send j.castSucc info j = s.infos j ++ [info] := by
      simp [send]
    have hsent : ∀ c, s.record j.castSucc b j.castSucc c =
        if c = b then head (s.mems j.castSucc) b else s.sent j.castSucc c := by
      intro c
      unfold record
      rw [update_self]
      exact update_apply ..
    rw [update_self, hinfos]
    exact hlink.send hpos hptr hfits hown hb hother (by rw [hsent, if_pos rfl])
      fun c hc => by rw [hsent, if_neg hc]
  · have hinfos : s.send rank info j = s.infos j := by
      unfold send
      cases hnext : nextLink rank with
      | none => rfl
      | some i =>
        have hij : j ≠ i := by
          rintro rfl
          exact hrank (eq_castSucc_of_nextLink hnext).symm
        exact update_of_ne hij _ _
    have hsent : s.record rank b j.castSucc = s.sent j.castSucc :=
      update_of_ne hrank _ _
    rw [update_of_ne hrank, hinfos, hsent, hranks _ hrank]
    exact hlink

section

variable (h : s.InvWith cast all log) (hpos : 0 < bucketSize) (hwaiting : s.trainer.waiting = false)
include h hpos hwaiting

theorem InvWith.sendTrainer (isLast : Bool) {t : Trainer}
    (ht : t.Inv cast all (log 0 ++ [(s.trainer.info bucketSize isLast).bucket (s.mems 0)]) (s.mems 0))
    (hb : t.offered s.trainer.idx = true)
    (hother : ∀ c ≠ s.trainer.idx, t.offered c = s.trainer.offered c) :
    Inv cast all { s with
      trainer := t
      infos := s.send 0 (s.trainer.info bucketSize isLast)
      sent := s.record 0 s.trainer.idx } := by
  set info := s.trainer.info bucketSize isLast with hinfo
  have hown : s.offered 0 s.trainer.idx = false := by
    show (if s.trainer.idx = s.trainer.idx then s.trainer.waiting else _) = false
    rw [if_pos rfl, hwaiting]
  refine ⟨update log 0 (log 0 ++ [info.bucket (s.mems 0)]), ?_⟩
  exact
    { trainer := by grind
      worker := fun i => by
        exact h.worker i
      link := fun j => by
        refine h.link_send hpos 0 rfl (h.trainer.fits isLast) hown hb hother (fun rank hrank => ?_) j
        obtain ⟨i, rfl⟩ := Fin.exists_succ_eq.2 hrank
        rfl
      waitingNext := h.waitingNext }

theorem InvWith.flush (hfits : s.trainer.nextFits bucketSize cast = some false) : s.flush.Inv cast all := by
  have hlast : s.trainer.lastSent = false := by
    refine Trainer.lastSent_eq_false h.trainer fun hnil => ?_
    unfold Trainer.nextFits at hfits
    rw [hnil] at hfits
    cases hfits
  refine h.sendTrainer hpos hwaiting false (h.trainer.flush hlast) ?_ fun c hc => ?_
  · show (if s.trainer.idx = !s.trainer.idx then s.trainer.shouldWait else true) = true
    rw [if_neg (Bool.not_ne_self _).symm]
  · have hne : c = !s.trainer.idx := by
      cases c <;> cases hidx : s.trainer.idx <;> simp_all
    show (if c = !s.trainer.idx then s.trainer.shouldWait else true) =
      if c = s.trainer.idx then s.trainer.waiting else s.trainer.shouldWait
    rw [if_pos hne, if_neg hc]

theorem InvWith.last (hfits : s.trainer.nextFits bucketSize cast = none)
    (hlast : s.trainer.lastSent = false) : s.last.Inv cast all := by
  refine h.sendTrainer hpos hwaiting true (h.trainer.last hlast hfits) ?_ fun c hc => ?_
  · show (if s.trainer.idx = s.trainer.idx then true else s.trainer.shouldWait) = true
    rw [if_pos rfl]
  · show (if c = s.trainer.idx then true else s.trainer.shouldWait) =
      if c = s.trainer.idx then s.trainer.waiting else s.trainer.shouldWait
    rw [if_neg hc, if_neg hc]

end

/-! ## The steps of a worker -/

section

variable (h : s.InvWith cast all log)
include h

theorem InvWith.recv (hphase : (s.workers i).phase = .receiving) (hinfos : (s.infos i).isEmpty = false) :
    (s.recv i).InvWith cast all log := by
  obtain ⟨info, infos, hcons⟩ := exists_cons_of_ne_nil (isEmpty_eq_false_iff.1 hinfos)
  have hlink := h.link i
  have hheld : ∀ {p : Phase}, (∀ info, p ≠ .sending info) →
      Worker.held { s.workers i with phase := p } (s.mems i.succ) =
        (s.workers i).held (s.mems i.succ) := by
    intro p hp
    unfold Worker.held
    rw [hphase]
    cases p with
    | sending info => exact absurd rfl (hp info)
    | _ => rfl
  have hbefore : (s.workers i).unyielded (s.mems i.succ) = [] := by
    unfold Worker.unyielded
    rw [hphase]
  unfold State.recv
  rw [hcons]
  dsimp only
  by_cases hwait : 2 ≤ (s.workers i).idx ∧ (nextLink i.succ).isSome = true
  · rw [if_pos hwait]
    refine h.setWorker i ?_ ?_ (h.link_next i fun j hj b => ?_) fun _ _ => hwait.2
    · exact (h.worker i).idle hbefore (fun v hv => by unfold Worker.unyielded; rw [hv])
        (by rw [hphase]; rfl) (fun _ _ => hwait.1) fun _ _ heq => by cases heq
    · exact hlink.congr_worker (hheld fun _ heq => by cases heq) (by rw [hphase, hcons]; rfl)
        (by rw [hphase, hcons]; rfl)
    · unfold Worker.offered
      rw [hphase]
      rfl
  · rw [if_neg hwait]
    refine h.setWorker i ?_ ?_ (h.link_next i fun j hj b => ?_) fun _ heq => by cases heq
    · exact (h.worker i).idle hbefore (fun v hv => by unfold Worker.unyielded; rw [hv])
        (by rw [hphase]; rfl) (fun _ heq => by cases heq) fun _ _ heq => by cases heq
    · exact hlink.congr_worker (hheld fun _ heq => by cases heq) (by rw [hphase, hcons]; rfl)
        (by rw [hphase, hcons]; rfl)
    · -- the current buffer was never offered
      have hnext : (nextLink i.succ).isSome = true := by
        rw [← hj, nextLink_castSucc]
        rfl
      have hidx : decide (2 ≤ (s.workers i).idx) = false :=
        decide_eq_false fun hle => hwait ⟨hle, hnext⟩
      unfold Worker.offered
      rw [hphase, hidx]
      rfl

theorem InvWith.waitMagic (hphase : (s.workers i).phase = .waiting info)
    (hmagic : head (s.mems i.succ) (s.workers i).current = magic)
    (hsent : s.sent i.succ (s.workers i).current ≠ magic) :
    (s.waitMagic i).InvWith cast all log := by
  have hlink := h.link i
  have hwait : s.waitMagic i = s.setWorker i { s.workers i with phase := .reading info } := by
    unfold State.waitMagic
    rw [hphase]
  rw [hwait]
  refine h.setWorker_only i ?_ ?_ (fun j hj => ?_) fun _ heq => by cases heq
  · refine (h.worker i).idle ?_ (fun v hv => by unfold Worker.unyielded; rw [hv])
      (by rw [hphase]; rfl) (fun _ heq => by cases heq) fun _ _ heq => by cases heq
    unfold Worker.unyielded
    rw [hphase]
  · refine hlink.congr_worker ?_ (by rw [hphase]; rfl) (by rw [hphase]; rfl)
    unfold Worker.held
    rw [hphase]
  · have hnext := h.link j
    unfold LinkAt at hnext
    rw [hj] at hnext ⊢
    refine hnext.wait hmagic hsent ?_ fun c hc => ?_
    · exact Worker.offered_current_of_reading rfl
    · show (if c = (s.workers i).current then _ else decide (1 ≤ (s.workers i).idx)) =
        if c = (s.workers i).current then _ else decide (1 ≤ (s.workers i).idx)
      rw [if_neg hc, if_neg hc]

/-- The read of a worker: it takes place, inside of the buffer that is the worker's own. -/
theorem InvWith.read_eq (hphase : (s.workers i).phase = .reading info) :
    ∃ mem, s.read i = { s.setWorker i { s.workers i with phase := .sending info } with
        mems := update s.mems i.succ mem } ∧
      mem.slice (start bucketSize (s.workers i).current) info.len =
        (s.mems i.castSucc).slice info.ptr info.len ∧
      ∀ c ≠ (s.workers i).current, SameBuffer (s.mems i.succ) mem c := by
  have htaken : info ∈ (s.workers i).phase.taken := by
    rw [hphase]
    exact mem_cons_self
  have hfits := h.fits_taken htaken
  obtain ⟨b, hptr, -, -⟩ := (h.link i).offers info (mem_append_left _ htaken)
  have hsrc : info.ptr + info.len ≤ 2 * bucketSize := by
    rw [hptr]
    exact start_add_le b hfits.len
  obtain ⟨mem, hread, hslice, hother⟩ := exists_transferRead (s.mems i.succ) (s.mems i.castSucc)
    (s.workers i).current hfits.len hsrc
  refine ⟨mem, ?_, hslice, hother⟩
  unfold State.read
  rw [hphase]
  dsimp only
  rw [hread]

theorem InvWith.read (hphase : (s.workers i).phase = .reading info) : (s.read i).InvWith cast all log := by
  obtain ⟨mem, hread, hslice, hother⟩ := h.read_eq hphase
  rw [hread]
  set w : Worker := { s.workers i with phase := .sending info } with hw
  set s' : State bucketSize n :=
    { s.setWorker i w with mems := update s.mems i.succ mem } with hs'
  have hself : s'.workers i = w := update_self ..
  have hworkers : ∀ j ≠ i, s'.workers j = s.workers j := fun j hij => update_of_ne hij _ _
  have hmem : s'.mems i.succ = mem := update_self ..
  have hmems : ∀ rank, rank ≠ i.succ → s'.mems rank = s.mems rank :=
    fun rank hrank => update_of_ne hrank _ _
  have hsucc : ∀ j : Fin n, j ≠ i → j.succ ≠ i.succ :=
    fun j hij heq => hij (Fin.succ_injective n heq)
  exact
    { trainer := by
        exact h.trainer
      worker := fun j => by
        by_cases hij : j = i
        · subst hij
          rw [hself]
          refine (h.worker j).idle ?_ (fun v hv => by unfold Worker.unyielded; rw [hv])
            (by rw [hphase]; rfl) (fun _ heq => by cases heq) fun _ _ heq => by cases heq
          unfold Worker.unyielded
          rw [hphase]
        · rw [hworkers j hij, hmems _ (hsucc j hij)]
          exact h.worker j
      link := fun j => by
        have hlink := h.link j
        unfold LinkAt at hlink ⊢
        by_cases hij : j = i
        · subst hij
          have hrank := castSucc_ne_succ j
          rw [hself, hmem, hmems _ hrank, offered_of_ne s s' rfl rfl hrank]
          exact hlink.read hphase hslice
        · rw [hworkers j hij, hmems _ (hsucc j hij)]
          by_cases hrank : j.castSucc = i.succ
          · rw [hrank] at hlink ⊢
            rw [hmem, offered_succ, hself]
            have hsame : ∀ b, s.offered i.succ b = true → SameBuffer (s.mems i.succ) mem b := by
              intro b hb
              refine hother b ?_
              rintro rfl
              rw [offered_succ, Worker.offered_current_of_reading hphase] at hb
              cases hb
            refine (hlink.congr_mem hsame).congr_offered fun b => ?_
            rw [offered_succ]
            unfold Worker.offered
            rw [hphase]
            rfl
          · rw [hmems _ hrank, offered_of_ne s s' rfl rfl hrank]
            exact hlink
      waitingNext := fun j info' hp => by
        by_cases hij : j = i
        · grind
        · rw [hworkers j hij] at hp
          exact h.waitingNext j info' hp }

theorem InvWith.sendInfo (hpos : 0 < bucketSize) (hphase : (s.workers i).phase = .sending info) :
    (s.sendInfo i).Inv cast all := by
  have hfits : info.Fits bucketSize := h.fits_taken (i := i) (by
    rw [hphase]
    exact mem_cons_self)
  set w : Worker := { s.workers i with
    phase := .yielding info (info.bucketMeta.items.map Prod.snd) } with hw
  set sent : Info := { info with ptr := start bucketSize (s.workers i).current } with hsent
  set s' : State bucketSize n := { s.setWorker i w with
    infos := s.send i.succ sent, sent := s.record i.succ (s.workers i).current } with hs'
  have hstep : s.sendInfo i = s' := by
    unfold State.sendInfo
    rw [hphase]
  have hself : s'.workers i = w := update_self ..
  have hworkers : ∀ j ≠ i, s'.workers j = s.workers j := fun j hij => update_of_ne hij _ _
  have hsentFits : sent.Fits bucketSize := ⟨hfits.len, hfits.inside⟩
  have hown : s.offered i.succ (s.workers i).current = false :=
    Worker.offered_current_of_sending hphase
  have hoffered : s'.offered i.succ = w.offered := by rw [offered_succ, hself]
  have hb : s'.offered i.succ (s.workers i).current = true := by
    rw [hoffered]
    show (if (s.workers i).current = (s.workers i).current then true else _) = true
    rw [if_pos rfl]
  have hother : ∀ c ≠ (s.workers i).current, s'.offered i.succ c = s.offered i.succ c := by
    intro c hc
    rw [hoffered]
    show (if c = (s.workers i).current then true else decide (1 ≤ (s.workers i).idx)) =
      if c = (s.workers i).current then _ else decide (1 ≤ (s.workers i).idx)
    rw [if_neg hc, if_neg hc]
  have hlog : ∀ j ≠ i, update log i.succ (log i.succ ++ [sent.bucket (s.mems i.succ)])
      j.succ = log j.succ :=
    fun j hij => update_of_ne (fun heq => hij (Fin.succ_injective n heq)) _ _
  rw [hstep]
  refine ⟨update log i.succ (log i.succ ++ [sent.bucket (s.mems i.succ)]), ?_⟩
  exact
    { trainer := by
        exact h.trainer
      worker := fun j => by
        by_cases hij : j = i
        · subst hij
          rw [hself, update_self]
          exact (h.worker j).sendInfo hphase hfits
        · rw [hworkers j hij, hlog j hij]
          exact h.worker j
      link := fun j => by
        have hsend := h.link_send hpos i.succ rfl hsentFits hown hb hother
          (fun rank hrank => offered_of_ne s s' rfl rfl hrank) j
        unfold LinkAt
        by_cases hij : j = i
        · subst hij
          rw [hself, update_self]
          exact hsend.sendInfo hphase _
        · rw [hworkers j hij, hlog j hij]
          exact hsend
      waitingNext := fun j info' hp => by
        by_cases hij : j = i
        · grind
        · rw [hworkers j hij] at hp
          exact h.waitingNext j info' hp }

theorem InvWith.yield {m : TensorMeta}
    {rest : List TensorMeta} (hphase : (s.workers i).phase = .yielding info (m :: rest)) :
    (s.yield i).InvWith cast all log := by
  obtain ⟨hyield, hinv⟩ := (h.worker i).yield hphase
  have hlink := h.link i
  refine h.setWorker_only i hinv ?_ (h.link_next i fun j _ b => ?_) fun info' hp => ?_
  · refine hlink.congr_worker ?_ ?_ ?_
    · unfold Worker.held
      rw [hyield, hphase]
    · rw [hyield, hphase]
      rfl
    · rw [hyield, hphase]
      rfl
  · rw [hyield]
    unfold Worker.offered
    rw [hphase]
    rfl
  · grind

/-- The magic word of worker `i` takes its place in a buffer that the agent before it offers. -/
theorem InvWith.writeMagic_eq (hfour : 4 ≤ bucketSize)
    (hphase : (s.workers i).phase = .yielding info []) :
    ∃ mem b, s.writeMagic i = { s.setWorker i ((s.workers i).swap info) with
        mems := update s.mems i.castSucc mem } ∧
      info.ptr = start bucketSize b ∧ s.offered i.castSucc b = true ∧ head mem b = magic ∧
      ∀ c ≠ b, SameBuffer (s.mems i.castSucc) mem c := by
  have htaken : info ∈ (s.workers i).phase.taken ++ s.infos i := by
    rw [hphase]
    exact mem_append_left _ mem_cons_self
  obtain ⟨b, hptr, hb, -⟩ := (h.link i).offers info htaken
  obtain ⟨mem, hwrite, hmagic, hother⟩ := exists_transferMagic hfour (s.mems i.castSucc) b
  refine ⟨mem, b, ?_, hptr, hb, hmagic, hother⟩
  unfold State.writeMagic
  rw [hphase]
  dsimp only
  rw [hptr, hwrite]

theorem InvWith.writeMagic (hfour : 4 ≤ bucketSize)
    (hphase : (s.workers i).phase = .yielding info [])
    (hcareful : s.yieldingFrom i.castSucc info.ptr = false) :
    (s.writeMagic i).InvWith cast all log := by
  have hpos : 0 < bucketSize := by omega
  obtain ⟨mem, b, hwrite, hptr, hb, hmagic, hother⟩ := h.writeMagic_eq hfour hphase
  rw [hptr] at hcareful
  rw [hwrite]
  set w := (s.workers i).swap info with hw
  set s' : State bucketSize n :=
    { s.setWorker i w with mems := update s.mems i.castSucc mem } with hs'
  have hself : s'.workers i = w := update_self ..
  have hworkers : ∀ j ≠ i, s'.workers j = s.workers j := fun j hij => update_of_ne hij _ _
  have hmem : s'.mems i.castSucc = mem := update_self ..
  have hmems : ∀ rank, rank ≠ i.castSucc → s'.mems rank = s.mems rank :=
    fun rank hrank => update_of_ne hrank _ _
  have hcast : ∀ j : Fin n, j ≠ i → j.castSucc ≠ i.castSucc :=
    fun j hij heq => hij (Fin.castSucc_injective n heq)
  -- the worker before `i`, if there is one, has nothing in the buffer
  have hprev : ∀ j : Fin n, j.succ = i.castSucc →
      (s.workers j).unyielded mem = (s.workers j).unyielded (s.mems j.succ) ∧
        (s.workers j).held mem = (s.workers j).held (s.mems j.succ) := by
    intro j hj
    rw [← hj] at hb hother hcareful
    refine Worker.congr_magic hb hcareful hother (h.worker j).fits fun info' hp => ?_
    refine h.fits_taken (i := j) ?_
    rw [hp]
    exact mem_cons_self
  exact
    { trainer := by
        by_cases hrank : (0 : Fin (n + 1)) = i.castSucc
        · rw [hrank, hmem, ← hrank]
          rw [← hrank] at hb hother
          exact h.trainer.congr_mem hb hother
        · rw [hmems 0 hrank]
          exact h.trainer
      worker := fun j => by
        by_cases hij : j = i
        · subst hij
          rw [hself, hmems _ (castSucc_ne_succ j).symm]
          exact (h.worker j).swap hphase
        · rw [hworkers j hij]
          by_cases hrank : j.succ = i.castSucc
          · rw [hrank, hmem, ← hrank]
            exact (h.worker j).congr rfl rfl (hprev j hrank).1 rfl (h.worker j).fits
              (h.worker j).waiting
          · rw [hmems _ hrank]
            exact h.worker j
      link := fun j => by
        have hlink := h.link j
        unfold LinkAt at ⊢
        by_cases hij : j = i
        · subst hij
          have hrank := castSucc_ne_succ j
          rw [hself, hmem, hmems _ hrank.symm, offered_of_ne s s' rfl rfl hrank]
          exact hlink.writeMagic hpos hphase hptr hmagic hother
        · rw [hworkers j hij, hmems _ (hcast j hij)]
          have hoffered : ∀ c, s'.offered j.castSucc c = s.offered j.castSucc c := by
            intro c
            by_cases hrank : j.castSucc = i.succ
            · rw [hrank, offered_succ, hself]
              exact Worker.offered_swap hphase c
            · rw [offered_of_ne s s' rfl rfl hrank]
          by_cases hrank : j.succ = i.castSucc
          · rw [hrank, hmem, ← hrank]
            exact (hlink.congr_worker (hprev j hrank).2 rfl rfl).congr_offered hoffered
          · rw [hmems _ hrank]
            exact hlink.congr_offered hoffered
      waitingNext := fun j info' hp => by
        by_cases hij : j = i
        · subst hij
          rw [hself] at hp
          have hp : (if info.isLast then Phase.returned else Phase.receiving) = .waiting info' := hp
          cases hl : info.isLast <;> rw [hl] at hp <;> cases hp
        · rw [hworkers j hij] at hp
          exact h.waitingNext j info' hp }

end

theorem Inv.step (hfour : 4 ≤ bucketSize) (hnodup : ((Trainer.goal cast all).map Named.name).Nodup)
    (hall : ∀ w ∈ all, (cast w).nbytes ≤ bucketSize) (h : s.Inv cast all) (a : Action n)
    (hguard : (relay cast a).guard s) (hcareful : Careful s a) :
    ((relay cast a).effect s).Inv cast all := by
  obtain ⟨log, h⟩ := h
  have hpos : 0 < bucketSize := by omega
  cases a with
  | pack => exact ⟨log, h.pack hnodup hall hguard.2.1 hguard.2.2⟩
  | flush => exact h.flush hpos hguard.2.1 hguard.2.2
  | wait => exact ⟨log, h.wait hguard.2.2 hcareful⟩
  | last => exact h.last hpos hguard.2.1 hguard.2.2.1 hguard.2.2.2
  | recv i => exact ⟨log, h.recv (Phase.eq_of_isReceiving hguard.2.1) hguard.2.2⟩
  | waitMagic i =>
    obtain ⟨info, hphase⟩ := Phase.exists_of_isWaiting hguard.2.1
    exact ⟨log, h.waitMagic hphase hguard.2.2 hcareful⟩
  | read i =>
    obtain ⟨info, hphase⟩ := Phase.exists_of_isReading hguard.2
    exact ⟨log, h.read hphase⟩
  | send i =>
    obtain ⟨info, hphase⟩ := Phase.exists_of_isSending hguard.2
    exact h.sendInfo hpos hphase
  | yield i =>
    obtain ⟨info, m, rest, hphase⟩ := Phase.exists_of_canYield hguard.2
    exact ⟨log, h.yield hphase⟩
  | writeMagic i =>
    obtain ⟨info, hphase⟩ := Phase.exists_of_hasYielded hguard.2
    refine ⟨log, h.writeMagic hfour hphase (hcareful info.ptr ?_)⟩
    unfold magicPtr
    rw [hphase]
    rfl

end State

end Verl.CheckpointEngine.Mooncake
