import Verl.CheckpointEngine.MooncakeRuns

/-! # The Mooncake chain, to its end

* `State.InvWith.keepsBuffers`: a careful step leaves alone what is still to be read or yielded.
* `State.InvWith.finished_of_stuck`: where no step is left, all agents are through.
* `State.InvWith.load_lt`: every step brings the end nearer. -/

namespace Verl.CheckpointEngine.Mooncake

open List Function

variable {bucketSize n : Nat} {cast : Weight → Weight} {all : List Weight} {log : Logs n}
  {s : State bucketSize n}

namespace State

/-! ## Safety -/

/-- No assertion and no transfer has failed. -/
structure Safe (s : State bucketSize n) : Prop where
  trainer : s.trainer.error = none
  worker : ∀ i, (s.workers i).error = none

variable {info : Info} {i : Fin n}

theorem InvWith.safe (h : s.InvWith cast all log) : s.Safe where
  trainer := h.trainer.error
  worker := fun i => (h.worker i).error

/-- What is still to be read by the next agent, and a buffer whose tensors are still to be yielded,
are the same in `s'`. -/
structure KeepsBuffers (s s' : State bucketSize n) : Prop where
  unread : ∀ i, ∀ info ∈ (s.workers i).phase.unread ++ s.infos i, ∀ o k, o + k ≤ info.len →
    (s'.mems i.castSucc).slice (info.ptr + o) k = (s.mems i.castSucc).slice (info.ptr + o) k
  unyielded : ∀ i, (s.workers i).phase.isSending = true ∨ (s.workers i).phase.canYield = true →
    SameBuffer (s.mems i.succ) (s'.mems i.succ) (s.workers i).current

theorem KeepsBuffers.of_eq {s' : State bucketSize n} (h : s'.mems = s.mems) : KeepsBuffers s s' where
  unread := fun i info _ o k _ => by rw [h]
  unyielded := fun i _ o k _ => by rw [h]

section

variable (h : s.InvWith cast all log)
include h

/-- A step that writes to a buffer nobody has still to read. -/
theorem InvWith.keepsBuffers_of_write {s' : State bucketSize n}
    (rank : Fin (n + 1)) (b : Bool) (hmems : ∀ r ≠ rank, s'.mems r = s.mems r)
    (hother : ∀ c ≠ b, SameBuffer (s.mems rank) (s'.mems rank) c)
    (hunread : ∀ i : Fin n, i.castSucc = rank → ∀ info ∈ (s.workers i).phase.unread ++ s.infos i,
      info.ptr ≠ start bucketSize b)
    (hunyielded : ∀ i : Fin n, i.succ = rank →
      (s.workers i).phase.isSending = true ∨ (s.workers i).phase.canYield = true →
        (s.workers i).current ≠ b) : KeepsBuffers s s' where
  unread := by
    intro i info hinfo o k hle
    by_cases hrank : i.castSucc = rank
    · obtain ⟨c, hptr, -, -⟩ := (h.link i).offers info (LinkInv.mem_taken_of_unread hinfo)
      have hlen := ((h.link i).fits info (LinkInv.mem_taken_of_unread hinfo)).len
      have hne : c ≠ b := by grind
      rw [hptr, hrank]
      exact hother c hne o k (by omega)
    · rw [hmems _ hrank]
  unyielded := by
    intro i hphase
    by_cases hrank : i.succ = rank
    · grind
    · rw [hmems _ hrank]
      exact fun _ _ _ => rfl

/-- An info tells of a buffer that is offered. -/
theorem InvWith.offered_of_unread (hpos : 0 < bucketSize)
    (hinfo : info ∈ (s.workers i).phase.unread ++ s.infos i) {b : Bool}
    (hptr : info.ptr = start bucketSize b) : s.offered i.castSucc b = true := by
  obtain ⟨c, hc, hoffered, -⟩ := (h.link i).offers info (LinkInv.mem_taken_of_unread hinfo)
  rw [start_injective hpos (hptr.symm.trans hc)]
  exact hoffered

theorem InvWith.keepsBuffers_pack (hpos : 0 < bucketSize)
    (hnodup : ((Trainer.goal cast all).map Named.name).Nodup)
    (hall : ∀ w ∈ all, (cast w).nbytes ≤ bucketSize) (hwaiting : s.trainer.waiting = false)
    (hfits : s.trainer.nextFits bucketSize cast = some true) : KeepsBuffers s (s.pack cast) := by
  obtain ⟨-, hpacks⟩ := h.trainer.pack hnodup hall hwaiting hfits
  refine h.keepsBuffers_of_write 0 s.trainer.idx
    (fun r hr => update_of_ne hr _ _) ?_ (fun i hrank info hinfo hptr => ?_)
    fun i hrank => absurd hrank (Fin.succ_ne_zero i)
  · have hmem : (s.pack cast).mems 0 = (s.trainer.pack cast (s.mems 0)).2 := by
      show update s.mems 0 _ 0 = _
      exact update_self ..
    rw [hmem]
    exact hpacks.other
  · have hoffered := h.offered_of_unread hpos hinfo hptr
    rw [hrank] at hoffered
    have hoffered : (if s.trainer.idx = s.trainer.idx then s.trainer.waiting
      else s.trainer.shouldWait) = true := hoffered
    rw [if_pos rfl, hwaiting] at hoffered
    cases hoffered

theorem InvWith.keepsBuffers_read (hpos : 0 < bucketSize)
    (hphase : (s.workers i).phase = .reading info) : KeepsBuffers s (s.read i) := by
  obtain ⟨mem, hread, -, hother⟩ := h.read_eq hphase
  rw [hread]
  refine h.keepsBuffers_of_write i.succ (s.workers i).current
    (fun r hr => update_of_ne hr _ _) ?_ (fun j hrank info' hinfo hptr => ?_)
    fun j hrank hj => ?_
  · grind
  · have hoffered := h.offered_of_unread hpos hinfo hptr
    rw [hrank, offered_succ, Worker.offered_current_of_reading hphase] at hoffered
    cases hoffered
  · obtain rfl := Fin.succ_injective n hrank
    rw [hphase] at hj
    rcases hj with hj | hj <;> cases hj

theorem InvWith.keepsBuffers_writeMagic (hfour : 4 ≤ bucketSize)
    (hphase : (s.workers i).phase = .yielding info [])
    (hcareful : s.yieldingFrom i.castSucc info.ptr = false) : KeepsBuffers s (s.writeMagic i) := by
  obtain ⟨mem, b, hwrite, hptr, hb, -, hother⟩ := h.writeMagic_eq hfour hphase
  rw [hptr] at hcareful
  rw [hwrite]
  refine h.keepsBuffers_of_write i.castSucc b
    (fun r hr => update_of_ne hr _ _) ?_ (fun j hrank info' hinfo hptr' => ?_)
    fun j hrank hj => ?_
  · grind
  · -- an info still on the queue tells of the other buffer
    obtain rfl := Fin.castSucc_injective n hrank
    have hnodup := (h.link j).nodup
    rw [hphase] at hnodup hinfo
    refine (nodup_cons.1 hnodup).1 ?_
    rw [hptr, ← hptr']
    exact mem_map_of_mem hinfo
  · rintro rfl
    rw [← hrank] at hcareful hb
    rcases hj with hj | hj
    · obtain ⟨info', hsending⟩ := Phase.exists_of_isSending hj
      rw [offered_succ, Worker.offered_current_of_sending hsending] at hb
      cases hb
    · have hcareful : ((s.workers j).phase.canYield && start bucketSize (s.workers j).current ==
        start bucketSize (s.workers j).current) = false := hcareful
      rw [hj, beq_self_eq_true] at hcareful
      cases hcareful

theorem InvWith.keepsBuffers (hfour : 4 ≤ bucketSize)
    (hnodup : ((Trainer.goal cast all).map Named.name).Nodup)
    (hall : ∀ w ∈ all, (cast w).nbytes ≤ bucketSize) (a : Action n)
    (hguard : (relay cast a).guard s) (hcareful : Careful s a) :
    KeepsBuffers s ((relay cast a).effect s) := by
  have hpos : 0 < bucketSize := by omega
  cases a with
  | pack => exact h.keepsBuffers_pack hpos hnodup hall hguard.2.1 hguard.2.2
  | flush => exact .of_eq rfl
  | wait => exact .of_eq rfl
  | last => exact .of_eq rfl
  | recv i =>
    refine .of_eq ?_
    show (s.recv i).mems = s.mems
    unfold State.recv
    split <;> rfl
  | waitMagic i =>
    refine .of_eq ?_
    show (s.waitMagic i).mems = s.mems
    unfold State.waitMagic
    split <;> rfl
  | read i =>
    obtain ⟨info, hphase⟩ := Phase.exists_of_isReading hguard.2
    exact h.keepsBuffers_read hpos hphase
  | send i =>
    refine .of_eq ?_
    show (s.sendInfo i).mems = s.mems
    unfold State.sendInfo
    split <;> rfl
  | yield i => exact .of_eq rfl
  | writeMagic i =>
    obtain ⟨info, hphase⟩ := Phase.exists_of_hasYielded hguard.2
    refine h.keepsBuffers_writeMagic hfour hphase (hcareful info.ptr ?_)
    unfold magicPtr
    rw [hphase]
    rfl

end

/-! ## The end -/

/-- `send_weights` has returned, and so has `receive_weights` of every worker. -/
structure Finished (s : State bucketSize n) : Prop where
  sent : s.trainer.lastSent = true ∧ s.trainer.waiting = false
  returned : ∀ i, (s.workers i).phase = .returned

/-- What an agent has sent, the agents before it have sent first. -/
theorem InvWith.log_prefix (h : s.InvWith cast all log) (rank : Fin (n + 1)) :
    log rank <+: log 0 := by
  induction rank using Fin.induction with
  | zero => exact prefix_refl _
  | succ i ih =>
    refine List.IsPrefix.trans ?_ ih
    rw [← (h.link i).stream, append_assoc]
    exact prefix_append _ _

/-- An agent that has sent the last bucket has sent all. -/
theorem InvWith.log_eq_of_last (h : s.InvWith cast all log) {rank : Fin (n + 1)}
    (hlast : (log rank).any Bucket.isLast = true) : log rank = log 0 := by
  obtain ⟨k, hk⟩ := h.trainer.flags
  refine eq_of_prefix_of_last (h.log_prefix rank) hk ?_ hlast
  unfold Trainer.endFlag
  split <;> simp

/-- Nothing is on its way to a worker that has returned. -/
theorem InvWith.infos_of_returned (h : s.InvWith cast all log)
    (hphase : (s.workers i).phase = .returned) : s.infos i = [] := by
  have hlast : log i.succ = log 0 := h.log_eq_of_last (by rw [(h.worker i).ended, hphase]; rfl)
  have hstream := congrArg length (h.link i).stream
  have hle := (h.log_prefix i.castSucc).length_le
  rw [length_append, length_append, length_map, hlast, hphase] at hstream
  have hstream : (log 0).length + _ + (s.infos i).length = (log i.castSucc).length := hstream
  exact length_eq_zero_iff.1 (by omega)

section Stuck

variable (h : s.InvWith cast all log) (hstuck : StepSystem.Stuck (relay cast) s)

include h hstuck

/-- The worker has nothing to do, for the next one holds none of its buffers. -/
theorem idle_of_next (i : Fin n)
    (hnext : ∀ j : Fin n, j.castSucc = i.succ → (s.workers j).phase.taken ++ s.infos j = []) :
    ((s.workers i).phase = .receiving ∨ (s.workers i).phase = .returned) ∧ s.infos i = [] := by
  have herror := (h.worker i).error
  cases hphase : (s.workers i).phase with
  | receiving =>
    refine ⟨.inl rfl, ?_⟩
    by_contra hne
    exact hstuck (.recv i) ⟨herror, by rw [hphase]; rfl, isEmpty_eq_false_iff.2 hne⟩
  | waiting info =>
    -- the next worker is through with the buffer, so the magic is there
    exfalso
    obtain ⟨j, hj⟩ := Option.isSome_iff_exists.1 (h.waitingNext i info hphase)
    have hrank := (eq_castSucc_of_nextLink hj).symm
    have hoffered : s.offered j.castSucc (s.workers i).current = true := by
      rw [hrank, offered_succ]
      unfold Worker.offered
      rw [if_pos rfl, hphase]
      exact decide_eq_true ((h.worker i).waiting info hphase)
    rcases (h.link j).free _ hoffered with ⟨info', hinfo', -⟩ | hmagic
    · grind
    · rw [hrank] at hmagic
      exact hstuck (.waitMagic i) ⟨herror, by rw [hphase]; rfl, hmagic⟩
  | reading info => exact absurd ⟨herror, by rw [hphase]; rfl⟩ (hstuck (.read i))
  | sending info => exact absurd ⟨herror, by rw [hphase]; rfl⟩ (hstuck (.send i))
  | yielding info rest =>
    cases rest with
    | nil => exact absurd ⟨herror, by rw [hphase]; rfl⟩ (hstuck (.writeMagic i))
    | cons m rest => exact absurd ⟨herror, by rw [hphase]; rfl⟩ (hstuck (.yield i))
  | returned => exact ⟨.inr rfl, h.infos_of_returned hphase⟩

/-- From the last worker to the first, no buffer is held. -/
theorem idle_of_stuck (i : Fin n) :
    ((s.workers i).phase = .receiving ∨ (s.workers i).phase = .returned) ∧ s.infos i = [] := by
  induction i using forall_of_next with
  | h i ih =>
    refine idle_of_next h hstuck i fun j hj => ?_
    obtain ⟨hphase, hinfos⟩ := ih j hj
    rw [hinfos]
    rcases hphase with hphase | hphase <;> rw [hphase] <;> rfl

theorem trainer_of_stuck (hn : 0 < n) : s.trainer.lastSent = true ∧ s.trainer.waiting = false := by
  have hzero : (⟨0, hn⟩ : Fin n).castSucc = 0 := rfl
  have hwaiting : s.trainer.waiting = false := by
    by_contra hw
    have hw : s.trainer.waiting = true := Bool.eq_true_of_not_eq_false hw
    have hoffered : s.offered (⟨0, hn⟩ : Fin n).castSucc s.trainer.idx = true := by
      rw [hzero]
      show (if s.trainer.idx = s.trainer.idx then s.trainer.waiting else _) = true
      rw [if_pos rfl, hw]
    obtain ⟨hphase, hinfos⟩ := idle_of_stuck h hstuck ⟨0, hn⟩
    rcases (h.link ⟨0, hn⟩).free _ hoffered with ⟨info', hinfo', -⟩ | hmagic
    · rw [hinfos] at hinfo'
      rcases hphase with hphase | hphase <;> rw [hphase] at hinfo' <;> cases hinfo'
    · exact hstuck .wait ⟨h.trainer.error, hw, hmagic⟩
  refine ⟨?_, hwaiting⟩
  by_contra hlast
  have hlast : s.trainer.lastSent = false := Bool.eq_false_of_not_eq_true hlast
  cases hfits : s.trainer.nextFits bucketSize cast with
  | none => exact hstuck .last ⟨h.trainer.error, hwaiting, hfits, hlast⟩
  | some fits =>
    cases fits with
    | true => exact hstuck .pack ⟨h.trainer.error, hwaiting, hfits⟩
    | false => exact hstuck .flush ⟨h.trainer.error, hwaiting, hfits⟩

/-- From the trainer to the last worker, all buckets are sent. -/
theorem log_of_stuck (hn : 0 < n) (rank : Fin (n + 1)) :
    log rank = log 0 ∧ (log rank).any Bucket.isLast = true := by
  induction rank using Fin.induction with
  | zero =>
    obtain ⟨k, hk⟩ := h.trainer.flags
    unfold Trainer.endFlag at hk
    rw [(trainer_of_stuck h hstuck hn).1] at hk
    exact ⟨rfl, any_of_flags hk⟩
  | succ i ih =>
    obtain ⟨hphase, hinfos⟩ := idle_of_stuck h hstuck i
    have hstream := (h.link i).stream
    have hnone : (s.workers i).held (s.mems i.succ) = [] ∧ (s.workers i).phase.unread = [] := by
      unfold Worker.held
      rcases hphase with hphase | hphase <;> rw [hphase] <;> exact ⟨rfl, rfl⟩
    rw [hnone.1, hnone.2, hinfos, append_nil] at hstream
    have hstream : log i.succ ++ [] = log i.castSucc := hstream
    rw [append_nil] at hstream
    rw [hstream]
    exact ih

theorem InvWith.finished_of_stuck (hn : 0 < n) : s.Finished where
  sent := trainer_of_stuck h hstuck hn
  returned := by
    intro i
    rcases (idle_of_stuck h hstuck i).1 with hphase | hphase
    · have hended := (h.worker i).ended
      rw [(log_of_stuck h hstuck hn i.succ).2, hphase] at hended
      cases hended
    · exact hphase

end Stuck

variable {info : Info} {i : Fin n}

/-- What a worker has yielded, and what it has still to yield of its bucket, comes first in what
was to be sent. -/
theorem InvWith.yielded_prefix (h : s.InvWith cast all log) (i : Fin n) :
    (s.workers i).yielded ++ (s.workers i).unyielded (s.mems i.succ) <+: Trainer.goal cast all := by
  rw [← (h.worker i).tensors]
  obtain ⟨rest, hrest⟩ := h.log_prefix i.succ
  rw [← h.trainer.sent, ← hrest, flatMap_append, append_assoc, append_assoc]
  exact prefix_append _ _

theorem InvWith.yielded_of_finished (h : s.InvWith cast all log) (hfinished : s.Finished)
    (i : Fin n) : (s.workers i).yielded = Trainer.goal cast all := by
  have hphase := hfinished.returned i
  have htensors := (h.worker i).tensors
  have hsent := h.trainer.sent
  have htodo := h.trainer.lastSent hfinished.sent.1
  have hlog : log i.succ = log 0 := h.log_eq_of_last (by rw [(h.worker i).ended, hphase]; rfl)
  unfold Worker.unyielded at htensors
  unfold Trainer.unsent at hsent
  rw [hlog, hphase, append_nil] at htensors
  rw [htodo, hfinished.sent.1, htensors] at hsent
  have hsent : (s.workers i).yielded ++ [] ++ [] = Trainer.goal cast all := hsent
  rw [append_nil, append_nil] at hsent
  exact hsent

/-! ## The way to the end -/

/-- The steps that all workers behind `i` take for one bucket. -/
def ahead (n : Nat) (i : Fin n) : Nat := 5 * (n - 1 - i.val)

def workerLoad (total : Nat) (i : Fin n) (w : Worker) : Nat :=
  (match w.phase with
    | .receiving => 0
    | .waiting _ => ahead n i + 4
    | .reading _ => ahead n i + 3
    | .sending _ => ahead n i + 2
    | .yielding _ _ => 1
    | .returned => 0) + (total - w.yielded.length)

def linkLoad (i : Fin n) (infos : List Info) : Nat := (ahead n i + 5) * infos.length

/-- A bucket that is sent loads the trainer and the first link. -/
def postLoad (n : Nat) : Nat := 5 * n + 2

def trainerLoad (n : Nat) (t : Trainer) : Nat :=
  (postLoad n + 1) * t.todo.length + (if t.flushed then 0 else postLoad n) +
    (if t.lastSent then 0 else postLoad n) + (if t.waiting then 1 else 0)

def load (total : Nat) (s : State bucketSize n) : Nat :=
  trainerLoad n s.trainer + ∑ i, workerLoad total i (s.workers i) + ∑ i, linkLoad i (s.infos i)

variable {total : Nat}

theorem load_lt_of_worker {w : Worker} {s' : State bucketSize n} (htrainer : s'.trainer = s.trainer)
    (hworkers : s'.workers = update s.workers i w) (hinfos : s'.infos = s.infos)
    (hlt : workerLoad total i w < workerLoad total i (s.workers i)) :
    load total s' < load total s := by
  have hsum := sum_update (workerLoad total) s.workers i w
  unfold load
  rw [htrainer, hworkers, hinfos]
  omega

theorem sum_send (rank : Fin (n + 1)) (info : Info) :
    ∑ i, linkLoad i (s.send rank info i) ≤ ∑ i, linkLoad i (s.infos i) + 5 * (n - rank.val) := by
  unfold send
  cases hnext : nextLink rank with
  | none => exact Nat.le_add_right _ _
  | some i =>
    obtain rfl := eq_castSucc_of_nextLink hnext
    have hsum := sum_update linkLoad s.infos i (s.infos i ++ [info])
    have hload : linkLoad i (s.infos i ++ [info]) = linkLoad i (s.infos i) + (ahead n i + 5) := by
      unfold linkLoad
      rw [length_append, length_singleton, Nat.mul_add_one]
    have hahead : ahead n i + 5 = 5 * (n - i.val) := by
      unfold ahead
      omega
    rw [Fin.val_castSucc]
    dsimp only
    omega

theorem InvWith.load_pack (h : s.InvWith cast all log)
    (hnodup : ((Trainer.goal cast all).map Named.name).Nodup)
    (hall : ∀ w ∈ all, (cast w).nbytes ≤ bucketSize) (hwaiting : s.trainer.waiting = false)
    (hfits : s.trainer.nextFits bucketSize cast = some true) :
    load total (s.pack cast) < load total s := by
  obtain ⟨-, hpacks⟩ := h.trainer.pack hnodup hall hwaiting hfits
  have hle : (if (s.trainer.pack cast (s.mems 0)).1.flushed then 0 else postLoad n) ≤
      postLoad n := by
    split <;> omega
  unfold load State.pack trainerLoad
  dsimp only
  rw [hpacks.todo, hpacks.lastSent, hpacks.waiting, Nat.mul_add_one]
  omega

theorem load_flush (hwaiting : s.trainer.waiting = false)
    (hfits : s.trainer.nextFits bucketSize cast = some false) : load total s.flush < load total s := by
  have hflushed : s.trainer.flushed = false := by
    unfold Trainer.nextFits at hfits
    cases htodo : s.trainer.todo with
    | nil => rw [htodo] at hfits; cases hfits
    | cons w rest =>
      rw [htodo] at hfits
      have hfits := Option.some.inj hfits
      rw [Bool.or_eq_false_iff] at hfits
      exact hfits.1
  have hsend := s.sum_send 0 (s.trainer.info bucketSize false)
  have hwait : (if s.trainer.shouldWait then 1 else 0) ≤ 1 := by split <;> omega
  have htrainer : trainerLoad n s.trainer.flush + postLoad n ≤ trainerLoad n s.trainer + 1 := by
    unfold trainerLoad
    rw [hflushed, hwaiting]
    show (postLoad n + 1) * s.trainer.todo.length + 0 +
        (if s.trainer.lastSent then 0 else postLoad n) + (if s.trainer.shouldWait then 1 else 0) +
        postLoad n ≤
      (postLoad n + 1) * s.trainer.todo.length + postLoad n +
        (if s.trainer.lastSent then 0 else postLoad n) + 0 + 1
    omega
  rw [Fin.val_zero, Nat.sub_zero] at hsend
  unfold postLoad at htrainer
  unfold load State.flush
  dsimp only
  omega

theorem load_wait (hwaiting : s.trainer.waiting = true) :
    load total { s with trainer := { s.trainer with waiting := false } } < load total s := by
  have htrainer : trainerLoad n { s.trainer with waiting := false } + 1 =
      trainerLoad n s.trainer := by
    unfold trainerLoad
    rw [hwaiting]
    rfl
  unfold load
  dsimp only at htrainer ⊢
  omega

theorem load_last (hwaiting : s.trainer.waiting = false) (hlast : s.trainer.lastSent = false) :
    load total s.last < load total s := by
  have hsend := s.sum_send 0 (s.trainer.info bucketSize true)
  have htrainer : trainerLoad n { s.trainer with lastSent := true, waiting := true } + postLoad n =
      trainerLoad n s.trainer + 1 := by
    unfold trainerLoad
    rw [hwaiting, hlast]
    show (postLoad n + 1) * s.trainer.todo.length +
        (if s.trainer.flushed then 0 else postLoad n) + 0 + 1 + postLoad n =
      (postLoad n + 1) * s.trainer.todo.length +
        (if s.trainer.flushed then 0 else postLoad n) + postLoad n + 0 + 1
    omega
  unfold postLoad at htrainer
  unfold load State.last
  dsimp only at htrainer ⊢
  omega

theorem load_recv (hphase : (s.workers i).phase = .receiving)
    (hinfos : (s.infos i).isEmpty = false) : load total (s.recv i) < load total s := by
  obtain ⟨info, infos, hcons⟩ := exists_cons_of_ne_nil (isEmpty_eq_false_iff.1 hinfos)
  unfold State.recv
  rw [hcons]
  dsimp only
  set phase : Phase := if 2 ≤ (s.workers i).idx ∧ (nextLink i.succ).isSome = true then .waiting info
    else .reading info with hset
  have hworkers := sum_update (workerLoad total) s.workers i { s.workers i with phase := phase }
  have hlinks := sum_update linkLoad s.infos i infos
  have hworker : workerLoad total i { s.workers i with phase := phase } ≤
      workerLoad total i (s.workers i) + (ahead n i + 4) := by
    unfold workerLoad
    rw [hphase, hset]
    by_cases hwait : 2 ≤ (s.workers i).idx ∧ (nextLink i.succ).isSome = true
    · grind
    · grind
  have hlink : linkLoad i (s.infos i) = linkLoad i infos + (ahead n i + 5) := by
    unfold linkLoad
    rw [hcons, length_cons, Nat.mul_add_one]
  unfold load setWorker
  dsimp only at hworkers hworker ⊢
  omega

theorem load_waitMagic (hphase : (s.workers i).phase = .waiting info) :
    load total (s.waitMagic i) < load total s := by
  unfold State.waitMagic
  rw [hphase]
  refine load_lt_of_worker rfl rfl rfl ?_
  unfold workerLoad
  rw [hphase]
  dsimp only
  omega

theorem InvWith.load_read (h : s.InvWith cast all log)
    (hphase : (s.workers i).phase = .reading info) : load total (s.read i) < load total s := by
  obtain ⟨mem, hread, -, -⟩ := h.read_eq hphase
  rw [hread]
  refine load_lt_of_worker (w := { s.workers i with phase := .sending info }) rfl rfl rfl ?_
  unfold workerLoad
  rw [hphase]
  dsimp only
  omega

theorem load_sendInfo (hphase : (s.workers i).phase = .sending info) :
    load total (s.sendInfo i) < load total s := by
  have hsend := s.sum_send i.succ { info with ptr := start bucketSize (s.workers i).current }
  have hworkers := sum_update (workerLoad total) s.workers i
    { s.workers i with phase := .yielding info (info.bucketMeta.items.map Prod.snd) }
  have hworker : workerLoad total i
      { s.workers i with phase := .yielding info (info.bucketMeta.items.map Prod.snd) } +
        (ahead n i + 1) = workerLoad total i (s.workers i) := by
    unfold workerLoad
    rw [hphase]
    dsimp only
    omega
  have hahead : 5 * (n - i.succ.val) = ahead n i := by
    rw [Fin.val_succ]
    unfold ahead
    omega
  unfold State.sendInfo
  rw [hphase]
  unfold load setWorker
  dsimp only at hworkers hworker ⊢
  omega

theorem InvWith.load_yield (h : s.InvWith cast all log) {m : TensorMeta}
    {rest : List TensorMeta} (hphase : (s.workers i).phase = .yielding info (m :: rest)) :
    load (Trainer.goal cast all).length (s.yield i) < load (Trainer.goal cast all).length s := by
  obtain ⟨hyield, -⟩ := (h.worker i).yield hphase
  have hle := (h.yielded_prefix i).length_le
  unfold Worker.unyielded readTensors at hle
  rw [hphase, length_append] at hle
  rw [length_map, length_cons] at hle
  refine load_lt_of_worker rfl rfl rfl ?_
  rw [hyield]
  unfold workerLoad
  rw [hphase]
  dsimp only
  rw [length_append, length_singleton]
  omega

theorem InvWith.load_writeMagic (h : s.InvWith cast all log) (hfour : 4 ≤ bucketSize)
    (hphase : (s.workers i).phase = .yielding info []) :
    load total (s.writeMagic i) < load total s := by
  obtain ⟨mem, b, hwrite, -⟩ := h.writeMagic_eq hfour hphase
  rw [hwrite]
  refine load_lt_of_worker (w := (s.workers i).swap info) rfl rfl rfl ?_
  unfold workerLoad Worker.swap
  rw [hphase]
  dsimp only
  cases info.isLast with
  | true =>
    show 0 + _ < 1 + _
    omega
  | false =>
    show 0 + _ < 1 + _
    omega

theorem InvWith.load_lt (h : s.InvWith cast all log) (hfour : 4 ≤ bucketSize)
    (hnodup : ((Trainer.goal cast all).map Named.name).Nodup)
    (hall : ∀ w ∈ all, (cast w).nbytes ≤ bucketSize) (a : Action n)
    (hguard : (relay cast a).guard s) :
    load (Trainer.goal cast all).length ((relay cast a).effect s) <
      load (Trainer.goal cast all).length s := by
  cases a with
  | pack => exact h.load_pack hnodup hall hguard.2.1 hguard.2.2
  | flush => exact load_flush hguard.2.1 hguard.2.2
  | wait => exact load_wait hguard.2.1
  | last => exact load_last hguard.2.1 hguard.2.2.2
  | recv i => exact load_recv (Phase.eq_of_isReceiving hguard.2.1) hguard.2.2
  | waitMagic i =>
    obtain ⟨info, hphase⟩ := Phase.exists_of_isWaiting hguard.2.1
    exact load_waitMagic hphase
  | read i =>
    obtain ⟨info, hphase⟩ := Phase.exists_of_isReading hguard.2
    exact h.load_read hphase
  | send i =>
    obtain ⟨info, hphase⟩ := Phase.exists_of_isSending hguard.2
    exact load_sendInfo hphase
  | yield i =>
    obtain ⟨info, m, rest, hphase⟩ := Phase.exists_of_canYield hguard.2
    exact h.load_yield hphase
  | writeMagic i =>
    obtain ⟨info, hphase⟩ := Phase.exists_of_hasYielded hguard.2
    exact h.load_writeMagic hfour hphase

end State

/-! ## Every careful run -/

/-- A tensor of bytes. -/
def tensor (name : String) (bytes : List UInt8) : Weight where
  name := name
  dtype := { name := "torch.uint8", itemsize := 1 }
  shape := [bytes.length]
  bytes := bytes
  length_eq := by simp

/-- The memory of the agents before the first transfer. -/
def zeros (bucketSize n : Nat) : Fin (n + 1) → Memory bucketSize :=
  fun _ => Buffer.replicate _ 0

/-- Three buckets through two workers. -/
def threeBuckets : List Weight :=
  [tensor "a" [1, 2, 3, 4], tensor "b" [5, 6, 7, 8], tensor "c" [9]]

def threeBucketsRun : List (Action 2) :=
  [ .pack, .flush, .pack, .flush, .recv 0, .read 0, .send 0, .recv 1, .yield 0, .read 1,
    .writeMagic 0, .wait, .pack, .send 1, .last, .yield 1, .recv 0, .writeMagic 1, .read 0, .send 0,
    .yield 0, .recv 1, .writeMagic 0, .read 1, .recv 0, .send 1, .waitMagic 0, .yield 1, .read 0,
    .writeMagic 1, .send 0, .yield 0, .writeMagic 0, .wait, .recv 1, .read 1, .send 1, .yield 1,
    .writeMagic 1 ]

end Verl.CheckpointEngine.Mooncake
