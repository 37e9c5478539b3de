import Verl.CheckpointEngine.NixlRuns

/-! # The chain, to its end

* `State.InvWith.exclusive`: what is packed or read into is not being read by the next agent.
* `State.InvWith.keepsBuffers`: a step leaves alone the buffers that are still to be read.
* `State.InvWith.finished_of_stuck`: where no step is left, all agents are through.  From the last
  worker to the trainer, no read is outstanding; from the trainer to the last worker, the last
  bucket has been posted.
* `State.InvWith.load_lt`: every step brings the end nearer. -/

namespace Verl.CheckpointEngine.Nixl

open List Function Option

variable {bucketSize n : Nat} {chunks : List Chunk} {log : Logs bucketSize n}
  {s : State bucketSize n}

namespace State

/-! ## Safety -/

/-- No assertion has failed, that of a notify key among them. -/
structure Safe (s : State bucketSize n) : Prop where
  trainer : s.trainer.error = none
  worker : ∀ i, (s.workers i).error = none

variable {m : ReadableMessage} {i : Fin n}

theorem InvWith.safe (h : s.InvWith chunks log) : s.Safe where
  trainer := h.trainer.error
  worker := fun i => (h.worker i).error

/-- The buffer that an agent packs or reads into is not the one that the next agent reads. -/
structure Exclusive (s : State bucketSize n) : Prop where
  pack : s.trainer.nextFits = some true → ∀ i : Fin n, i.castSucc = 0 → ∀ m,
    (s.workers i).inFlight = some m → m.remoteDescs ≠ s.trainer.sendBuf
  read : ∀ i j : Fin n, j.castSucc = i.succ → ∀ op, (s.workers i).readOp = some op → ∀ m,
    (s.workers j).inFlight = some m → m.remoteDescs ≠ op.localDescs

theorem mem_waiting_of_inFlight {w : Worker bucketSize} {l : Link}
    (h : w.inFlight = some m) : m ∈ w.waiting l := by
  obtain ⟨b, hop⟩ := Worker.eq_of_inFlight h
  unfold Worker.waiting Worker.reading
  rw [hop]
  exact mem_append_left _ mem_cons_self

section

variable (h : s.InvWith chunks log)
include h

/-- The buffer that a message tells of, by the operation of its agent. -/
theorem InvWith.remoteDescs_of_waiting (hm : m ∈ (s.workers i).waiting (s.links i)) :
    ∃ op, s.readableOp i.castSucc = some op ∧ op.localDescs = m.remoteDescs := by
  obtain ⟨op, hop, hdescs⟩ := (h.link i).descs m hm
  exact ⟨op, by rw [readableOp_castSucc]; exact hop, hdescs⟩

theorem InvWith.lastPosted_of_fits (hfits : s.trainer.nextFits = some true) : s.trainer.lastPosted = false := by
  obtain ⟨c, rest, htodo, -⟩ := Sender.nextFits_eq_true (s := s.trainer.toSender) hfits
  exact h.trainer.lastPosted_eq_false (by rw [htodo]; exact cons_ne_nil _ _)

/-- What the next worker has still to read is not in the buffer of the trainer's packing. -/
theorem InvWith.ne_sendBuf (hfits : s.trainer.nextFits = some true) (hi : i.castSucc = 0)
    (hm : m ∈ (s.workers i).waiting (s.links i)) : m.remoteDescs = !s.trainer.sendBuf := by
  obtain ⟨op, hop, hdescs⟩ := h.remoteDescs_of_waiting hm
  rw [hi] at hop
  rw [← hdescs]
  exact h.trainerOp op hop (h.lastPosted_of_fits hfits)

/-- What the next worker has still to read is not in the buffer that is read into. -/
theorem InvWith.eq_sendBuf {j : Fin n} (hij : j.castSucc = i.succ)
    (hm : m ∈ (s.workers j).waiting (s.links j)) :
    m.remoteDescs = (s.workers i).sendBuf := by
  obtain ⟨op, hop, hdescs⟩ := h.remoteDescs_of_waiting hm
  rw [hij] at hop
  rw [← hdescs]
  exact (h.workerOp i op hop).1

theorem InvWith.exclusive : s.Exclusive where
  pack := by
    intro hfits i hi m hm
    rw [h.ne_sendBuf hfits hi (mem_waiting_of_inFlight hm)]
    exact Bool.not_ne_self _
  read := by
    intro i j hij op hop m hm
    rw [h.eq_sendBuf hij (mem_waiting_of_inFlight hm), (h.worker i).localDescs op hop]
    exact (Bool.not_ne_self _).symm

end

/-! ## Buffers in use -/

/-- The buffers in use in `s` are the same in `s'`: one that the next agent was told of and has not
read, one whose chunks are being read, and one that was read and is not published. -/
structure KeepsBuffers (s s' : State bucketSize n) : Prop where
  posted : ∀ i : Fin n, ∀ m ∈ (s.workers i).waiting (s.links i),
    s'.bufs i.castSucc m.remoteDescs = s.bufs i.castSucc m.remoteDescs
  yielding : ∀ i, (s.workers i).yielding ≠ [] →
    (s'.workers i).bufs (s.workers i).sendBuf = (s.workers i).bufs (s.workers i).sendBuf
  arrived : ∀ i op, (s.workers i).readOp = some op → op.xferHandle = some .done →
    (s'.workers i).bufs op.localDescs = (s.workers i).bufs op.localDescs
  unpublished : ∀ i, (s.workers i).metadata.isSome = true →
    (s'.workers i).bufs (s.workers i).sendBuf = (s.workers i).bufs (s.workers i).sendBuf

theorem KeepsBuffers.of_eq {s' : State bucketSize n} (h : ∀ rank, s'.bufs rank = s.bufs rank) :
    KeepsBuffers s s' := by
  have hworker : ∀ i, (s'.workers i).bufs = (s.workers i).bufs := fun i => h i.succ
  exact
    { posted := fun i m _ => by rw [h]
      yielding := fun i _ => by rw [hworker]
      arrived := fun i op _ _ => by rw [hworker]
      unpublished := fun i _ => by rw [hworker] }

theorem bufs_setWorker (i : Fin n) (w : Worker bucketSize) (l : Fin n → Link)
    (hw : w.bufs = (s.workers i).bufs) (rank : Fin (n + 1)) :
    State.bufs { s with workers := update s.workers i w, links := l } rank =
      s.bufs rank := by
  by_cases hrank : rank = i.succ
  · rw [hrank, bufs_succ, bufs_succ]
    show (update s.workers i w i).bufs = _
    rw [update_self, hw]
  · exact bufs_of_ne s { s with workers := update s.workers i w, links := l } rfl rfl hrank

theorem InvWith.keepsBuffers_pack (hchunks : ChunkStream bucketSize chunks)
    (h : s.InvWith chunks log) (hfits : s.trainer.nextFits = some true) :
    KeepsBuffers s { s with trainer := s.trainer.pack } where
  posted := by
    intro i m hm
    cases hrank : i.castSucc using Fin.cases with
    | zero =>
      obtain ⟨hinv, c, hpacks⟩ := h.trainer.pack hchunks hfits
      rw [← Trainer.toSender_pack hinv.error] at hpacks
      rw [h.ne_sendBuf hfits hrank hm]
      exact hpacks.other
    | succ k => rfl
  yielding := fun _ _ => rfl
  arrived := fun _ _ _ _ => rfl
  unpublished := fun _ _ => rfl

/-- A read writes to the other buffer of the worker, and no agent but the worker has use of it. -/
theorem InvWith.keepsBuffers_finishRead (h : s.InvWith chunks log)
    {message : ReadableMessage} (hflight : (s.workers i).inFlight = some message) :
    KeepsBuffers s (s.finishRead i) := by
  obtain ⟨b, hop⟩ := Worker.eq_of_inFlight hflight
  unfold State.finishRead
  rw [hflight]
  dsimp only
  set data := s.bufs i.castSucc message.remoteDescs with hdata
  set s' : State bucketSize n := { s.onWorker i fun w => w.finishRead data with
      links := update s.links i
        { s.links i with notifications := (s.links i).notifications ++ [message.notifyKey] } }
    with hs'
  have hself : s'.workers i = (s.workers i).finishRead data := update_self ..
  have hother : ∀ j ≠ i, s'.workers j = s.workers j := fun j hij => update_of_ne hij _ _
  have hkept := (h.worker i).bufs_finishRead data
  constructor
  case posted =>
    intro j m hm
    by_cases hrank : j.castSucc = i.succ
    · rw [hrank, bufs_succ, bufs_succ, hself, h.eq_sendBuf hrank hm]
      exact hkept
    · rw [bufs_of_ne s s' rfl rfl hrank]
  case yielding =>
    intro j _
    by_cases hij : j = i
    · grind
    · rw [hother j hij]
  case arrived =>
    intro j op hop' hdone
    by_cases hij : j = i
    · -- this read is under way, not done
      subst hij
      rw [hop] at hop'
      cases hop'
      cases hdone
    · rw [hother j hij]
  case unpublished =>
    intro j _
    by_cases hij : j = i
    · grind
    · rw [hother j hij]

theorem bufs_advance (w : Worker bucketSize) : w.advance.bufs = w.bufs := by
  unfold Worker.advance
  split <;> rfl

theorem bufs_yield (w : Worker bucketSize) : w.yield.bufs = w.bufs := by
  unfold Worker.yield
  split
  · rfl
  · split <;> rfl

theorem bufs_wait (s : State bucketSize n) (rank : Fin (n + 1)) : s.wait.bufs rank = s.bufs rank := by
  unfold State.wait
  split
  · rfl
  · split <;> rfl

theorem bufs_readMetadata (s : State bucketSize n) (i : Fin n) (rank : Fin (n + 1)) :
    (s.readMetadata i).bufs rank = s.bufs rank := by
  unfold State.readMetadata
  split
  case h_1 => rfl
  case h_2 message messages _ =>
    exact bufs_setWorker i ((s.workers i).readMetadata message) _ rfl rank

theorem bufs_publish (s : State bucketSize n) (uuid : Fin (n + 1) → Nat → NotifyKey) (i : Fin n)
    (rank : Fin (n + 1)) : (s.publish uuid i).bufs rank = s.bufs rank := by
  unfold State.publish
  split
  case h_1 => rfl
  case h_2 metadata _ => exact bufs_setWorker i ((s.workers i).publish metadata) _ rfl rank

theorem bufs_waitReadable (s : State bucketSize n) (i : Fin n) (rank : Fin (n + 1)) :
    (s.waitReadable i).bufs rank = s.bufs rank := by
  unfold State.waitReadable
  split
  case h_1 => rfl
  case h_2 j _ =>
    split
    case h_1 => rfl
    case h_2 e _ => exact bufs_setWorker i { s.workers i with error := some e } s.links rfl rank

theorem InvWith.keepsBuffers {uuid : Fin (n + 1) → Nat → NotifyKey}
    (hchunks : ChunkStream bucketSize chunks) (h : s.InvWith chunks log) (a : Action n)
    (hguard : (relay uuid a).guard s) : KeepsBuffers s ((relay uuid a).effect s) := by
  cases a with
  | pack => exact h.keepsBuffers_pack hchunks hguard.2
  | wait => exact .of_eq s.bufs_wait
  | flush => exact .of_eq fun _ => rfl
  | last => exact .of_eq fun _ => rfl
  | readMetadata i => exact .of_eq (s.bufs_readMetadata i)
  | beginRead i => exact .of_eq (bufs_setWorker i _ s.links rfl)
  | finishRead i =>
    obtain ⟨message, hflight⟩ := isSome_iff_exists.1 hguard
    exact h.keepsBuffers_finishRead hflight
  | advance i => exact .of_eq (bufs_setWorker i _ s.links (bufs_advance _))
  | publish i => exact .of_eq (s.bufs_publish uuid i)
  | yield i => exact .of_eq (bufs_setWorker i _ s.links (bufs_yield _))
  | waitReadable i => exact .of_eq (s.bufs_waitReadable i)

/-! ## The last bucket -/

/-- An agent that has posted the last bucket has posted all. -/
theorem InvWith.log_eq_of_last (h : s.InvWith chunks log) {rank : Fin (n + 1)}
    (hlast : ((log rank).any fun m => m.metadata.isLast) = true) : log rank = log 0 := by
  obtain ⟨k, hk⟩ := h.flags
  refine eq_of_prefix_of_last (h.log_prefix rank) hk ?_ hlast
  unfold Trainer.endFlag
  split <;> simp

/-- A worker that has left the loop and published its last bucket. -/
theorem InvWith.log_eq_of_returned (h : s.InvWith chunks log)
    (hop : (s.workers i).readOp = none) (hmeta : (s.workers i).metadata = none) :
    log i.succ = log 0 :=
  h.log_eq_of_last (by rw [(h.worker i).ended, hop, hmeta]; rfl)

/-- All before it has been posted to a worker that has posted all. -/
theorem InvWith.held_eq_nil (h : s.InvWith chunks log) (hlog : log i.succ = log 0) :
    (s.workers i).held = [] ∧ (s.workers i).waiting (s.links i) = [] := by
  have hstream := congrArg length (h.link i).stream
  have hle := (h.log_prefix i.castSucc).length_le
  rw [length_append, length_append, length_map, hlog] at hstream
  exact ⟨length_eq_zero_iff.1 (by omega), length_eq_zero_iff.1 (by omega)⟩

/-! ## The end -/

/-- `send_weights` has returned, and so has `_receive_weight_chunks` of every worker. -/
structure Finished (s : State bucketSize n) : Prop where
  posted : s.trainer.lastPosted = true
  waited : ∀ rank, s.readableOp rank = none
  returned : ∀ i, (s.workers i).readOp = none ∧ (s.workers i).metadata = none ∧
    (s.workers i).yielding = []

section Stuck

variable {uuid : Fin (n + 1) → Nat → NotifyKey} (h : s.InvWith chunks log)
  (hstuck : StepSystem.Stuck (relay uuid) s)

include h hstuck

variable (i : Fin n)

theorem metadata_of_stuck : (s.workers i).metadata = none := by
  cases hmeta : (s.workers i).metadata with
  | none => rfl
  | some metadata =>
    exact absurd ⟨(h.worker i).error, by rw [hmeta]; rfl⟩ (hstuck (.publish i))

theorem yielding_of_stuck (hpast : (s.workers i).pastBegin = true) :
    (s.workers i).yielding.isEmpty = true := by
  by_contra hne
  exact hstuck (.yield i) ⟨(h.worker i).error, hpast, Bool.eq_false_of_not_eq_true hne⟩

omit hstuck in
/-- An operation whose read is finished does not stay. -/
theorem readableOp_of_stuck (i : Fin n) (hwaiting : (s.workers i).waiting (s.links i) = [])
    (howner : ¬s.Notified i.castSucc) : s.readableOp i.castSucc = none := by
  rw [readableOp_castSucc]
  cases hop : (s.links i).readableOp with
  | none => rfl
  | some op =>
    exfalso
    have hkeys := (h.link i).keys
    rw [hwaiting, hop] at hkeys
    have hkeys : (s.links i).notifications ++ [] = [op.notifyKey] := hkeys
    rw [append_nil] at hkeys
    refine howner ((s.notified_castSucc i).2 ⟨by rw [hop]; rfl, ?_⟩)
    rw [hkeys]
    rfl

/-- A worker past its `begin_read` does not wait for a finished operation. -/
theorem not_notified_of_stuck (hpast : (s.workers i).pastBegin = true) :
    ¬s.Notified i.succ := fun hn =>
  hstuck (.waitReadable i) ⟨(h.worker i).error, hpast, yielding_of_stuck h hstuck i hpast, hn⟩

/-- The worker can go on if the reads of the next one are finished. -/
theorem waiting_of_next (hnext : ∀ j : Fin n, j.castSucc = i.succ → (s.workers j).waiting (s.links j) = []) :
    (s.workers i).hasRead = false ∧ (s.workers i).waiting (s.links i) = [] := by
  have hmeta := metadata_of_stuck h hstuck i
  cases hop : (s.workers i).readOp with
  | none =>
    refine ⟨?_, (h.held_eq_nil (h.log_eq_of_returned hop hmeta)).2⟩
    unfold Worker.hasRead
    rw [hop]
    rfl
  | some op =>
    obtain ⟨b, message, xferHandle⟩ := op
    cases message with
    | none =>
      have hxfer : xferHandle = none := (h.worker i).message _ hop rfl
      subst hxfer
      have hmessages : (s.links i).messages = [] := by
        by_contra hne
        refine hstuck (.readMetadata i) ⟨(h.worker i).error, ?_, isEmpty_eq_false_iff.2 hne⟩
        unfold Worker.awaitsMessage
        rw [hop]
        rfl
      refine ⟨?_, ?_⟩
      · unfold Worker.hasRead
        rw [hop]
        rfl
      · unfold Worker.waiting Worker.reading
        rw [hop, hmessages]
        rfl
    | some message =>
      exfalso
      cases xferHandle with
      | none =>
        refine hstuck (.beginRead i) ⟨(h.worker i).error, ?_⟩
        unfold Worker.canBegin
        rw [hop]
        rfl
      | some state =>
        cases state with
        | proc =>
          apply hstuck (.finishRead i)
          show (s.workers i).inFlight.isSome = true
          unfold Worker.inFlight
          rw [hop]
          rfl
        | done =>
          have hpast : (s.workers i).pastBegin = true := by simp [Worker.pastBegin, hop]
          have hread : (s.workers i).hasRead = true := by simp [Worker.hasRead, hop]
          -- the next worker, if there is one, has read what this one has posted
          have hout : s.readableOp i.succ = none := by
            cases hlink : nextLink i.succ with
            | none =>
              unfold readableOp
              rw [hlink]
              rfl
            | some j =>
              have hrank := eq_castSucc_of_nextLink hlink
              have hnot := not_notified_of_stuck h hstuck i hpast
              rw [hrank] at hnot ⊢
              exact readableOp_of_stuck h j (hnext j hrank.symm) hnot
          exact hstuck (.advance i) ⟨(h.worker i).error, yielding_of_stuck h hstuck i hpast,
            by rw [hout]; rfl, hread⟩

/-- From the last worker to the first, no read is outstanding. -/
theorem waiting_of_stuck :
    (s.workers i).hasRead = false ∧ (s.workers i).waiting (s.links i) = [] := by
  induction i using forall_of_next with
  | h i ih => exact waiting_of_next h hstuck i fun j hj => (ih j hj).2

theorem trainer_of_stuck (hn : 0 < n) : s.trainer.lastPosted = true ∧ s.readableOp 0 = none := by
  have hfits : s.trainer.nextFits ≠ some true := fun hfits =>
    hstuck .pack ⟨h.trainer.error, hfits⟩
  have hop : s.readableOp 0 = none := by
    exact readableOp_of_stuck h ⟨0, hn⟩ (waiting_of_stuck h hstuck ⟨0, hn⟩).2
      fun hnot => hstuck .wait ⟨h.trainer.error, hfits, hnot⟩
  refine ⟨?_, hop⟩
  by_contra hlast
  have hlast : s.trainer.lastPosted = false := Bool.eq_false_of_not_eq_true hlast
  have hnone : (s.readableOp 0).isNone = true := by rw [hop]; rfl
  cases hcase : s.trainer.nextFits with
  | none => exact hstuck .last ⟨h.trainer.error, hcase, hlast, hnone⟩
  | some fits =>
    cases fits with
    | true => exact hfits hcase
    | false => exact hstuck .flush ⟨h.trainer.error, hcase, hnone⟩

/-- From the trainer to the last worker, all buckets are posted. -/
theorem log_of_stuck (hn : 0 < n) (rank : Fin (n + 1)) :
    log rank = log 0 ∧ ((log rank).any fun m => m.metadata.isLast) = true := by
  induction rank using Fin.induction with
  | zero =>
    refine ⟨rfl, ?_⟩
    obtain ⟨k, hk⟩ := h.flags
    unfold Trainer.endFlag at hk
    rw [(trainer_of_stuck h hstuck hn).1] at hk
    exact any_of_flags hk
  | succ i ih =>
    obtain ⟨hread, hwaiting⟩ := waiting_of_stuck h hstuck i
    have hstream := (h.link i).stream
    have hheld : (s.workers i).held = [] := by
      unfold Worker.held Worker.arrived
      rw [metadata_of_stuck h hstuck i]
      unfold Worker.hasRead at hread
      cases hop : (s.workers i).readOp with
      | none => rfl
      | some op =>
        rw [hop] at hread
        exact if_neg (of_decide_eq_false hread)
    rw [hheld, hwaiting, map_nil, append_nil, append_nil] at hstream
    rw [hstream]
    exact ih

theorem readOp_of_stuck (hn : 0 < n) (i : Fin n) : (s.workers i).readOp = none := by
  have hended := (h.worker i).ended
  rw [(log_of_stuck h hstuck hn i.succ).2] at hended
  exact isNone_iff_eq_none.1 (Bool.and_eq_true_iff.1 hended.symm).1

theorem InvWith.finished_of_stuck (hn : 0 < n) : s.Finished where
  posted := (trainer_of_stuck h hstuck hn).1
  waited := by
    intro rank
    cases rank using Fin.cases with
    | zero => exact (trainer_of_stuck h hstuck hn).2
    | succ i =>
      have hpast : (s.workers i).pastBegin = true := by
        simp [Worker.pastBegin, readOp_of_stuck h hstuck hn i]
      cases hlink : nextLink i.succ with
      | none =>
        unfold readableOp
        rw [hlink]
        rfl
      | some j =>
        have hnot := not_notified_of_stuck h hstuck i hpast
        rw [eq_castSucc_of_nextLink hlink] at hnot ⊢
        exact readableOp_of_stuck h j (waiting_of_stuck h hstuck j).2 hnot
  returned := by
    intro i
    have hop := readOp_of_stuck h hstuck hn i
    refine ⟨hop, metadata_of_stuck h hstuck i, isEmpty_iff.1 ?_⟩
    apply yielding_of_stuck h hstuck i
    unfold Worker.pastBegin
    rw [hop]
    rfl

end Stuck

variable {w : Worker bucketSize} {i : Fin n}

/-- What a worker has yielded, and what it has still to yield of its bucket, comes first in what
was to be sent. -/
theorem InvWith.yielded_prefix (h : s.InvWith chunks log) (i : Fin n) :
    (s.workers i).yielded.map Chunk.unplaced ++
      readBucket (s.workers i).yielding ((s.workers i).bufs (s.workers i).sendBuf) <+: chunks := by
  rw [← (h.worker i).chunks]
  obtain ⟨rest, hrest⟩ := h.log_prefix i.succ
  rw [← h.posted, ← hrest, flatMap_append, append_assoc, append_assoc]
  exact prefix_append _ _

theorem InvWith.yielded_of_finished (h : s.InvWith chunks log) (hfinished : s.Finished)
    (i : Fin n) : (s.workers i).yielded.map Chunk.unplaced = chunks := by
  obtain ⟨hop, hmeta, hyielding⟩ := hfinished.returned i
  have hchunks := (h.worker i).chunks
  have hposted := h.posted
  have htodo : s.trainer.todo = [] := h.trainer.lastPosted hfinished.posted
  have hunposted : s.trainer.unposted = [] := if_pos hfinished.posted
  rw [hyielding, h.log_eq_of_returned hop hmeta] at hchunks
  rw [htodo, hunposted, append_nil, append_nil] at hposted
  rw [← hposted, hchunks]
  exact (append_nil _).symm

/-! ## The way to the end -/

/-- The steps that all workers behind `i` take for one bucket. -/
def ahead (n : Nat) (i : Fin n) : Nat := 6 * (n - 1 - i.val)

/-- The steps for the bucket that is read, then those for the bucket to be published, then those
for the chunks not yet yielded. -/
def workerLoad (total : Nat) (i : Fin n) (w : Worker bucketSize) : Nat :=
  (match w.readOp with
    | none => 0
    | some op =>
      match op.message, op.xferHandle with
      | none, _ => 0
      | some _, none => ahead n i + 5
      | some _, some .proc => ahead n i + 4
      | some _, some .done => ahead n i + 3) +
    (if w.metadata.isSome then ahead n i + 2 else 0) + (total - w.yielded.length)

def linkLoad (i : Fin n) (l : Link) : Nat :=
  (ahead n i + 6) * l.messages.length + (if l.readableOp.isSome then 1 else 0)

/-- A bucket that is posted loads the trainer and the first link. -/
def postLoad (n : Nat) : Nat := 6 * n + 2

def trainerLoad (n : Nat) (t : Trainer bucketSize) : Nat :=
  (postLoad n + 1) * t.todo.length + (if t.flushed then 0 else postLoad n) +
    (if t.lastPosted then 0 else postLoad n)

def load (total : Nat) (s : State bucketSize n) : Nat :=
  trainerLoad n s.trainer + ∑ i, workerLoad total i (s.workers i) + ∑ i, linkLoad i (s.links i)

variable {total : Nat}

variable (uuid : Fin (n + 1) → Nat → NotifyKey) {l : Link} {message : ReadableMessage}

theorem load_setWorker (h : workerLoad total i w + linkLoad i l <
      workerLoad total i (s.workers i) + linkLoad i (s.links i)) :
    load total (s.setWorker i w l) < load total s := by
  have hworkers := sum_update (workerLoad total) s.workers i w
  have hlinks := sum_update linkLoad s.links i l
  unfold load setWorker
  dsimp only
  omega

theorem load_onWorker {f : Worker bucketSize → Worker bucketSize}
    (h : workerLoad total i (f (s.workers i)) < workerLoad total i (s.workers i)) :
    load total (s.onWorker i f) < load total s := by
  rw [onWorker_eq_setWorker]
  apply load_setWorker
  omega

theorem load_setLink (hop : l.readableOp = none)
    (hmessages : l.messages = (s.links i).messages) (hn : (s.links i).Notified) :
    load total { s with links := update s.links i l } < load total s := by
  have hlinks := sum_update linkLoad s.links i l
  have hload : linkLoad i l + 1 = linkLoad i (s.links i) := by simp [linkLoad, hop, hmessages, hn.1]
  unfold load
  dsimp only
  omega

/-- The load of a post, at most that of its bucket on the next link. -/
theorem sum_postLinks (rank : Fin (n + 1))
    (hop : s.readableOp rank = none) (sendDescs : Bool) (metadata : Metadata) :
    ∑ i, linkLoad i (s.postLinks uuid rank sendDescs metadata i) ≤
      ∑ i, linkLoad i (s.links i) + (6 * (n - rank.val) + 1) := by
  unfold postLinks
  cases hnext : nextLink rank with
  | none => exact Nat.le_add_right _ _
  | some i =>
    obtain rfl := eq_castSucc_of_nextLink hnext
    rw [readableOp_castSucc] at hop
    have hlinks := sum_update linkLoad s.links i ((s.links i).post (uuid i.castSucc) sendDescs metadata)
    have hload : linkLoad i ((s.links i).post (uuid i.castSucc) sendDescs metadata) =
        linkLoad i (s.links i) + (ahead n i + 6) + 1 := by
      unfold linkLoad
      rw [hop]
      show _ * ((s.links i).messages ++ [_]).length + 1 = _ * _ + 0 + _ + 1
      rw [length_append, Nat.mul_add, length_singleton, Nat.mul_one]
      omega
    have hahead : ahead n i + 6 = 6 * (n - i.val) := by
      unfold ahead
      omega
    rw [Fin.val_castSucc]
    dsimp only
    omega

theorem InvWith.load_pack (hchunks : ChunkStream bucketSize chunks) (h : s.InvWith chunks log)
    (hfits : s.trainer.nextFits = some true) :
    load total { s with trainer := s.trainer.pack } < load total s := by
  obtain ⟨hinv, c, hpacks⟩ := h.trainer.pack hchunks hfits
  rw [← Trainer.toSender_pack hinv.error] at hpacks
  have htodo : s.trainer.todo = c :: s.trainer.pack.todo := hpacks.todo
  have hlast : s.trainer.pack.lastPosted = s.trainer.lastPosted := hpacks.lastPosted
  have hle : (if s.trainer.pack.flushed then 0 else postLoad n) ≤ postLoad n := by
    split <;> omega
  unfold load trainerLoad
  dsimp only
  rw [htodo, hlast, length_cons, Nat.mul_add_one]
  omega

theorem load_flush (hfits : s.trainer.nextFits = some false) (hop : s.readableOp 0 = none) :
    load total (s.flush uuid) < load total s := by
  have hflushed : s.trainer.flushed = false :=
    Sender.flushed_of_nextFits (s := s.trainer.toSender) hfits
  have hpost := sum_postLinks uuid 0 hop s.trainer.sendBuf ⟨s.trainer.bucketMeta, false⟩
  have htrainer : trainerLoad n s.trainer.swap + postLoad n = trainerLoad n s.trainer := by
    unfold trainerLoad
    rw [hflushed]
    show _ + 0 + (if s.trainer.lastPosted then 0 else postLoad n) + postLoad n =
      _ + postLoad n + _
    show (postLoad n + 1) * s.trainer.todo.length + 0 + _ + _ = _
    omega
  rw [Fin.val_zero] at hpost
  unfold postLoad at htrainer
  unfold load State.flush
  dsimp only
  omega

theorem load_last (hlast : s.trainer.lastPosted = false)
    (hop : s.readableOp 0 = none) : load total (s.last uuid) < load total s := by
  have hpost := sum_postLinks uuid 0 hop s.trainer.sendBuf ⟨s.trainer.bucketMeta, true⟩
  have htrainer : trainerLoad n { s.trainer with lastPosted := true } + postLoad n =
      trainerLoad n s.trainer := by
    unfold trainerLoad
    rw [hlast]
    rfl
  unfold postLoad at htrainer
  unfold load State.last
  dsimp only at htrainer ⊢
  omega

theorem InvWith.load_wait (h : s.InvWith chunks log) (hn : s.Notified 0) :
    load total s.wait < load total s := by
  obtain ⟨i, hi, hn⟩ := hn
  obtain ⟨l, hl, hop, -⟩ := (h.link i).waitForComplete hn
  unfold State.wait
  rw [hi]
  dsimp only
  rw [hl]
  exact load_setLink hop (Link.messages_waitForComplete hl) hn

theorem InvWith.load_waitReadable (h : s.InvWith chunks log) (hn : s.Notified i.succ) :
    load total (s.waitReadable i) < load total s := by
  obtain ⟨j, hj, hn⟩ := hn
  obtain ⟨l, hl, hop, -⟩ := (h.link j).waitForComplete hn
  unfold State.waitReadable
  rw [hj]
  dsimp only
  rw [hl]
  exact load_setLink hop (Link.messages_waitForComplete hl) hn

theorem InvWith.load_readMetadata (h : s.InvWith chunks log)
    (hawaits : (s.workers i).awaitsMessage = true)
    (hmessages : (s.links i).messages.isEmpty = false) :
    load total (s.readMetadata i) < load total s := by
  obtain ⟨b, xferHandle, hop⟩ := Worker.eq_of_awaitsMessage hawaits
  have hxfer : xferHandle = none := (h.worker i).message _ hop rfl
  unfold State.readMetadata
  cases hm : (s.links i).messages with
  | nil =>
    rw [hm] at hmessages
    cases hmessages
  | cons message messages =>
    show load total (s.setWorker i ((s.workers i).readMetadata message)
      { s.links i with messages := messages }) < _
    apply load_setWorker
    unfold workerLoad linkLoad Worker.readMetadata
    rw [hop, hm, hxfer, length_cons, Nat.mul_add_one]
    dsimp only [map_some]
    omega

theorem workerLoad_beginRead (hbegin : w.canBegin = true) :
    workerLoad total i w.beginRead < workerLoad total i w := by
  obtain ⟨b, message, hop⟩ := Worker.eq_of_canBegin hbegin
  unfold workerLoad Worker.beginRead
  rw [hop]
  dsimp only [map_some]
  omega

theorem workerLoad_finishRead (hflight : w.inFlight = some message) (data : Buffer UInt8 bucketSize) :
    workerLoad total i (w.finishRead data) < workerLoad total i w := by
  obtain ⟨b, hop⟩ := Worker.eq_of_inFlight hflight
  unfold workerLoad Worker.finishRead
  rw [hop]
  dsimp only
  omega

theorem load_finishRead (hflight : (s.workers i).inFlight = some message) :
    load total (s.finishRead i) < load total s := by
  have hset : s.finishRead i = s.setWorker i
      ((s.workers i).finishRead (s.bufs i.castSucc message.remoteDescs))
      { s.links i with notifications := (s.links i).notifications ++ [message.notifyKey] } := by
    unfold State.finishRead
    rw [hflight]
    rfl
  rw [hset]
  apply load_setWorker
  exact Nat.add_lt_add_of_lt_of_le (workerLoad_finishRead hflight _) (Nat.le_refl _)

theorem InvWith.workerLoad_advance (h : s.InvWith chunks log)
    (hread : (s.workers i).hasRead = true) :
    workerLoad total i (s.workers i).advance < workerLoad total i (s.workers i) := by
  obtain ⟨b, message, hop⟩ := Worker.eq_of_hasRead (h.worker i) hread
  have hmeta := (h.worker i).metadata_eq_none hop
  unfold workerLoad Worker.advance
  rw [hop]
  dsimp only [Option.isSome]
  rw [if_pos rfl]
  omega

theorem InvWith.load_publish (h : s.InvWith chunks log) (uuid : Fin (n + 1) → Nat → NotifyKey)
    (hsome : (s.workers i).metadata.isSome = true) :
    load total (s.publish uuid i) < load total s := by
  obtain ⟨metadata, hmeta⟩ := isSome_iff_exists.1 hsome
  have hreadOp := ((h.worker i).metadata metadata hmeta).1
  have hop : s.readableOp i.succ = none := by
    cases hop : s.readableOp i.succ with
    | none => rfl
    | some op =>
      rw [(h.workerOp i op hop).2] at hmeta
      cases hmeta
  have hpost := sum_postLinks uuid i.succ hop (s.workers i).sendBuf metadata
  have hworkers := sum_update (workerLoad total) s.workers i ((s.workers i).publish metadata)
  have hload : workerLoad total i ((s.workers i).publish metadata) + (ahead n i + 2) =
      workerLoad total i (s.workers i) := by
    unfold workerLoad Worker.publish
    rw [hreadOp, hmeta]
    dsimp only
    cases metadata.isLast with
    | true =>
      show 0 + 0 + _ + _ = 0 + (ahead n i + 2) + _
      omega
    | false =>
      show 0 + 0 + _ + _ = 0 + (ahead n i + 2) + _
      omega
  have hahead : 6 * (n - i.succ.val) = ahead n i := by
    rw [Fin.val_succ]
    unfold ahead
    omega
  unfold State.publish
  rw [hmeta]
  unfold load State.onWorker
  dsimp only
  omega

theorem InvWith.workerLoad_yield (h : s.InvWith chunks log)
    (hyielding : (s.workers i).yielding.isEmpty = false) :
    workerLoad chunks.length i (s.workers i).yield <
      workerLoad chunks.length i (s.workers i) := by
  have hle := (h.yielded_prefix i).length_le
  rw [length_append, length_map] at hle
  unfold readBucket at hle
  rw [length_map] at hle
  obtain ⟨m, rest, hcons⟩ := exists_cons_of_ne_nil (isEmpty_eq_false_iff.1 hyielding)
  obtain ⟨offset, hoffset⟩ := (h.worker i).yielding m (by rw [hcons]; exact mem_cons_self)
  rw [hcons, length_cons] at hle
  have hyield : (s.workers i).yield =
      { s.workers i with
        yielded := (s.workers i).yielded ++ [{ tensorMeta := m, data :=
          ((s.workers i).bufs (s.workers i).sendBuf).slice offset m.chunkSize }]
        yielding := rest } := by simp [Worker.yield, hcons, hoffset]
  rw [hyield]
  unfold workerLoad
  dsimp only
  rw [length_append, length_singleton]
  omega

theorem InvWith.load_lt {uuid : Fin (n + 1) → Nat → NotifyKey}
    (hchunks : ChunkStream bucketSize chunks) (h : s.InvWith chunks log) (a : Action n)
    (hguard : (relay uuid a).guard s) :
    load chunks.length ((relay uuid a).effect s) < load chunks.length s := by
  cases a with
  | pack => exact h.load_pack hchunks hguard.2
  | wait => exact h.load_wait hguard.2.2
  | flush => exact load_flush uuid hguard.2.1 (isNone_iff_eq_none.1 hguard.2.2)
  | last => exact load_last uuid hguard.2.2.1 (isNone_iff_eq_none.1 hguard.2.2.2)
  | readMetadata i => exact h.load_readMetadata hguard.2.1 hguard.2.2
  | beginRead i => exact load_onWorker (workerLoad_beginRead hguard.2)
  | finishRead i =>
    obtain ⟨message, hflight⟩ := isSome_iff_exists.1 hguard
    exact load_finishRead hflight
  | advance i => exact load_onWorker (h.workerLoad_advance hguard.2.2.2)
  | publish i => exact h.load_publish uuid hguard.2
  | yield i => exact load_onWorker (h.workerLoad_yield hguard.2.2)
  | waitReadable i => exact h.load_waitReadable hguard.2.2.2

end State

/-! ## Every run -/

/-- In every reachable state no assertion has failed, no agent packs or reads into a buffer that
the next agent is reading, each worker has yielded some of the weights, in order, and no step
overwrites a buffer in use; a run cannot go on for ever, and when no step is left every worker has
yielded the weights that were sent. -/
theorem relay_exact (hpos : 0 < bucketSize) (hn : 0 < n) (ws : WeightList)
    (uuid : Fin (n + 1) → Nat → NotifyKey) (empty : Uninitialized) {s : State bucketSize n}
    (h : StepSystem.Reachable (relay uuid) StepSystem.anyStep
      (State.initial bucketSize n ws.weights) s) :
    s.Safe ∧ s.Exclusive ∧
    (∀ i, ∃ out, (s.workers i).received empty = .ok out ∧ out <+: ws.weights) ∧
    (∀ a, (relay uuid a).guard s → s.KeepsBuffers ((relay uuid a).effect s)) ∧
    (∃ bound, ∀ as, StepSystem.Admits (relay uuid) StepSystem.anyStep s as →
      as.length ≤ bound) ∧
    (StepSystem.Stuck (relay uuid) s →
      s.Finished ∧ ∀ i, (s.workers i).received empty = .ok ws.weights) := by
  have hchunks := chunkStream_split hpos ws
  have hinv : ∀ {s}, StepSystem.Reachable (relay uuid) StepSystem.anyStep
      (State.initial bucketSize n ws.weights) s →
        s.Inv (splitWeightChunks bucketSize ws.weights) :=
    StepSystem.Reachable.invariant (State.inv_initial hn ws.weights)
      fun s a hs hguard _ => hs.step hchunks a hguard
  obtain ⟨log, hlog⟩ := hinv h
  refine ⟨hlog.safe, hlog.exclusive, fun i => ?_, fun a => hlog.keepsBuffers hchunks a, ?_,
    fun hstuck => ?_⟩
  · -- what the worker has yielded is a first part of the chunks
    have hprefix := (prefix_append _ _).trans (hlog.yielded_prefix i)
    obtain ⟨out, hout, hle⟩ := mergeWeightChunks_of_prefix empty hpos ws hprefix
    exact ⟨out, mergeWeightChunks_of_unplaced hout, hle⟩
  · refine ⟨_, fun as has => StepSystem.length_le_of_measure
      (State.load (splitWeightChunks bucketSize ws.weights).length)
      (fun s a hs hguard _ => ?_) h has⟩
    obtain ⟨log, hlog⟩ := hinv hs
    exact hlog.load_lt hchunks a hguard
  · have hfinished := hlog.finished_of_stuck hstuck hn
    refine ⟨hfinished, fun i => mergeWeightChunks_of_unplaced ?_⟩
    rw [hlog.yielded_of_finished hfinished i]
    exact mergeWeightChunks_split hpos ws

/-- Two weights, buckets of two bytes and two workers: the first weight is cut in two. -/
def twoWeights : WeightList where
  weights :=
    [ { name := "a", shape := [3], bytes := [1, 2, 3], length_eq := by decide },
      { name := "b", shape := [1], bytes := [4], length_eq := by decide } ]
  nodup := by decide
  nonempty := by decide

def twoWorkersRun : List (Action 2) :=
  [ .pack, .flush, .pack, .readMetadata 0, .beginRead 0, .pack, .finishRead 0, .wait, .last,
    .advance 0, .publish 0, .readMetadata 0, .beginRead 0, .readMetadata 1, .yield 0, .finishRead 0,
    .beginRead 1, .wait, .finishRead 1, .waitReadable 0, .advance 0, .publish 0, .advance 1,
    .publish 1, .readMetadata 1, .beginRead 1, .yield 0, .yield 1, .finishRead 1, .yield 0,
    .advance 1, .waitReadable 0, .publish 1, .yield 1, .yield 1 ]

/-- The keys of an agent, by its rank and the number of the call. -/
def countingKeys (rank : Fin 3) (k : Nat) : NotifyKey := [rank.val.toUInt8, k.toUInt8]

theorem relay_exact_twoWorkers :
    let s := StepSystem.run (relay countingKeys) (State.initial 2 2 twoWeights.weights) twoWorkersRun
    s.Safe ∧ s.Finished ∧
      ∀ i, (s.workers i).received (fun _ n => Buffer.replicate n 0) = .ok twoWeights.weights := by
  have hreachable : StepSystem.Reachable (relay countingKeys) StepSystem.anyStep
      (State.initial 2 2 twoWeights.weights)
      (StepSystem.run (relay countingKeys) (State.initial 2 2 twoWeights.weights) twoWorkersRun) :=
    StepSystem.reachable_run (by decide +kernel)
  have h := relay_exact (by decide) (by decide) twoWeights countingKeys
    (fun _ n => Buffer.replicate n 0) hreachable
  refine ⟨h.1, h.2.2.2.2.2 ?_⟩
  intro a
  cases a with
  | pack => decide +kernel
  | wait => decide +kernel
  | flush => decide +kernel
  | last => decide +kernel
  | readMetadata i => revert i; decide +kernel
  | beginRead i => revert i; decide +kernel
  | finishRead i => revert i; decide +kernel
  | advance i => revert i; decide +kernel
  | publish i => revert i; decide +kernel
  | yield i => revert i; decide +kernel
  | waitReadable i => revert i; decide +kernel

end Verl.CheckpointEngine.Nixl
