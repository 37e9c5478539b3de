import Verl.CheckpointEngine.Delivery

/-! # The broadcast of weights, to its end

* `State.Inv.safe`: what holds in every reachable state.
* `State.Inv.keepsBuffers`: a step leaves alone what is being sent or read.
* `State.Inv.finished_of_stuck`: where no step is left, sender and receivers are through.
* `State.Inv.load_lt`: every step brings the end nearer. -/

namespace Verl.CheckpointEngine

open List Function

variable {bucketSize n : Nat} {chunks : List Chunk} {s : State bucketSize n}

namespace State

/-! ## Safety -/

/-- A bucket that was packed without a failing assertion. -/
structure BucketOk (bucketSize : Nat) (bucketMeta : Dict TensorMeta) : Prop where
  size : ((metasOf bucketMeta).map TensorMeta.chunkSize).sum ≤ bucketSize
  names : ((metasOf bucketMeta).map TensorMeta.name).Nodup

theorem BucketOk.of_packed {d : Dict TensorMeta} {used : Nat} (h : Packed d used)
    (hle : used ≤ bucketSize) : BucketOk bucketSize d where
  size := by rw [h.total]; exact hle
  names := h.nodup

structure Safe (s : State bucketSize n) : Prop where
  sender : s.sender.error = none
  receiver : ∀ i, (s.receivers i).error = none
  bucket : BucketOk bucketSize s.sender.bucketMeta
  posted : ∀ op, s.sender.broadcastOp = some op → BucketOk bucketSize op.metadata.bucketMeta

theorem Inv.safe (h : s.Inv chunks) : s.Safe where
  sender := h.sender.error
  receiver := fun i => by
    obtain ⟨msgs, hlink⟩ := h.link i
    exact hlink.error
  bucket := .of_packed h.sender.bucket h.sender.offset_le
  posted := fun op hop => by
    obtain ⟨used, hle, hpacked⟩ := h.sender.opPacked op hop
    exact .of_packed hpacked hle

/-! ## Buffers in use -/

/-- The buffers in use in `s` are the same in `s'`: one that is being sent, one whose chunks are
being read, and one that has arrived and is still to be read. -/
structure KeepsBuffers (s s' : State bucketSize n) : Prop where
  sending : ∀ op, s.sender.broadcastOp = some op → ¬op.Completed →
    s'.sender.bufs op.bucket = s.sender.bufs op.bucket
  reading : ∀ i, (s.receivers i).yielding ≠ [] →
    (s'.receivers i).bufs (s.receivers i).sendBuf = (s.receivers i).bufs (s.receivers i).sendBuf
  arrived : ∀ i op, (s.receivers i).broadcastOp = some op → op.received = true →
    (s'.receivers i).bufs op.bucket = (s.receivers i).bufs op.bucket

theorem KeepsBuffers.of_eq {s' : State bucketSize n} (hsender : s'.sender.bufs = s.sender.bufs)
    (hreceiver : ∀ i, (s'.receivers i).bufs = (s.receivers i).bufs) : KeepsBuffers s s' where
  sending := fun op _ _ => by rw [hsender]
  reading := fun i _ => by rw [hreceiver]
  arrived := fun i op _ _ => by rw [hreceiver]

theorem onReceiver_bufs {f : Receiver bucketSize → Receiver bucketSize} (j : Fin n)
    (hf : (f (s.receivers j)).bufs = (s.receivers j).bufs) (i : Fin n) :
    ((s.onReceiver j f).receivers i).bufs = (s.receivers i).bufs := by
  show (update s.receivers j (f (s.receivers j)) i).bufs = _
  by_cases hij : i = j
  · grind
  · rw [update_of_ne hij]

theorem Inv.keepsBuffers_pack (hchunks : ChunkStream bucketSize chunks) (h : s.Inv chunks)
    (hfits : s.sender.nextFits = some true) :
    KeepsBuffers s { s with sender := s.sender.pack } where
  sending := by
    intro op hop _
    obtain ⟨-, c, hpacks⟩ := h.sender.pack hchunks hfits
    have hlast : s.sender.lastPosted = false :=
      h.sender.lastPosted_eq_false (by rw [hpacks.todo]; exact cons_ne_nil _ _)
    rw [h.sender.opBucket op hop hlast]
    exact hpacks.other
  reading := fun _ _ => rfl
  arrived := fun _ _ _ _ => rfl

theorem bufs_recvData {r : Receiver bucketSize} {op : RecvOp} (hop : r.broadcastOp = some op)
    {b : Bool} (hb : b ≠ op.bucket) : r.recvData.bufs b = r.bufs b := by
  obtain ⟨bufs, sendBuf, broadcastOp, yielding, yielded, metas, datas, error⟩ := r
  subst hop
  cases datas with
  | nil => rfl
  | cons data datas =>
    show update bufs op.bucket data b = bufs b
    rw [update_of_ne hb]

theorem Inv.keepsBuffers_recvData (h : s.Inv chunks) {j : Fin n}
    (hawaits : (s.receivers j).awaitsData = true) :
    KeepsBuffers s (s.onReceiver j Receiver.recvData) := by
  obtain ⟨bucket, metadata, hop⟩ := Receiver.eq_of_awaitsData hawaits
  obtain ⟨msgs, hlink⟩ := h.link j
  have hbucket : bucket = !(s.receivers j).sendBuf := hlink.opBucket _ hop
  constructor
  case sending => exact fun _ _ _ => rfl
  case reading =>
    intro i _
    show (update s.receivers j (s.receivers j).recvData i).bufs _ = _
    by_cases hij : i = j
    · subst hij
      rw [update_self]
      apply bufs_recvData hop
      rw [hbucket]
      exact (Bool.not_ne_self _).symm
    · rw [update_of_ne hij]
  case arrived =>
    intro i op' hop' hreceived
    show (update s.receivers j (s.receivers j).recvData i).bufs _ = _
    by_cases hij : i = j
    · grind
    · rw [update_of_ne hij]

theorem bufs_recvMeta (r : Receiver bucketSize) : r.recvMeta.bufs = r.bufs := by
  unfold Receiver.recvMeta
  split <;> rfl

theorem bufs_advance (r : Receiver bucketSize) : r.advance.bufs = r.bufs := by
  unfold Receiver.advance
  split <;> rfl

theorem bufs_yield (r : Receiver bucketSize) : r.yield.bufs = r.bufs := by
  unfold Receiver.yield
  split
  · rfl
  · split <;> rfl

theorem bufs_sendMeta (s : State bucketSize n) : s.sendMeta.sender.bufs = s.sender.bufs ∧
      ∀ i, (s.sendMeta.receivers i).bufs = (s.receivers i).bufs := by
  unfold State.sendMeta
  split
  · exact ⟨rfl, fun _ => rfl⟩
  · exact ⟨rfl, fun _ => rfl⟩

theorem bufs_send (s : State bucketSize n) (j : Fin n) : (s.send j).sender.bufs = s.sender.bufs ∧
      ∀ i, ((s.send j).receivers i).bufs = (s.receivers i).bufs := by
  unfold State.send
  split
  · exact ⟨rfl, fun _ => rfl⟩
  · grind

theorem Inv.keepsBuffers {eager : Bool} (hchunks : ChunkStream bucketSize chunks)
    (h : s.Inv chunks) (a : Action n) (hguard : (broadcast eager a).guard s) :
    KeepsBuffers s ((broadcast eager a).effect s) := by
  cases a with
  | pack => exact h.keepsBuffers_pack hchunks hguard.2
  | flush => exact .of_eq rfl fun _ => rfl
  | last => exact .of_eq rfl fun _ => rfl
  | sendMeta => exact .of_eq s.bufs_sendMeta.1 s.bufs_sendMeta.2
  | send i => exact .of_eq (s.bufs_send i).1 (s.bufs_send i).2
  | recvMeta i => exact .of_eq rfl (onReceiver_bufs i (bufs_recvMeta _))
  | recvData i => exact h.keepsBuffers_recvData hguard.1
  | advance i => exact .of_eq rfl (onReceiver_bufs i (bufs_advance _))
  | yield i => exact .of_eq rfl (onReceiver_bufs i (bufs_yield _))

/-! ## The end -/

/-- `send_weights` has returned, and so has `_receive_weight_chunks` of every receiver. -/
structure Finished (s : State bucketSize n) : Prop where
  posted : s.sender.lastPosted = true
  sent : s.sender.Idle
  returned : ∀ i, (s.receivers i).broadcastOp = none ∧ (s.receivers i).yielding = []

section Stuck

variable {eager : Bool} (h : s.Inv chunks) (hstuck : StepSystem.Stuck (broadcast eager) s)

include h hstuck

theorem yielding_of_stuck (i : Fin n) : (s.receivers i).yielding = [] := by
  by_contra hne
  obtain ⟨msgs, hlink⟩ := h.link i
  exact hstuck (.yield i) ⟨hlink.error, isEmpty_eq_false_iff.2 hne⟩

/-- What a receiver can be waiting for. -/
theorem receiver_of_stuck (i : Fin n) : (s.receivers i).broadcastOp = none ∨
    ((s.receivers i).awaitsMeta = true ∧ (s.receivers i).metas = []) ∨
    ((s.receivers i).awaitsData = true ∧ (s.receivers i).datas = []) := by
  cases hop : (s.receivers i).broadcastOp with
  | none => exact .inl rfl
  | some op =>
    right
    obtain ⟨msgs, hlink⟩ := h.link i
    obtain ⟨bucket, metadata, received⟩ := op
    have hreceived : received = false := by
      by_contra hreceived
      refine hstuck (.advance i) ⟨hlink.error, ?_, isEmpty_iff.2 (yielding_of_stuck h hstuck i)⟩
      unfold Receiver.hasReceived
      rw [hop]
      exact Bool.eq_true_of_not_eq_false hreceived
    subst hreceived
    cases metadata with
    | none =>
      left
      have hawaits : (s.receivers i).awaitsMeta = true := by simp [Receiver.awaitsMeta, hop]
      refine ⟨hawaits, ?_⟩
      by_contra hne
      exact hstuck (.recvMeta i) ⟨hawaits, isEmpty_eq_false_iff.2 hne⟩
    | some metadata =>
      right
      have hawaits : (s.receivers i).awaitsData = true := by simp [Receiver.awaitsData, hop]
      refine ⟨hawaits, ?_⟩
      by_contra hne
      exact hstuck (.recvData i) ⟨hawaits, isEmpty_eq_false_iff.2 hne⟩

theorem idle_of_stuck : s.sender.Idle := by
  intro op hop
  have hmeta : op.metaSent = true := by
    by_contra hmeta
    apply hstuck .sendMeta
    show s.sender.broadcastOp.any _ = true
    rw [hop]
    exact Bool.not_eq_true' _ ▸ Bool.eq_false_of_not_eq_true hmeta
  refine ⟨hmeta, fun i => ?_⟩
  by_contra hsent
  have hsent : op.sent i = false := Bool.eq_false_of_not_eq_true hsent
  obtain ⟨msgs, hlink⟩ := h.link i
  have hmetas := hlink.metas
  have hdatas := hlink.datas
  unfold Sender.unsentMeta at hmetas
  unfold Sender.unsentData at hdatas
  rw [hop] at hmetas hdatas
  simp only [hmeta] at hmetas
  simp only [hsent] at hdatas
  have hmsgs : msgs ≠ [] := by
    rintro rfl
    exact absurd hdatas (by simp)
  rcases receiver_of_stuck h hstuck i with hnone | ⟨hawaits, hnil⟩ | ⟨hawaits, -⟩
  · exact hmsgs (hlink.msgs_of_returned hnone).2
  · rw [(Receiver.awaited_of_awaitsMeta hawaits).1, hnil] at hmetas
    exact hmsgs (map_eq_nil_iff.1 hmetas.symm)
  · -- the receiver waits for this very bucket
    refine hstuck (.send i) ⟨?_, by rw [hawaits, Bool.or_true]⟩
    rw [hop]
    show (op.metaSent && !op.sent i) = true
    rw [hmeta, hsent]
    rfl

theorem lastPosted_of_stuck : s.sender.lastPosted = true := by
  have hidle := idle_of_stuck h hstuck
  by_contra hlast
  have hlast : s.sender.lastPosted = false := Bool.eq_false_of_not_eq_true hlast
  cases hfits : s.sender.nextFits with
  | none => exact hstuck .last ⟨h.sender.error, hfits, hlast, hidle⟩
  | some fits =>
    cases fits with
    | true => exact hstuck .pack ⟨h.sender.error, hfits⟩
    | false => exact hstuck .flush ⟨h.sender.error, hfits, hidle⟩

theorem returned_of_stuck (i : Fin n) : (s.receivers i).broadcastOp = none := by
  have hidle := idle_of_stuck h hstuck
  obtain ⟨msgs, hlink⟩ := h.link i
  have hmetas := hlink.metas
  have hdatas := hlink.datas
  rw [Sender.unsentMeta_of_idle hidle] at hmetas
  rw [Sender.unsentData_of_idle hidle] at hdatas
  rcases receiver_of_stuck h hstuck i with hnone | ⟨hawaits, hnil⟩ | ⟨hawaits, hnil⟩
  · exact hnone
  · -- the last bucket has been sent to it and has not come in
    obtain ⟨hawaited, harrived⟩ := Receiver.awaited_of_awaitsMeta hawaits
    rw [hawaited, hnil] at hmetas
    have hmsgs : msgs = [] := map_eq_nil_iff.1 hmetas.symm
    obtain ⟨k, hk⟩ := hlink.flags
    obtain ⟨bucket, received, hop⟩ := Receiver.eq_of_awaitsMeta hawaits
    unfold Receiver.endFlag Sender.endFlag at hk
    rw [hop, harrived, hmsgs, lastPosted_of_stuck h hstuck] at hk
    cases k <;> cases hk
  · rw [hnil] at hdatas
    have hmsgs : msgs = [] := map_eq_nil_iff.1 hdatas.symm
    obtain ⟨bucket, metadata, hop⟩ := Receiver.eq_of_awaitsData hawaits
    unfold Receiver.awaited at hmetas
    rw [hop, hmsgs] at hmetas
    cases hmetas

theorem Inv.finished_of_stuck : s.Finished where
  posted := lastPosted_of_stuck h hstuck
  sent := idle_of_stuck h hstuck
  returned := fun i => ⟨returned_of_stuck h hstuck i, yielding_of_stuck h hstuck i⟩

end Stuck

variable {r : Receiver bucketSize} {sender : Sender bucketSize n} {i : Fin n}

theorem Inv.yielded_of_finished (h : s.Inv chunks) (hfinished : s.Finished) (i : Fin n) :
    (s.receivers i).yielded.map Chunk.unplaced = chunks := by
  obtain ⟨hop, hyielding⟩ := hfinished.returned i
  obtain ⟨msgs, hlink⟩ := h.link i
  obtain ⟨harrived, hmsgs⟩ := hlink.msgs_of_returned hop
  have hstream := hlink.stream
  have hunposted : s.sender.unposted = [] := if_pos hfinished.posted
  have hunread : (s.receivers i).unread = [] := by
    unfold Receiver.unread
    rw [hyielding]
    rfl
  rw [hunread, harrived, hmsgs, hunposted, h.sender.lastPosted hfinished.posted] at hstream
  simpa using hstream

/-! ## The way to the end -/

/-- The steps that `i` and the link to it can still take, but for those of buckets not yet
posted. -/
def linkLoad (total : Nat) (s : Sender bucketSize n) (i : Fin n) (r : Receiver bucketSize) : Nat :=
  3 * (s.unsentData i).length + r.metas.length + 2 * r.datas.length +
    (if r.hasReceived then 1 else 0) + (total - r.yielded.length)

/-- A bucket that is posted loads the sender and every link. -/
def postLoad (n : Nat) : Nat := 4 * n + 2

def senderLoad (s : Sender bucketSize n) : Nat :=
  (postLoad n + 1) * s.todo.length + (if s.flushed then 0 else postLoad n) +
    (if s.lastPosted then 0 else postLoad n) + (n + 1) * s.unsentMeta.length

def load (total : Nat) (s : State bucketSize n) : Nat :=
  senderLoad s.sender + ∑ i, linkLoad total s.sender i (s.receivers i)

variable {total : Nat}

/-- The sender steps, and puts the same load on every link. -/
theorem load_lt_of_sender {s' : State bucketSize n} (k : Nat)
    (hlink : ∀ i, linkLoad total s'.sender i (s'.receivers i) ≤ linkLoad total s.sender i (s.receivers i) + k)
    (hsender : senderLoad s'.sender + n * k < senderLoad s.sender) :
    load total s' < load total s := by
  have hsum : ∑ i, linkLoad total s'.sender i (s'.receivers i) ≤
      ∑ i, linkLoad total s.sender i (s.receivers i) + n * k := by
    calc _ ≤ ∑ i, (linkLoad total s.sender i (s.receivers i) + k) :=
          Finset.sum_le_sum fun i _ => hlink i
      _ = _ := by
          rw [Finset.sum_add_distrib, Finset.sum_const_nat fun _ _ => rfl, Finset.card_univ,
            Fintype.card_fin]
  unfold load
  omega

theorem load_lt_of_link {s' : State bucketSize n} (j : Fin n)
    (hsender : senderLoad s'.sender ≤ senderLoad s.sender)
    (hother : ∀ i, i ≠ j → linkLoad total s'.sender i (s'.receivers i) =
      linkLoad total s.sender i (s.receivers i))
    (hlink : linkLoad total s'.sender j (s'.receivers j) <
      linkLoad total s.sender j (s.receivers j)) :
    load total s' < load total s := by
  have hsum : ∑ i, linkLoad total s'.sender i (s'.receivers i) <
      ∑ i, linkLoad total s.sender i (s.receivers i) := by
    refine Finset.sum_lt_sum (fun i _ => ?_) ⟨j, Finset.mem_univ j, hlink⟩
    by_cases hij : i = j
    · grind
    · exact Nat.le_of_eq (hother i hij)
  unfold load
  omega

theorem load_onReceiver_lt {f : Receiver bucketSize → Receiver bucketSize} (j : Fin n)
    (hf : linkLoad total s.sender j (f (s.receivers j)) <
      linkLoad total s.sender j (s.receivers j)) :
    load total (s.onReceiver j f) < load total s := by
  refine load_lt_of_link j (Nat.le_refl _) (fun i hij => ?_) ?_
  · show linkLoad total s.sender i (update s.receivers j (f (s.receivers j)) i) = _
    rw [update_of_ne hij]
  · show linkLoad total s.sender j (update s.receivers j (f (s.receivers j)) j) < _
    rw [update_self]
    exact hf

theorem Inv.load_pack (hchunks : ChunkStream bucketSize chunks) (h : s.Inv chunks)
    (hfits : s.sender.nextFits = some true) :
    load total { s with sender := s.sender.pack } < load total s := by
  obtain ⟨-, c, hpacks⟩ := h.sender.pack hchunks hfits
  refine load_lt_of_sender 0 (fun i => ?_) ?_
  · have hdata : (s.sender.pack.unsentData i).length = (s.sender.unsentData i).length := by
      unfold Sender.unsentData
      rw [hpacks.op]
      cases s.sender.broadcastOp with
      | none => rfl
      | some op =>
        dsimp only
        split <;> rfl
    unfold linkLoad
    rw [hdata]
    exact Nat.le_refl _
  · have hmeta : s.sender.pack.unsentMeta = s.sender.unsentMeta := by
      unfold Sender.unsentMeta
      rw [hpacks.op]
    have htodo : s.sender.todo.length = s.sender.pack.todo.length + 1 := by
      rw [hpacks.todo, length_cons]
    have hle : (if s.sender.pack.flushed then 0 else postLoad n) ≤ postLoad n := by
      split <;> omega
    unfold senderLoad
    dsimp only
    rw [hmeta, htodo, hpacks.lastPosted, Nat.mul_add_one]
    omega

theorem linkLoad_post {s' : Sender bucketSize n} (isLast : Bool) (hidle : s.sender.Idle)
    (hop : s'.broadcastOp = (s.sender.post isLast).broadcastOp) (i : Fin n) :
    linkLoad total s' i (s.receivers i) ≤ linkLoad total s.sender i (s.receivers i) + 3 := by
  have hdata : (s'.unsentData i).length = 1 := by
    unfold Sender.unsentData
    rw [hop]
    rfl
  unfold linkLoad
  rw [Sender.unsentData_of_idle hidle]
  omega

theorem load_flush (hfits : s.sender.nextFits = some false) (hidle : s.sender.Idle) :
    load total { s with sender := s.sender.flush } < load total s := by
  refine load_lt_of_sender 3 (linkLoad_post false hidle rfl) ?_
  have hflushed := Sender.flushed_of_nextFits hfits
  have hmeta : s.sender.flush.unsentMeta.length = 1 := rfl
  unfold senderLoad
  rw [Sender.unsentMeta_of_idle hidle, hflushed]
  show (postLoad n + 1) * s.sender.todo.length + 0 + _ + (n + 1) * 1 + n * 3 <
    (postLoad n + 1) * s.sender.todo.length + postLoad n + _ + (n + 1) * 0
  unfold postLoad
  show _ + 0 + (if s.sender.lastPosted then 0 else _) + _ + _ < _
  omega

theorem load_last (hlast : s.sender.lastPosted = false) (hidle : s.sender.Idle) :
    load total { s with sender := { s.sender.post true with lastPosted := true } } <
      load total s := by
  refine load_lt_of_sender 3 (linkLoad_post true hidle rfl) ?_
  have hmeta : Sender.unsentMeta { s.sender.post true with lastPosted := true } =
    [⟨s.sender.bucketMeta, true⟩] := rfl
  unfold senderLoad
  rw [hmeta, Sender.unsentMeta_of_idle hidle, hlast]
  show (postLoad n + 1) * s.sender.todo.length + (if s.sender.flushed then 0 else postLoad n) + 0 +
    (n + 1) * 1 + n * 3 < (postLoad n + 1) * s.sender.todo.length +
      (if s.sender.flushed then 0 else postLoad n) + postLoad n + (n + 1) * 0
  unfold postLoad
  omega

theorem load_sendMeta (hguard : s.sender.broadcastOp.any (fun op => !op.metaSent) = true) :
    load total s.sendMeta < load total s := by
  obtain ⟨op, hop, hmeta⟩ := (Option.any_eq_true _ _).1 hguard
  have hmeta : op.metaSent = false := by rw [← Bool.not_eq_true']; exact hmeta
  have heq : s.sendMeta =
      { sender := { s.sender with broadcastOp := some { op with metaSent := true } }
        receivers := fun i =>
          { s.receivers i with metas := (s.receivers i).metas ++ [op.metadata] } } := by
    unfold State.sendMeta
    rw [hop]
  rw [heq]
  refine load_lt_of_sender 1 (fun i => ?_) ?_
  · have hdata : Sender.unsentData
        { s.sender with broadcastOp := some { op with metaSent := true } } i =
          s.sender.unsentData i := by
      unfold Sender.unsentData
      rw [hop]
    have hlen : ((s.receivers i).metas ++ [op.metadata]).length =
      (s.receivers i).metas.length + 1 := length_append
    unfold linkLoad
    dsimp only
    rw [hdata, hlen]
    show _ + (_ + 1) + _ + (if (s.receivers i).hasReceived then 1 else 0) + _ ≤ _
    omega
  · have hunsent : s.sender.unsentMeta = [op.metadata] := by
      unfold Sender.unsentMeta
      rw [hop]
      simp only [hmeta, Bool.false_eq_true, if_false]
    unfold senderLoad
    rw [hunsent]
    show (postLoad n + 1) * s.sender.todo.length + (if s.sender.flushed then 0 else postLoad n) +
      (if s.sender.lastPosted then 0 else postLoad n) + (n + 1) * 0 + n * 1 < _ + _ + _ + (n + 1) * 1
    omega

theorem load_send {j : Fin n}
    (hguard : s.sender.broadcastOp.any (fun op => op.metaSent && !op.sent j) = true) :
    load total (s.send j) < load total s := by
  obtain ⟨op, hop, hsent⟩ := (Option.any_eq_true _ _).1 hguard
  rw [Bool.and_eq_true, Bool.not_eq_true'] at hsent
  have heq : s.send j =
      { sender :=
          { s.sender with broadcastOp := some { op with sent := update op.sent j true } }
        receivers := update s.receivers j
          { s.receivers j with datas := (s.receivers j).datas ++ [s.sender.bufs op.bucket] } } := by
    unfold State.send
    rw [hop]
  rw [heq]
  refine load_lt_of_link j ?_ (fun i hij => ?_) ?_
  · unfold senderLoad Sender.unsentMeta
    rw [hop]
  · have hdata : Sender.unsentData
        { s.sender with broadcastOp := some { op with sent := update op.sent j true } } i =
          s.sender.unsentData i := by simp [Sender.unsentData, hop, update_of_ne hij]
    dsimp only
    rw [update_of_ne hij]
    unfold linkLoad
    rw [hdata]
  · have hdata : Sender.unsentData
        { s.sender with broadcastOp := some { op with sent := update op.sent j true } } j =
          [] := by
      unfold Sender.unsentData
      simp only [update_self, if_true]
    have hunsent : (s.sender.unsentData j).length = 1 := by
      unfold Sender.unsentData
      rw [hop]
      simp only [hsent.2, Bool.false_eq_true, if_false, length_singleton]
    have hlen : ((s.receivers j).datas ++ [s.sender.bufs op.bucket]).length =
      (s.receivers j).datas.length + 1 := length_append
    dsimp only
    rw [update_self]
    unfold linkLoad
    dsimp only
    rw [hdata, hunsent, hlen]
    show 3 * 0 + _ + _ + (if (s.receivers j).hasReceived then 1 else 0) + _ < _
    omega

theorem linkLoad_recvMeta (hawaits : r.awaitsMeta = true) (hmetas : r.metas.isEmpty = false) :
    linkLoad total sender i r.recvMeta < linkLoad total sender i r := by
  obtain ⟨bucket, received, hop⟩ := Receiver.eq_of_awaitsMeta hawaits
  obtain ⟨bufs, sendBuf, op, yielding, yielded, metas, datas, error⟩ := r
  dsimp only at hop
  subst hop
  cases metas with
  | nil => cases hmetas
  | cons metadata metas =>
    show 3 * (sender.unsentData i).length + metas.length + 2 * datas.length +
        (if received then 1 else 0) + (total - yielded.length) <
      3 * (sender.unsentData i).length + (metas.length + 1) + 2 * datas.length +
        (if received then 1 else 0) + (total - yielded.length)
    omega

theorem linkLoad_recvData (hawaits : r.awaitsData = true) (hdatas : r.datas.isEmpty = false) :
    linkLoad total sender i r.recvData < linkLoad total sender i r := by
  obtain ⟨bucket, metadata, hop⟩ := Receiver.eq_of_awaitsData hawaits
  obtain ⟨bufs, sendBuf, op, yielding, yielded, metas, datas, error⟩ := r
  dsimp only at hop
  subst hop
  cases datas with
  | nil => cases hdatas
  | cons data datas =>
    show 3 * (sender.unsentData i).length + metas.length + 2 * datas.length + 1 +
        (total - yielded.length) <
      3 * (sender.unsentData i).length + metas.length + 2 * (datas.length + 1) + 0 +
        (total - yielded.length)
    omega

section

variable {msgs : List (Message bucketSize)} (h : LinkInv chunks sender i r msgs)
include h

theorem linkLoad_advance (hreceived : r.hasReceived = true) :
    linkLoad total sender i r.advance < linkLoad total sender i r := by
  obtain ⟨bucket, metadata, hop⟩ := Receiver.eq_of_hasReceived hreceived
  have hsome := h.opMeta _ hop rfl
  obtain ⟨bufs, sendBuf, op, yielding, yielded, metas, datas, error⟩ := r
  dsimp only at hop
  subst hop
  cases metadata with
  | none => cases hsome
  | some metadata =>
    have hnext : (Receiver.advance ⟨bufs, sendBuf, some ⟨bucket, some metadata, true⟩, yielding,
        yielded, metas, datas, error⟩).hasReceived = false := by
      show Option.any _ (if metadata.isLast then none else some (Receiver.nextOp sendBuf)) = false
      split <;> rfl
    unfold linkLoad
    rw [hnext]
    show 3 * (sender.unsentData i).length + metas.length + 2 * datas.length + 0 +
        (total - yielded.length) <
      3 * (sender.unsentData i).length + metas.length + 2 * datas.length + 1 +
        (total - yielded.length)
    omega

theorem linkLoad_yield (hyielding : r.yielding.isEmpty = false) :
    linkLoad chunks.length sender i r.yield < linkLoad chunks.length sender i r := by
  have hlt : r.yielded.length < chunks.length := by
    have hunread : 0 < r.unread.length := by
      unfold Receiver.unread readBucket
      rw [length_map]
      exact length_pos_iff.2 (isEmpty_eq_false_iff.1 hyielding)
    rw [← h.stream]
    simp only [length_append, length_map]
    omega
  obtain ⟨bufs, sendBuf, op, yielding, yielded, metas, datas, error⟩ := r
  cases yielding with
  | nil => cases hyielding
  | cons m rest =>
    obtain ⟨name, shape, chunkOffset, chunkSize, offset⟩ := m
    obtain ⟨offset, hoffset⟩ := h.yielding _ mem_cons_self
    cases hoffset
    have hlen : (yielded ++ [Chunk.mk ⟨name, shape, chunkOffset, chunkSize, some offset⟩
        ((bufs sendBuf).slice offset chunkSize)]).length = yielded.length + 1 :=
      length_append
    dsimp only at hlt
    show 3 * _ + metas.length + 2 * datas.length + (if Option.any _ op then 1 else 0) +
        (chunks.length - (yielded ++ [Chunk.mk ⟨name, shape, chunkOffset, chunkSize, some offset⟩
          ((bufs sendBuf).slice offset chunkSize)]).length) <
      3 * _ + metas.length + 2 * datas.length + (if Option.any _ op then 1 else 0) +
        (chunks.length - yielded.length)
    rw [hlen]
    omega

end

theorem Inv.load_lt {eager : Bool} (hchunks : ChunkStream bucketSize chunks) (h : s.Inv chunks)
    (a : Action n) (hguard : (broadcast eager a).guard s) :
    load chunks.length ((broadcast eager a).effect s) < load chunks.length s := by
  cases a with
  | pack => exact h.load_pack hchunks hguard.2
  | flush => exact load_flush hguard.2.1 hguard.2.2
  | last => exact load_last hguard.2.2.1 hguard.2.2.2
  | sendMeta => exact load_sendMeta hguard
  | send i => exact load_send hguard.1
  | recvMeta i => exact load_onReceiver_lt i (linkLoad_recvMeta hguard.1 hguard.2)
  | recvData i => exact load_onReceiver_lt i (linkLoad_recvData hguard.1 hguard.2)
  | advance i =>
    obtain ⟨msgs, hlink⟩ := h.link i
    exact load_onReceiver_lt i (linkLoad_advance hlink hguard.2.1)
  | yield i =>
    obtain ⟨msgs, hlink⟩ := h.link i
    exact load_onReceiver_lt i (linkLoad_yield hlink hguard.2)

end State

/-! ## Every run -/

/-- In every reachable state no assertion has failed and no bucket is too large or holds a name
twice, each receiver has yielded some of the weights, in order, and no step overwrites a buffer
in use; a run cannot go on for ever, and when no step is left every receiver has yielded the
weights that were sent. -/
theorem broadcast_exact (hpos : 0 < bucketSize) (ws : WeightList) (eager : Bool)
    (empty : Uninitialized) {s : State bucketSize n}
    (h : StepSystem.Reachable (broadcast eager) StepSystem.anyStep
      (State.initial bucketSize n ws.weights) s) :
    s.Safe ∧
    (∀ i, ∃ out, (s.receivers i).received empty = .ok out ∧ out <+: ws.weights) ∧
    (∀ a, (broadcast eager a).guard s → s.KeepsBuffers ((broadcast eager a).effect s)) ∧
    (∃ bound, ∀ as, StepSystem.Admits (broadcast eager) StepSystem.anyStep s as →
      as.length ≤ bound) ∧
    (StepSystem.Stuck (broadcast eager) s →
      s.Finished ∧ ∀ i, (s.receivers i).received empty = .ok ws.weights) := by
  have hchunks := chunkStream_split hpos ws
  have hinv : ∀ {s}, StepSystem.Reachable (broadcast eager) StepSystem.anyStep
      (State.initial bucketSize n ws.weights) s →
        s.Inv (splitWeightChunks bucketSize ws.weights) :=
    StepSystem.Reachable.invariant (State.inv_initial bucketSize n ws.weights)
      fun s a hs hguard _ => hs.step hchunks a hguard
  refine ⟨(hinv h).safe, fun i => ?_, fun a => (hinv h).keepsBuffers hchunks a, ?_, fun hstuck => ?_⟩
  · -- what the receiver has yielded is a first part of the chunks
    obtain ⟨msgs, hlink⟩ := (hinv h).link i
    have hprefix : (s.receivers i).yielded.map Chunk.unplaced <+:
        splitWeightChunks bucketSize ws.weights := by simp [← hlink.stream, append_assoc]
    obtain ⟨out, hout, hle⟩ := mergeWeightChunks_of_prefix empty hpos ws hprefix
    exact ⟨out, mergeWeightChunks_of_unplaced hout, hle⟩
  · exact ⟨_, fun as has => StepSystem.length_le_of_measure
      (State.load (splitWeightChunks bucketSize ws.weights).length)
      (fun s a hs hguard _ => (hinv hs).load_lt hchunks a hguard) h has⟩
  · have hfinished := (hinv h).finished_of_stuck hstuck
    refine ⟨hfinished, fun i => mergeWeightChunks_of_unplaced ?_⟩
    rw [(hinv h).yielded_of_finished hfinished i]
    exact mergeWeightChunks_split hpos ws

/-- Two weights and buckets of two bytes: the first weight is cut in two. -/
def twoWeights : WeightList where
  weights :=
    [ { name := "a", shape := [3], bytes := [1, 2, 3], length_eq := rfl },
      { name := "b", shape := [1], bytes := [4], length_eq := rfl } ]
  nodup := by decide
  nonempty := by decide

def twoWeightsRun : List (Action 1) :=
  [ .pack, .flush, .pack, .sendMeta, .send 0, .pack, .recvMeta 0, .recvData 0, .last, .sendMeta,
    .advance 0, .recvMeta 0, .send 0, .yield 0, .recvData 0, .advance 0, .yield 0, .yield 0 ]

theorem broadcast_exact_twoWeights :
    let s := StepSystem.run (broadcast true) (State.initial 2 1 twoWeights.weights) twoWeightsRun
    s.Safe ∧ s.Finished ∧
      (s.receivers 0).received (fun _ n => Buffer.replicate n 0) = .ok twoWeights.weights := by
  have hreachable : StepSystem.Reachable (broadcast true) StepSystem.anyStep
      (State.initial 2 1 twoWeights.weights)
      (StepSystem.run (broadcast true) (State.initial 2 1 twoWeights.weights) twoWeightsRun) :=
    StepSystem.reachable_run (by decide +kernel)
  have h := broadcast_exact (by decide) twoWeights true (fun _ n => Buffer.replicate n 0) hreachable
  refine ⟨h.1, ?_⟩
  obtain ⟨hfinished, hreceived⟩ := h.2.2.2.2 (by
    intro a
    cases a with
    | pack => decide +kernel
    | flush => decide +kernel
    | last => decide +kernel
    | sendMeta => decide +kernel
    | send i => revert i; decide +kernel
    | recvMeta i => revert i; decide +kernel
    | recvData i => revert i; decide +kernel
    | advance i => revert i; decide +kernel
    | yield i => revert i; decide +kernel)
  exact ⟨hfinished, hreceived 0⟩

end Verl.CheckpointEngine
