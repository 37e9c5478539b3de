import Verl.CheckpointEngine.Delivery
import Verl.CheckpointEngine.NixlChain

/-! # What holds along the chain

The buckets an agent has posted are its log.  The log of a worker, the bucket it holds and the
bucket it is still to read are the log of the agent before it (`LinkInv.stream`), and the keys of
the notifications and of the unfinished reads on a link are the one key its owner waits for
(`LinkInv.keys`).

* `LinkInv`: between an agent and the next one.  `Worker.Inv`: one worker.
* `State.InvWith`, `State.Inv.step`: every step keeps both along the whole chain. -/

namespace Verl.CheckpointEngine.Nixl

open List Function Option

variable {bucketSize n : Nat}

/-! ## The operations and buffers of the agents -/

namespace State

variable (s : State bucketSize n) (i : Fin n)

theorem readableOp_castSucc :
    s.readableOp i.castSucc = (s.links i).readableOp := by
  unfold readableOp
  rw [nextLink_castSucc]
  rfl

theorem notified_castSucc :
    s.Notified i.castSucc ↔ (s.links i).Notified := by
  unfold Notified
  rw [nextLink_castSucc]
  constructor
  · simp
  · exact fun hn => ⟨i, rfl, hn⟩

/-- The state with another worker `i` and another link to it. -/
def setWorker (s : State bucketSize n) (i : Fin n) (w : Worker bucketSize) (l : Link) :
    State bucketSize n :=
  { s with workers := Function.update s.workers i w, links := Function.update s.links i l }

theorem onWorker_eq_setWorker (f : Worker bucketSize → Worker bucketSize) :
    s.onWorker i f = s.setWorker i (f (s.workers i)) (s.links i) := by
  unfold onWorker setWorker
  rw [update_eq_self]

theorem bufs_of_ne (s s' : State bucketSize n) {i : Fin n} {w : Worker bucketSize}
    (htrainer : s'.trainer.bufs = s.trainer.bufs) (hworkers : s'.workers = update s.workers i w)
    {rank : Fin (n + 1)} (hrank : rank ≠ i.succ) : s'.bufs rank = s.bufs rank := by
  cases rank using Fin.cases with
  | zero => exact htrainer
  | succ j =>
    have hij : j ≠ i := fun h => hrank (congrArg Fin.succ h)
    show (s'.workers j).bufs = (s.workers j).bufs
    rw [hworkers, update_of_ne hij]

theorem bufs_succ : s.bufs i.succ = (s.workers i).bufs := rfl

theorem bufs_zero : s.bufs 0 = s.trainer.bufs := rfl

theorem readableOp_congr {s s' : State bucketSize n}
    (h : ∀ i, (s'.links i).readableOp = (s.links i).readableOp) (rank : Fin (n + 1)) :
    s'.readableOp rank = s.readableOp rank := by
  unfold readableOp
  cases nextLink rank with
  | none => rfl
  | some i => exact h i

theorem readableOp_update {s s' : State bucketSize n} {i : Fin n} {l : Link}
    (hlinks : s'.links = update s.links i l) {rank : Fin (n + 1)}
    (hrank : rank ≠ i.castSucc) : s'.readableOp rank = s.readableOp rank := by
  unfold readableOp
  cases hnext : nextLink rank with
  | none => rfl
  | some j =>
    have hij : j ≠ i := by
      rintro rfl
      exact hrank (eq_castSucc_of_nextLink hnext)
    show (s'.links j).readableOp = (s.links j).readableOp
    rw [hlinks, update_of_ne hij]

end State

/-! ## The trainer -/

namespace Trainer

variable {t : Trainer bucketSize} {chunks : List Chunk}

/-- The packing of the trainer is the packing of a sender that has no operation. -/
def toSender (t : Trainer bucketSize) : Sender bucketSize 0 where
  bufs := t.bufs
  sendBuf := t.sendBuf
  broadcastOp := none
  bucketMeta := t.bucketMeta
  offset := t.offset
  todo := t.todo
  flushed := t.flushed
  lastPosted := t.lastPosted
  error := t.error

theorem toSender_store (t : Trainer bucketSize) (c : Chunk) :
    (∃ t', t.store c = .ok t' ∧ t.toSender.store c = .ok t'.toSender) ∨
      ∃ e e', t.store c = .error e ∧ t.toSender.store c = .error e' := by
  unfold store Sender.store
  by_cases hle : t.offset + c.tensorMeta.chunkSize ≤ bucketSize
  · by_cases hname : c.tensorMeta.name ∈ t.bucketMeta.keys
    · simp only [toSender, hle, hname, decide_true, Bool.not_true, pyAssert_true, pyAssert_false,
        ok_bind]
      exact .inr ⟨_, _, rfl, rfl⟩
    · simp only [toSender, hle, hname, decide_true, decide_false, Bool.not_false, pyAssert_true]
      cases (t.bufs t.sendBuf).assign t.offset c.tensorMeta.chunkSize c.data with
      | none => exact .inr ⟨_, _, rfl, rfl⟩
      | some buf => exact .inl ⟨_, rfl, rfl⟩
  · simp only [toSender, hle, decide_false, pyAssert_false]
    exact .inr ⟨_, _, rfl, rfl⟩

theorem toSender_pack (h : t.toSender.pack.error = none) : t.pack.toSender = t.toSender.pack := by
  unfold pack
  unfold Sender.pack at h ⊢
  cases htodo : t.todo with
  | nil =>
    have htodo' : t.toSender.todo = [] := htodo
    rw [htodo']
  | cons c rest =>
    have htodo' : t.toSender.todo = c :: rest := htodo
    rw [htodo'] at ⊢
    dsimp only at ⊢
    rcases t.toSender_store c with ⟨t', hstore, hstore'⟩ | ⟨e, e', -, hstore'⟩
    · rw [hstore, hstore']
      rfl
    · grind

/-- The chunks that are in no operation yet. -/
def unposted (t : Trainer bucketSize) : List Chunk :=
  if t.lastPosted then [] else t.toSender.packed

/-- `is_last`, once it is posted. -/
def endFlag (t : Trainer bucketSize) : List Bool := if t.lastPosted then [true] else []

theorem swap_inv (h : t.toSender.Inv chunks) : t.swap.toSender.Inv chunks :=
  { h with
    bucket := Packed.empty
    offset_le := Nat.zero_le _
    flushed := fun _ => ⟨rfl, rfl⟩
    todo := (suffix_append t.toSender.packed t.todo).trans h.todo
    opBucket := fun _ hop => by cases hop
    opPacked := fun _ hop => by cases hop }

theorem last_inv (h : t.toSender.Inv chunks) (hfits : t.nextFits = none) :
    Sender.Inv chunks (toSender { t with lastPosted := true }) :=
  { h with
    lastPosted := fun _ => head?_eq_none_iff.1 (map_eq_none_iff.1 hfits)
    opBucket := fun _ hop => by cases hop
    opPacked := fun _ hop => by cases hop }

end Trainer

/-! ## One worker -/

namespace Worker

/-- The message of the read that is not finished. -/
def reading (w : Worker bucketSize) : List ReadableMessage :=
  match w.readOp with
  | none => []
  | some op => if op.xferHandle = some .done then [] else op.message.toList

/-- The bucket that was read and is not swapped in yet. -/
def arrived (w : Worker bucketSize) : List (Message bucketSize) :=
  match w.readOp with
  | none => []
  | some op =>
    if op.xferHandle = some .done then
      op.message.toList.map fun m => ⟨m.metadata, w.bufs op.localDescs⟩
    else []

/-- The buckets that were read and are not published. -/
def held (w : Worker bucketSize) : List (Message bucketSize) :=
  (w.metadata.toList.map fun metadata => ⟨metadata, w.bufs w.sendBuf⟩) ++ w.arrived

/-- The messages whose read is not finished. -/
def waiting (w : Worker bucketSize) (l : Link) : List ReadableMessage := w.reading ++ l.messages

/-- A worker that has published the buckets `log`. -/
structure Inv (log : List (Message bucketSize)) (w : Worker bucketSize) : Prop where
  error : w.error = none
  /-- The buffer that is read into is not the one whose tensors are yielded. -/
  localDescs : ∀ op, w.readOp = some op → op.localDescs = !w.sendBuf
  message : ∀ op, w.readOp = some op → op.message = none → op.xferHandle = none
  metadata : ∀ m, w.metadata = some m → w.readOp = none ∧ w.yielding = []
  yielding : ∀ m ∈ w.yielding, ∃ offset, m.offset = some offset
  /-- No chunk is lost, no chunk comes twice, and their order is kept. -/
  chunks : log.flatMap Message.chunks =
    w.yielded.map Chunk.unplaced ++ readBucket w.yielding (w.bufs w.sendBuf)
  ended : (log.any fun m => m.metadata.isLast) = (w.readOp.isNone && w.metadata.isNone)

variable {w : Worker bucketSize} {log : List (Message bucketSize)}

theorem eq_of_awaitsMessage (h : w.awaitsMessage = true) :
    ∃ b xferHandle, w.readOp = some ⟨b, none, xferHandle⟩ := by
  obtain ⟨⟨b, message, xferHandle⟩, hop, hnone⟩ := (any_eq_true _ _).1 h
  cases message with
  | none => exact ⟨b, xferHandle, hop⟩
  | some => cases hnone

theorem eq_of_canBegin (h : w.canBegin = true) :
    ∃ b message, w.readOp = some ⟨b, some message, none⟩ := by
  obtain ⟨⟨b, message, xferHandle⟩, hop, hbegin⟩ := (any_eq_true _ _).1 h
  cases message with
  | none => cases hbegin
  | some message =>
    cases xferHandle with
    | none => exact ⟨b, message, hop⟩
    | some => cases hbegin

theorem eq_of_inFlight {message : ReadableMessage} (h : w.inFlight = some message) :
    ∃ b, w.readOp = some ⟨b, some message, some .proc⟩ := by
  unfold inFlight at h
  split at h
  case h_1 op b m hop =>
    cases h
    exact ⟨_, hop⟩
  case h_2 => cases h

theorem eq_of_hasRead (hinv : w.Inv log) (h : w.hasRead = true) :
    ∃ b message, w.readOp = some ⟨b, some message, some .done⟩ := by
  obtain ⟨⟨b, message, xferHandle⟩, hop, hdone⟩ := (any_eq_true _ _).1 h
  have hdone : xferHandle = some .done := of_decide_eq_true hdone
  subst hdone
  cases message with
  | none => cases hinv.message _ hop rfl
  | some message => exact ⟨b, message, hop⟩

/-! The steps of a worker. -/

section

variable (h : w.Inv log)
include h

theorem Inv.metadata_eq_none {op : ReadOperation} (hop : w.readOp = some op) :
    w.metadata = none := by
  cases hmetadata : w.metadata with
  | none => rfl
  | some m =>
    have hnone := (h.metadata m hmetadata).1
    rw [hop] at hnone
    cases hnone

theorem Inv.readMetadata (hawaits : w.awaitsMessage = true)
    (message : ReadableMessage) : (w.readMetadata message).Inv log := by
  obtain ⟨b, xferHandle, hop⟩ := eq_of_awaitsMessage hawaits
  have hmetadata := h.metadata_eq_none hop
  obtain ⟨bufs, sendBuf, metadata, readOp, yielding, yielded, error⟩ := w
  subst hop hmetadata
  exact
    { h with
      localDescs := fun op hop => by cases hop; exact h.localDescs ⟨b, none, xferHandle⟩ rfl
      message := fun op hop hnone => by cases hop; cases hnone
      metadata := fun m hm => by cases hm }

theorem Inv.beginRead (hbegin : w.canBegin = true) : w.beginRead.Inv log := by
  obtain ⟨b, message, hop⟩ := eq_of_canBegin hbegin
  have hmetadata := h.metadata_eq_none hop
  obtain ⟨bufs, sendBuf, metadata, readOp, yielding, yielded, error⟩ := w
  subst hop hmetadata
  exact
    { h with
      localDescs := fun op hop => by cases hop; exact h.localDescs ⟨b, some message, none⟩ rfl
      message := fun op hop hnone => by cases hop; cases hnone
      metadata := fun m hm => by cases hm }

theorem Inv.bufs_finishRead (data : Buffer UInt8 bucketSize) :
    (w.finishRead data).bufs w.sendBuf = w.bufs w.sendBuf := by
  unfold Worker.finishRead
  cases hop : w.readOp with
  | none => rfl
  | some op =>
    have hne : w.sendBuf ≠ op.localDescs := by simp [h.localDescs op hop]
    exact update_of_ne hne data w.bufs

theorem Inv.finishRead {message : ReadableMessage}
    (hflight : w.inFlight = some message) (data : Buffer UInt8 bucketSize) :
    (w.finishRead data).Inv log := by
  obtain ⟨b, hop⟩ := eq_of_inFlight hflight
  have hbufs := h.bufs_finishRead data
  have hmetadata := h.metadata_eq_none hop
  obtain ⟨bufs, sendBuf, metadata, readOp, yielding, yielded, error⟩ := w
  subst hop hmetadata
  exact
    { h with
      localDescs := fun op hop => by
        cases hop
        exact h.localDescs ⟨b, some message, some .proc⟩ rfl
      message := fun op hop hnone => by cases hop; cases hnone
      metadata := fun m hm => by cases hm
      chunks := by
        have hread := h.chunks
        dsimp only at hbufs hread
        rw [hread, ← hbufs]
        rfl }

theorem Inv.advance (hread : w.hasRead = true) (hyielding : w.yielding = []) :
    w.advance.Inv log := by
  obtain ⟨b, message, hop⟩ := eq_of_hasRead h hread
  have hmetadata := h.metadata_eq_none hop
  obtain ⟨bufs, sendBuf, metadata, readOp, yielding, yielded, error⟩ := w
  subst hop hmetadata hyielding
  exact
    { h with
      localDescs := fun op hop => by cases hop
      message := fun op hop _ => by cases hop
      metadata := fun m _ => ⟨rfl, rfl⟩ }

/-- The bucket that is published goes to the end of the log. -/
theorem Inv.publish {metadata : Metadata} (hmetadata : w.metadata = some metadata)
    {used : Nat} (hpacked : Packed metadata.bucketMeta used) :
    (w.publish metadata).Inv (log ++ [⟨metadata, w.bufs w.sendBuf⟩]) := by
  obtain ⟨hop, hyielding⟩ := h.metadata metadata hmetadata
  obtain ⟨bufs, sendBuf, _, readOp, yielding, yielded, error⟩ := w
  subst hop hmetadata hyielding
  have hended : (log.any fun m => m.metadata.isLast) = false := h.ended
  have hchunks : log.flatMap Message.chunks = yielded.map Chunk.unplaced ++ [] := h.chunks
  constructor
  case error => exact h.error
  case localDescs =>
    intro op hop
    have hop : (if metadata.isLast then none else some (nextOp !sendBuf)) = some op := hop
    cases hlast : metadata.isLast with
    | true => rw [hlast] at hop; cases hop
    | false => rw [hlast] at hop; cases hop; rfl
  case message =>
    intro op hop _
    have hop : (if metadata.isLast then none else some (nextOp !sendBuf)) = some op := hop
    cases hlast : metadata.isLast with
    | true => rw [hlast] at hop; cases hop
    | false => rw [hlast] at hop; cases hop; rfl
  case metadata => exact fun m hm => by cases hm
  case yielding =>
    intro m hm
    obtain ⟨offset, hoffset, -⟩ := hpacked.inside m hm
    exact ⟨offset, hoffset⟩
  case chunks =>
    rw [flatMap_append, hchunks, append_nil, flatMap_singleton]
    rfl
  case ended =>
    rw [any_append, hended]
    show (false || (metadata.isLast || false)) =
      ((if metadata.isLast then none else some (nextOp !sendBuf)).isNone && true)
    cases metadata.isLast <;> rfl

theorem Inv.yield : w.yield.Inv log := by
  obtain ⟨bufs, sendBuf, metadata, readOp, yielding, yielded, error⟩ := w
  cases yielding with
  | nil => exact h
  | cons m rest =>
    obtain ⟨name, shape, chunkOffset, chunkSize, offset⟩ := m
    obtain ⟨offset, hoffset⟩ := h.yielding _ mem_cons_self
    cases hoffset
    exact
      { h with
        metadata := fun m hm => by cases (h.metadata m hm).2
        yielding := fun m hm => h.yielding m (mem_cons_of_mem _ hm)
        chunks := by
          refine h.chunks.trans ?_
          show _ = (yielded ++ [_]).map Chunk.unplaced ++ _
          rw [map_append, append_assoc]
          rfl }

end

end Worker

/-! ## From an agent to the next one -/

/-- The bucket that a message tells of. -/
def ReadableMessage.posted (bufs : Bool → Buffer UInt8 bucketSize) (m : ReadableMessage) :
    Message bucketSize :=
  ⟨m.metadata, bufs m.remoteDescs⟩

/-- What holds between an agent with the buffers `bufs` that has posted the buckets `up`, and the
next one, which has posted the buckets `down`. -/
structure LinkInv (up down : List (Message bucketSize)) (bufs : Bool → Buffer UInt8 bucketSize)
    (l : Link) (w : Worker bucketSize) : Prop where
  stream : down ++ w.held ++ (w.waiting l).map (ReadableMessage.posted bufs) = up
  keys : l.notifications ++ (w.waiting l).map ReadableMessage.notifyKey =
    l.readableOp.toList.map ReadableOperation.notifyKey
  descs : ∀ m ∈ w.waiting l, ∃ op, l.readableOp = some op ∧ op.localDescs = m.remoteDescs

theorem Link.messages_waitForComplete {l l' : Link} (h : l.waitForComplete = .ok l') :
    l'.messages = l.messages := by
  unfold Link.waitForComplete at h
  split at h
  · obtain ⟨-, -, h⟩ := bind_eq_ok.1 h
    cases h
    rfl
  · cases h
    rfl

namespace LinkInv

variable {up down : List (Message bucketSize)} {bufs bufs' : Bool → Buffer UInt8 bucketSize}
  {l : Link} {w w' : Worker bucketSize}

section

variable (h : LinkInv up down bufs l w)
include h

/-- Only the buffer of the operation matters. -/
theorem congr_bufs (hbufs : ∀ op, l.readableOp = some op → bufs' op.localDescs = bufs op.localDescs) :
    LinkInv up down bufs' l w where
  stream := by
    have hmap : (w.waiting l).map (ReadableMessage.posted bufs') =
        (w.waiting l).map (ReadableMessage.posted bufs) := by
      apply map_congr_left
      intro m hm
      obtain ⟨op, hop, hdescs⟩ := h.descs m hm
      unfold ReadableMessage.posted
      rw [← hdescs, hbufs op hop]
    rw [hmap]
    exact h.stream
  keys := h.keys
  descs := h.descs

/-- The worker keeps what it holds and what it reads. -/
theorem congr_worker (hheld : w'.held = w.held)
    (hreading : w'.reading = w.reading) : LinkInv up down bufs l w' where
  stream := by
    unfold Worker.waiting
    rw [hheld, hreading]
    exact h.stream
  keys := by
    unfold Worker.waiting
    rw [hreading]
    exact h.keys
  descs := by
    unfold Worker.waiting
    rw [hreading]
    exact h.descs

/-- Nothing is under way where no operation is left to wait for. -/
theorem of_readableOp_eq_none (hop : l.readableOp = none) :
    l.notifications = [] ∧ w.waiting l = [] := by
  have hkeys := h.keys
  rw [hop] at hkeys
  obtain ⟨hnotifications, hwaiting⟩ := append_eq_nil_iff.1 hkeys
  exact ⟨hnotifications, map_eq_nil_iff.1 hwaiting⟩

/-- The notification is that of the operation: the assertion does not fail. -/
theorem waitForComplete (hn : l.Notified) :
    ∃ l', l.waitForComplete = .ok l' ∧ l'.readableOp = none ∧ LinkInv up down bufs l' w := by
  obtain ⟨hop, hnotifications⟩ := hn
  obtain ⟨readableOp, messages, notifications, ops⟩ := l
  cases readableOp with
  | none => cases hop
  | some op =>
    cases notifications with
    | nil => cases hnotifications
    | cons notification notifications =>
      have hkeys : notification ::
          (notifications ++ (w.reading ++ messages).map ReadableMessage.notifyKey) =
            [op.notifyKey] := h.keys
      obtain ⟨hkey, hrest⟩ := List.cons.inj hkeys
      obtain ⟨hnil, hwaiting⟩ := append_eq_nil_iff.1 hrest
      subst hkey hnil
      refine ⟨⟨none, messages, [], ops⟩, ?_, rfl, ?_⟩
      · unfold Link.waitForComplete
        dsimp only
        rw [beq_self_eq_true]
        rfl
      · exact
          { stream := h.stream
            keys := hwaiting
            descs := fun m hm => by
              have hm : m ∈ w.reading ++ messages := hm
              rw [map_eq_nil_iff.1 hwaiting] at hm
              cases hm }

theorem post (hop : l.readableOp = none) (uuid : Nat → NotifyKey)
    (sendDescs : Bool) (metadata : Metadata) :
    LinkInv (up ++ [⟨metadata, bufs sendDescs⟩]) down bufs (l.post uuid sendDescs metadata) w := by
  obtain ⟨hnotifications, hwaiting⟩ := h.of_readableOp_eq_none hop
  have hstream := h.stream
  rw [hwaiting, map_nil, append_nil] at hstream
  have hmessages : w.waiting (l.post uuid sendDescs metadata) =
      [⟨uuid l.ops, sendDescs, metadata⟩] := by
    show w.reading ++ (l.messages ++ [_]) = _
    rw [← append_assoc]
    show w.waiting l ++ _ = _
    rw [hwaiting]
    rfl
  constructor
  case stream =>
    rw [hmessages, hstream]
    rfl
  case keys =>
    rw [hmessages]
    show l.notifications ++ _ = _
    rw [hnotifications]
    rfl
  case descs =>
    intro m hm
    rw [hmessages] at hm
    cases mem_singleton.1 hm
    exact ⟨_, rfl, rfl⟩

end

/-! The steps of the worker. -/

variable {log : List (Message bucketSize)}

section

variable (h : LinkInv up down bufs l w)
include h

theorem readMetadata (hinv : w.Inv log)
    (hawaits : w.awaitsMessage = true) {message : ReadableMessage}
    {messages : List ReadableMessage} (hmessages : l.messages = message :: messages) :
    LinkInv up down bufs { l with messages := messages } (w.readMetadata message) := by
  obtain ⟨b, xferHandle, hop⟩ := Worker.eq_of_awaitsMessage hawaits
  have hxfer : xferHandle = none := hinv.message _ hop rfl
  obtain ⟨wbufs, sendBuf, metadata, readOp, yielding, yielded, error⟩ := w
  obtain ⟨readableOp, lmessages, notifications, ops⟩ := l
  subst hop hxfer hmessages
  exact
    { stream := h.stream
      keys := h.keys
      descs := h.descs }

theorem beginRead (hbegin : w.canBegin = true) : LinkInv up down bufs l w.beginRead := by
  obtain ⟨b, message, hop⟩ := Worker.eq_of_canBegin hbegin
  obtain ⟨wbufs, sendBuf, metadata, readOp, yielding, yielded, error⟩ := w
  subst hop
  exact h.congr_worker rfl rfl

/-- The bucket comes in and the notification goes out. -/
theorem finishRead (hinv : w.Inv log) {message : ReadableMessage}
    (hflight : w.inFlight = some message) :
    LinkInv up down bufs { l with notifications := l.notifications ++ [message.notifyKey] }
      (w.finishRead (bufs message.remoteDescs)) := by
  obtain ⟨b, hop⟩ := Worker.eq_of_inFlight hflight
  have hmetadata := hinv.metadata_eq_none hop
  clear hinv
  obtain ⟨wbufs, sendBuf, metadata, readOp, yielding, yielded, error⟩ := w
  subst hop hmetadata
  constructor
  case stream =>
    have hstream : down ++ [] ++ (message.posted bufs ::
        l.messages.map (ReadableMessage.posted bufs)) = up := h.stream
    refine Eq.trans ?_ hstream
    show down ++ [⟨message.metadata, update wbufs b (bufs message.remoteDescs) b⟩] ++ _ = _
    rw [update_self, append_nil, append_assoc]
    rfl
  case keys =>
    have hkeys : l.notifications ++ (message.notifyKey ::
        l.messages.map ReadableMessage.notifyKey) =
          l.readableOp.toList.map ReadableOperation.notifyKey := h.keys
    refine Eq.trans ?_ hkeys
    show l.notifications ++ [message.notifyKey] ++ _ = _
    rw [append_assoc]
    rfl
  case descs => exact fun m hm => h.descs m (mem_append_right _ hm)

theorem advance (hinv : w.Inv log) (hread : w.hasRead = true) :
    LinkInv up down bufs l w.advance := by
  obtain ⟨b, message, hop⟩ := Worker.eq_of_hasRead hinv hread
  have hmetadata := hinv.metadata_eq_none hop
  have hdescs : b = !w.sendBuf := hinv.localDescs _ hop
  obtain ⟨wbufs, sendBuf, metadata, readOp, yielding, yielded, error⟩ := w
  dsimp only at hdescs
  subst hop hmetadata hdescs
  exact h.congr_worker rfl rfl

theorem publish (hinv : w.Inv log) {metadata : Metadata} (hmetadata : w.metadata = some metadata) :
    LinkInv up (down ++ [⟨metadata, w.bufs w.sendBuf⟩]) bufs l (w.publish metadata) := by
  obtain ⟨hop, -⟩ := hinv.metadata metadata hmetadata
  clear hinv
  obtain ⟨wbufs, sendBuf, _, readOp, yielding, yielded, error⟩ := w
  dsimp only at hop hmetadata
  subst hop hmetadata
  have hheld : Worker.held (Worker.publish ⟨wbufs, sendBuf, some metadata, none, yielding, yielded,
      error⟩ metadata) = [] := by
    unfold Worker.held Worker.arrived Worker.publish
    cases metadata.isLast <;> rfl
  have hreading : Worker.reading (Worker.publish ⟨wbufs, sendBuf, some metadata, none, yielding,
      yielded, error⟩ metadata) = [] := by
    unfold Worker.reading Worker.publish
    cases metadata.isLast <;> rfl
  constructor
  case stream =>
    have hstream : down ++ [⟨metadata, wbufs sendBuf⟩] ++
        l.messages.map (ReadableMessage.posted bufs) = up := h.stream
    unfold Worker.waiting
    rw [hheld, hreading, append_nil]
    exact hstream
  case keys =>
    unfold Worker.waiting
    rw [hreading]
    exact h.keys
  case descs =>
    unfold Worker.waiting
    rw [hreading]
    exact h.descs

theorem yield : LinkInv up down bufs l w.yield := by
  obtain ⟨wbufs, sendBuf, metadata, readOp, yielding, yielded, error⟩ := w
  cases yielding with
  | nil => exact h
  | cons m rest =>
    obtain ⟨name, shape, chunkOffset, chunkSize, offset⟩ := m
    cases offset with
    | none => exact h.congr_worker rfl rfl
    | some offset => exact h.congr_worker rfl rfl

end

end LinkInv

end Verl.CheckpointEngine.Nixl
