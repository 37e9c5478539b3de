import Verl.CheckpointEngine.Broadcast

/-! # Every receiver gets the weights that were sent

What the sender has packed, the messages under way, and what a receiver has read and still
has to read are, put behind each other, the chunks of the weights (`LinkInv.stream`).  From
this, for any order of the steps of the sender, the broadcasts and the receivers:

* `Safe`: no assertion fails, a bucket holds at most `bucketSize` bytes and each name once.
* `broadcast_exact`: a receiver yields the weights in order, and all of them when no step is
  left; no step overwrites a buffer that is being sent or read; a run ends. -/

namespace Verl.CheckpointEngine

open List Function

variable {bucketSize n : Nat}

/-! ## Buckets -/

def metasOf (bucketMeta : Dict TensorMeta) : List TensorMeta := bucketMeta.items.map Prod.snd

/-- The chunks that a buffer holds according to `metas`. -/
def readBucket (metas : List TensorMeta) (buf : Buffer UInt8 bucketSize) : List Chunk :=
  metas.map fun m =>
    Chunk.unplaced { tensorMeta := m, data := buf.slice (m.offset.getD 0) m.chunkSize }

/-- The chunks of a bucket lie one behind the other in its first `used` bytes. -/
structure Packed (bucketMeta : Dict TensorMeta) (used : Nat) : Prop where
  name : ∀ p ∈ bucketMeta.items, p.2.name = p.1
  inside : ∀ m ∈ metasOf bucketMeta, ∃ offset, m.offset = some offset ∧ offset + m.chunkSize ≤ used
  total : ((metasOf bucketMeta).map TensorMeta.chunkSize).sum = used

variable {d : Dict TensorMeta} {used : Nat} {m : TensorMeta}

theorem Packed.empty : Packed Dict.empty 0 where
  name := fun _ hp => by cases hp
  inside := fun _ hm => by cases hm
  total := rfl

theorem metasOf_insert {name : String}
    (h : name ∉ d.keys) : metasOf (d.insert name m) = metasOf d ++ [m] := by
  unfold metasOf
  rw [Dict.items_insert_of_notMem m h, map_append]
  rfl

section

variable (h : Packed d used)
include h

theorem Packed.insert (hname : m.name ∉ d.keys) :
    Packed (d.insert m.name { m with offset := some used }) (used + m.chunkSize) where
  name := by
    intro p hp
    rcases Dict.mem_items_insert hp with hp | rfl
    · exact h.name p hp
    · rfl
  inside := by
    intro m' hm'
    rw [metasOf_insert hname] at hm'
    rcases mem_append.1 hm' with hm' | hm'
    · obtain ⟨offset, hoffset, hle⟩ := h.inside m' hm'
      exact ⟨offset, hoffset, by omega⟩
    · grind
  total := by simp [metasOf_insert hname, h.total]

theorem Packed.names : (metasOf d).map TensorMeta.name = d.keys := by
  unfold metasOf
  rw [map_map]
  exact map_congr_left h.name

theorem Packed.nodup : ((metasOf d).map TensorMeta.name).Nodup := by
  rw [h.names]
  exact d.nodup

theorem Packed.chunkSize_le (hm : m ∈ metasOf d) : m.chunkSize ≤ used := by
  obtain ⟨offset, -, hle⟩ := h.inside m hm
  omega

/-- Writing behind what is packed appends a chunk to the bucket. -/
theorem readBucket_insert {c : Chunk} (hname : c.tensorMeta.name ∉ d.keys)
    (hoffset : c.tensorMeta.offset = none) {buf buf' : Buffer UInt8 bucketSize}
    (hwritten : buf'.slice used c.tensorMeta.chunkSize = c.data)
    (hkept : ∀ o k, o + k ≤ used → buf'.slice o k = buf.slice o k) :
    readBucket (metasOf (d.insert c.tensorMeta.name
        { c.tensorMeta with offset := some used })) buf' =
      readBucket (metasOf d) buf ++ [c] := by
  rw [metasOf_insert hname]
  unfold readBucket
  rw [map_append]
  congr 1
  · apply map_congr_left
    intro m hm
    obtain ⟨offset, hm, hle⟩ := h.inside m hm
    rw [hm, Option.getD_some, hkept offset m.chunkSize hle]
  · obtain ⟨⟨name, shape, chunkOffset, chunkSize, offset⟩, data⟩ := c
    cases hoffset
    exact congrArg
      (fun data => [Chunk.mk ⟨name, shape, chunkOffset, chunkSize, none⟩ data]) hwritten

end

/-! ## The chunks to be sent -/

/-- What the packing of a stream of chunks rests on. -/
structure ChunkStream (bucketSize : Nat) (chunks : List Chunk) : Prop where
  isChunk : ∀ c ∈ chunks, ∃ w, IsChunkOf bucketSize w c
  pairwise : chunks.Pairwise (FullIfSameName bucketSize)

theorem chunkStream_split (hpos : 0 < bucketSize) (ws : WeightList) :
    ChunkStream bucketSize (splitWeightChunks bucketSize ws.weights) where
  isChunk := fun c hc => by
    obtain ⟨w, -, hw⟩ := exists_isChunkOf hpos hc
    exact ⟨w, hw⟩
  pairwise := splitWeightChunks_pairwise hpos ws.nodup

/-! ## The sender -/

namespace Sender

def packed (s : Sender bucketSize n) : List Chunk :=
  readBucket (metasOf s.bucketMeta) (s.bufs s.sendBuf)

structure Inv (chunks : List Chunk) (s : Sender bucketSize n) : Prop where
  error : s.error = none
  bucket : Packed s.bucketMeta s.offset
  offset_le : s.offset ≤ bucketSize
  flushed : s.flushed = true → s.bucketMeta = Dict.empty ∧ s.offset = 0
  todo : s.packed ++ s.todo <:+ chunks
  lastPosted : s.lastPosted = true → s.todo = []
  /-- The other buffer is packed while one is sent. -/
  opBucket : ∀ op, s.broadcastOp = some op → s.lastPosted = false → op.bucket = !s.sendBuf
  opPacked : ∀ op, s.broadcastOp = some op →
    ∃ used ≤ bucketSize, Packed op.metadata.bucketMeta used

variable {chunks : List Chunk} {s : Sender bucketSize n}

theorem nextFits_eq_true (h : s.nextFits = some true) : ∃ c rest, s.todo = c :: rest ∧
      (s.flushed = true ∨ s.offset + c.tensorMeta.chunkSize ≤ bucketSize) := by
  unfold nextFits at h
  cases htodo : s.todo with
  | nil => rw [htodo] at h; cases h
  | cons c rest =>
    rw [htodo] at h
    have hfits := Option.some.inj h
    rw [Bool.or_eq_true, decide_eq_true_iff] at hfits
    exact ⟨c, rest, rfl, hfits⟩

theorem flushed_of_nextFits (h : s.nextFits = some false) : s.flushed = false := by
  unfold nextFits at h
  cases htodo : s.todo with
  | nil => rw [htodo] at h; cases h
  | cons c rest =>
    rw [htodo] at h
    have hfits := Option.some.inj h
    rw [Bool.or_eq_false_iff] at hfits
    exact hfits.1

section

variable (hchunks : ChunkStream bucketSize chunks) (h : s.Inv chunks) {c : Chunk}
include hchunks h

theorem Inv.of_mem_todo (hc : c ∈ s.todo) : ∃ w, IsChunkOf bucketSize w c :=
  hchunks.isChunk c (h.todo.subset (mem_append_right _ hc))

/-- A chunk of the same name would have filled the bucket. -/
theorem Inv.name_notMem (hc : c ∈ s.todo)
    (hfits : s.flushed = true ∨ s.offset + c.tensorMeta.chunkSize ≤ bucketSize) :
    c.tensorMeta.name ∉ s.bucketMeta.keys := by
  intro hname
  rcases hfits with hflushed | hfits
  · rw [(h.flushed hflushed).1] at hname
    cases hname
  · obtain ⟨w, hw⟩ := h.of_mem_todo hchunks hc
    rw [← h.bucket.names] at hname
    obtain ⟨m, hm, hmname⟩ := mem_map.1 hname
    have hpairwise := hchunks.pairwise.sublist h.todo.sublist
    have hfull := (pairwise_append.1 hpairwise).2.2 _ (mem_map_of_mem hm) c hc hmname
    have hfull : m.chunkSize = bucketSize := hfull
    have hused := h.bucket.chunkSize_le hm
    have hpos := hw.pos
    omega

/-- A chunk that fits goes behind the others: no assertion fails. -/
theorem Inv.pack_eq {rest : List Chunk} (htodo : s.todo = c :: rest)
    (hfits : s.flushed = true ∨ s.offset + c.tensorMeta.chunkSize ≤ bucketSize) :
    ∃ buf : Buffer UInt8 bucketSize,
      s.pack =
        { s with
          bucketMeta := s.bucketMeta.insert c.tensorMeta.name
            { c.tensorMeta with offset := some s.offset }
          bufs := update s.bufs s.sendBuf buf
          offset := s.offset + c.tensorMeta.chunkSize
          flushed := false
          todo := rest } ∧
      s.offset + c.tensorMeta.chunkSize ≤ bucketSize ∧
      buf.slice s.offset c.tensorMeta.chunkSize = c.data ∧
      ∀ o k, o + k ≤ s.offset → buf.slice o k = (s.bufs s.sendBuf).slice o k := by
  have hc : c ∈ s.todo := by rw [htodo]; exact mem_cons_self
  obtain ⟨w, hw⟩ := h.of_mem_todo hchunks hc
  have hle : s.offset + c.tensorMeta.chunkSize ≤ bucketSize := by
    rcases hfits with hflushed | hfits
    · have hsize := hw.le
      rw [(h.flushed hflushed).2]
      omega
    · exact hfits
  have hname := h.name_notMem hchunks hc hfits
  obtain ⟨buf, hassign, hwritten, hkept⟩ :=
    (s.bufs s.sendBuf).exists_assign hle hw.length
  refine ⟨buf, ?_, hle, hwritten, hkept⟩
  unfold pack store
  simp only [htodo, hassign, hle, hname, decide_true, decide_false, Bool.not_false, pyAssert_true,
    ok_bind]

end

/-- What packing changes: the chunk at hand moves into the bucket, the other buffer stays. -/
structure Packs (s : Sender bucketSize n) (c : Chunk) (s' : Sender bucketSize n) : Prop where
  packed : s'.packed = s.packed ++ [c]
  todo : s.todo = c :: s'.todo
  op : s'.broadcastOp = s.broadcastOp
  sendBuf : s'.sendBuf = s.sendBuf
  lastPosted : s'.lastPosted = s.lastPosted
  other : s'.bufs (!s.sendBuf) = s.bufs (!s.sendBuf)

theorem Inv.pack (hchunks : ChunkStream bucketSize chunks) (h : s.Inv chunks)
    (hfits : s.nextFits = some true) : s.pack.Inv chunks ∧ ∃ c, s.Packs c s.pack := by
  obtain ⟨c, rest, htodo, hfits⟩ := nextFits_eq_true hfits
  have hc : c ∈ s.todo := by rw [htodo]; exact mem_cons_self
  obtain ⟨w, hw⟩ := h.of_mem_todo hchunks hc
  have hname := h.name_notMem hchunks hc hfits
  obtain ⟨buf, hpack, hle, hwritten, hkept⟩ := h.pack_eq hchunks htodo hfits
  rw [hpack]
  have hpacked : readBucket (metasOf (s.bucketMeta.insert c.tensorMeta.name
      { c.tensorMeta with offset := some s.offset })) (update s.bufs s.sendBuf buf s.sendBuf) =
        s.packed ++ [c] := by
    rw [update_self]
    exact readBucket_insert h.bucket hname hw.offset hwritten hkept
  constructor
  · exact
      { h with
        bucket := h.bucket.insert hname
        offset_le := hle
        flushed := fun hflushed => by cases hflushed
        todo := by
          show readBucket _ _ ++ rest <:+ chunks
          rw [hpacked, append_assoc, singleton_append, ← htodo]
          exact h.todo
        lastPosted := fun hlast => by rw [h.lastPosted hlast] at htodo; cases htodo }
  · refine ⟨c, hpacked, htodo, rfl, rfl, rfl, ?_⟩
    exact update_of_ne (Bool.not_ne_self _) buf s.bufs

theorem Inv.flush (h : s.Inv chunks) : s.flush.Inv chunks where
  error := h.error
  bucket := Packed.empty
  offset_le := Nat.zero_le _
  flushed := fun _ => ⟨rfl, rfl⟩
  todo := (suffix_append s.packed s.todo).trans h.todo
  lastPosted := h.lastPosted
  opBucket := by
    intro op hop _
    cases hop
    exact (Bool.not_not _).symm
  opPacked := by
    intro op hop
    cases hop
    exact ⟨s.offset, h.offset_le, h.bucket⟩

theorem Inv.last (h : s.Inv chunks) (hfits : s.nextFits = none) :
    Inv chunks { s.post true with lastPosted := true } :=
  { h with
    lastPosted := fun _ => head?_eq_none_iff.1 (Option.map_eq_none_iff.1 hfits)
    opBucket := fun _ _ hlast => by cases hlast
    opPacked := by
      intro op hop
      cases hop
      exact ⟨s.offset, h.offset_le, h.bucket⟩ }

theorem Inv.progress (h : s.Inv chunks) {op op' : SendOp n} (hop : s.broadcastOp = some op)
    (hbucket : op'.bucket = op.bucket) (hmetadata : op'.metadata = op.metadata) :
    Inv chunks { s with broadcastOp := some op' } :=
  { h with
    opBucket := by
      intro o ho hlast
      cases ho
      rw [hbucket]
      exact h.opBucket op hop hlast
    opPacked := by
      intro o ho
      cases ho
      rw [hmetadata]
      exact h.opPacked op hop }

/-! What of the sender the receivers depend on. -/

/-- The metadata of the current operation that are not yet on their way. -/
def unsentMeta (s : Sender bucketSize n) : List Metadata :=
  match s.broadcastOp with
  | none => []
  | some op => if op.metaSent then [] else [op.metadata]

/-- The bucket of the current operation, if it is not yet on its way to `i`. -/
def unsentData (s : Sender bucketSize n) (i : Fin n) : List (Buffer UInt8 bucketSize) :=
  match s.broadcastOp with
  | none => []
  | some op => if op.sent i then [] else [s.bufs op.bucket]

/-- The chunks that are in no operation yet. -/
def unposted (s : Sender bucketSize n) : List Chunk :=
  if s.lastPosted then [] else s.packed

/-- `is_last`, once it is posted. -/
def endFlag (s : Sender bucketSize n) : List Bool := if s.lastPosted then [true] else []

theorem unsentMeta_of_idle (h : s.Idle) : s.unsentMeta = [] := by
  unfold unsentMeta
  cases hop : s.broadcastOp with
  | none => rfl
  | some op => exact if_pos (h op hop).1

theorem unsentData_of_idle (h : s.Idle) (i : Fin n) : s.unsentData i = [] := by
  unfold unsentData
  cases hop : s.broadcastOp with
  | none => rfl
  | some op => exact if_pos ((h op hop).2 i)

/-- A chunk is at hand, so the last bucket is not yet posted. -/
theorem Inv.lastPosted_eq_false (h : s.Inv chunks) (htodo : s.todo ≠ []) :
    s.lastPosted = false := by
  cases hlast : s.lastPosted with
  | false => rfl
  | true => exact absurd (h.lastPosted hlast) htodo

end Sender

/-! ## From the sender to one receiver -/

/-- A posted bucket. -/
structure Message (bucketSize : Nat) where
  metadata : Metadata
  data : Buffer UInt8 bucketSize

def Message.chunks (m : Message bucketSize) : List Chunk :=
  readBucket (metasOf m.metadata.bucketMeta) m.data

namespace Receiver

/-- The metadata that wait for their bucket. -/
def awaited (r : Receiver bucketSize) : List Metadata :=
  match r.broadcastOp with
  | none => []
  | some op => if op.received then [] else op.metadata.toList

/-- The message that the coroutine has still to take. -/
def arrived (r : Receiver bucketSize) : List (Message bucketSize) :=
  match r.broadcastOp with
  | none => []
  | some op =>
    if op.received then op.metadata.toList.map fun m => ⟨m, r.bufs op.bucket⟩ else []

/-- `is_last`, once the coroutine has seen it. -/
def endFlag (r : Receiver bucketSize) : List Bool := if r.broadcastOp.isNone then [true] else []

/-- The chunks still to be read. -/
def unread (r : Receiver bucketSize) : List Chunk := readBucket r.yielding (r.bufs r.sendBuf)

variable {r : Receiver bucketSize}

theorem eq_of_awaitsMeta (h : r.awaitsMeta = true) :
    ∃ bucket received, r.broadcastOp = some ⟨bucket, none, received⟩ := by
  obtain ⟨⟨bucket, metadata, received⟩, hop, hnone⟩ := (Option.any_eq_true _ _).1 h
  cases metadata with
  | none => exact ⟨bucket, received, hop⟩
  | some => cases hnone

theorem eq_of_awaitsData (h : r.awaitsData = true) :
    ∃ bucket metadata, r.broadcastOp = some ⟨bucket, some metadata, false⟩ := by
  obtain ⟨⟨bucket, metadata, received⟩, hop, hwaits⟩ := (Option.any_eq_true _ _).1 h
  cases metadata with
  | none => cases hwaits
  | some metadata =>
    cases received with
    | true => cases hwaits
    | false => exact ⟨bucket, metadata, hop⟩

theorem eq_of_hasReceived (h : r.hasReceived = true) :
    ∃ bucket metadata, r.broadcastOp = some ⟨bucket, metadata, true⟩ := by
  obtain ⟨⟨bucket, metadata, received⟩, hop, hreceived⟩ := (Option.any_eq_true _ _).1 h
  cases received with
  | true => exact ⟨bucket, metadata, hop⟩
  | false => cases hreceived

theorem awaited_of_awaitsMeta (h : r.awaitsMeta = true) : r.awaited = [] ∧ r.arrived = [] := by
  obtain ⟨bucket, received, hop⟩ := r.eq_of_awaitsMeta h
  unfold awaited arrived
  rw [hop]
  cases received with
  | false => exact ⟨rfl, rfl⟩
  | true => exact ⟨rfl, rfl⟩

end Receiver

/-- What holds between the sender and receiver `i`; `msgs` are the messages under way. -/
structure LinkInv (chunks : List Chunk) (s : Sender bucketSize n) (i : Fin n)
    (r : Receiver bucketSize) (msgs : List (Message bucketSize)) : Prop where
  metas : r.awaited ++ r.metas ++ s.unsentMeta = msgs.map Message.metadata
  datas : r.datas ++ s.unsentData i = msgs.map Message.data
  /-- No chunk is lost, no chunk comes twice, and their order is kept. -/
  stream : r.yielded.map Chunk.unplaced ++ r.unread ++ (r.arrived ++ msgs).flatMap Message.chunks ++
    s.unposted ++ s.todo = chunks
  flags : ∃ k, r.endFlag ++ (r.arrived ++ msgs).map (fun m => m.metadata.isLast) =
    List.replicate k false ++ s.endFlag
  packed : ∀ m ∈ r.arrived ++ msgs, ∃ used ≤ bucketSize, Packed m.metadata.bucketMeta used
  yielding : ∀ m ∈ r.yielding, ∃ offset, m.offset = some offset
  /-- The buffer that is read is not the one that is received into. -/
  opBucket : ∀ op, r.broadcastOp = some op → op.bucket = !r.sendBuf
  opMeta : ∀ op, r.broadcastOp = some op → op.received = true → op.metadata.isSome = true
  error : r.error = none

namespace LinkInv

variable {chunks : List Chunk} {s s' : Sender bucketSize n} {i : Fin n} {r : Receiver bucketSize}
  {msgs : List (Message bucketSize)}

/-- A step of the sender or of its broadcast that posts nothing: a message may move from the
operation onto the queues. -/
theorem transmit (h : LinkInv chunks s i r msgs) {metas : List Metadata}
    {datas : List (Buffer UInt8 bucketSize)}
    (hmeta : metas ++ s'.unsentMeta = r.metas ++ s.unsentMeta)
    (hdata : datas ++ s'.unsentData i = r.datas ++ s.unsentData i)
    (hstream : s'.unposted ++ s'.todo = s.unposted ++ s.todo) (hflag : s'.endFlag = s.endFlag) :
    LinkInv chunks s' i { r with metas := metas, datas := datas } msgs :=
  { h with
    metas := by
      rw [append_assoc, hmeta, ← append_assoc]
      exact h.metas
    datas := hdata.trans h.datas
    stream := by
      rw [append_assoc, hstream, ← append_assoc]
      exact h.stream
    flags := by rw [hflag]; exact h.flags }

theorem post (h : LinkInv chunks s i r msgs) (hinv : s.Inv chunks) (hidle : s.Idle)
    (hposted : s.lastPosted = false) (isLast : Bool)
    (hop : s'.broadcastOp = (s.post isLast).broadcastOp)
    (hbufs : s'.bufs = s.bufs) (htodo : s'.todo = s.todo) (hunposted : s'.unposted = [])
    (hflag : s'.endFlag = if isLast then [true] else []) :
    LinkInv chunks s' i r
      (msgs ++ [⟨⟨s.bucketMeta, isLast⟩, s.bufs s.sendBuf⟩]) where
  metas := by
    have hmeta : s'.unsentMeta = [⟨s.bucketMeta, isLast⟩] := by
      unfold Sender.unsentMeta
      rw [hop]
      rfl
    have hmetas := h.metas
    rw [Sender.unsentMeta_of_idle hidle, append_nil] at hmetas
    rw [hmeta, hmetas, map_append]
    rfl
  datas := by
    have hdata : s'.unsentData i = [s.bufs s.sendBuf] := by
      unfold Sender.unsentData
      rw [hop, hbufs]
      rfl
    have hdatas := h.datas
    rw [Sender.unsentData_of_idle hidle, append_nil] at hdatas
    rw [hdata, hdatas, map_append]
    rfl
  stream := by
    have hstream := h.stream
    have hpacked : s.unposted = s.packed := if_neg (by rw [hposted]; exact Bool.false_ne_true)
    rw [hpacked] at hstream
    rw [hunposted, htodo, ← append_assoc r.arrived, flatMap_append, append_nil,
      flatMap_singleton, ← append_assoc]
    exact hstream
  flags := by
    obtain ⟨k, hk⟩ := h.flags
    have hflags : s.endFlag = [] := if_neg (by rw [hposted]; exact Bool.false_ne_true)
    rw [hflags, append_nil] at hk
    rw [← append_assoc r.arrived, map_append, ← append_assoc, hk, hflag]
    cases isLast with
    | true => exact ⟨k, rfl⟩
    | false => exact ⟨k + 1, by rw [replicate_succ', append_assoc]; rfl⟩
  packed := by
    intro m hm
    rw [← append_assoc] at hm
    rcases mem_append.1 hm with hm | hm
    · exact h.packed m hm
    · cases mem_singleton.1 hm
      exact ⟨s.offset, hinv.offset_le, hinv.bucket⟩
  yielding := h.yielding
  opBucket := h.opBucket
  opMeta := h.opMeta
  error := h.error

/-! The steps of the receiver. -/

section

variable (h : LinkInv chunks s i r msgs)
include h

theorem recvMeta (hawaits : r.awaitsMeta = true)
    (hmetas : r.metas.isEmpty = false) : LinkInv chunks s i r.recvMeta msgs := by
  obtain ⟨bucket, received, hop⟩ := r.eq_of_awaitsMeta hawaits
  have hreceived : received = false := by
    cases received with
    | false => rfl
    | true => exact absurd (h.opMeta _ hop rfl) Bool.false_ne_true
  obtain ⟨bufs, sendBuf, op, yielding, yielded, metas, datas, error⟩ := r
  subst hop hreceived
  cases metas with
  | nil => cases hmetas
  | cons metadata metas =>
    exact
      { h with
        opBucket := fun op hop => by cases hop; exact h.opBucket ⟨bucket, none, false⟩ rfl
        opMeta := fun op hop _ => by cases hop; rfl }

theorem recvData (hawaits : r.awaitsData = true)
    (hdatas : r.datas.isEmpty = false) : ∃ msgs', LinkInv chunks s i r.recvData msgs' := by
  obtain ⟨bucket, metadata, hop⟩ := r.eq_of_awaitsData hawaits
  obtain ⟨bufs, sendBuf, op, yielding, yielded, metas, datas, error⟩ := r
  dsimp only at hop
  subst hop
  have hbucket : bucket = !sendBuf := h.opBucket _ rfl
  cases datas with
  | nil => cases hdatas
  | cons data datas =>
    -- the metadata that wait and the bucket that comes in are the oldest message
    cases msgs with
    | nil => exact absurd h.datas (cons_ne_nil _ _)
    | cons m msgs =>
      obtain ⟨md, d⟩ := m
      have hmetas : metadata :: (metas ++ s.unsentMeta) = md :: msgs.map Message.metadata := h.metas
      have hdatas : data :: (datas ++ s.unsentData i) = d :: msgs.map Message.data := h.datas
      have hmd : metadata = md := (List.cons.inj hmetas).1
      have hd : data = d := (List.cons.inj hdatas).1
      subst hmd hd
      have harrived : (Receiver.recvData ⟨bufs, sendBuf, some ⟨bucket, some metadata, false⟩,
          yielding, yielded, metas, data :: datas, error⟩).arrived = [⟨metadata, data⟩] := by
        show [Message.mk metadata (update bufs bucket data bucket)] = _
        rw [update_self]
      have hunread : (Receiver.recvData ⟨bufs, sendBuf, some ⟨bucket, some metadata, false⟩,
          yielding, yielded, metas, data :: datas, error⟩).unread =
            readBucket yielding (bufs sendBuf) := by
        show readBucket yielding (update bufs bucket data sendBuf) = _
        rw [update_of_ne (by rw [hbucket]; exact (Bool.not_ne_self sendBuf).symm)]
      exact ⟨msgs,
        { h with
          metas := (List.cons.inj hmetas).2
          datas := (List.cons.inj hdatas).2
          stream := by rw [hunread, harrived]; exact h.stream
          flags := by rw [harrived]; exact h.flags
          packed := by rw [harrived]; exact h.packed
          opBucket := fun op hop => by cases hop; exact hbucket
          opMeta := fun op hop _ => by cases hop; rfl }⟩

/-- The bucket that has arrived becomes the one to read. -/
theorem advance (hreceived : r.hasReceived = true)
    (hread : r.yielding.isEmpty = true) : LinkInv chunks s i r.advance msgs := by
  obtain ⟨bucket, metadata, hop⟩ := r.eq_of_hasReceived hreceived
  have hsome := h.opMeta _ hop rfl
  obtain ⟨bufs, sendBuf, op, yielding, yielded, metas, datas, error⟩ := r
  dsimp only at hop hread
  subst hop
  have hbucket : bucket = !sendBuf := h.opBucket _ rfl
  obtain rfl := isEmpty_iff.1 hread
  cases metadata with
  | none => cases hsome
  | some metadata =>
    subst hbucket
    obtain ⟨used, -, hpacked⟩ := h.packed ⟨metadata, bufs (!sendBuf)⟩ mem_cons_self
    have hyielding : ∀ m ∈ metasOf metadata.bucketMeta, ∃ offset, m.offset = some offset := by
      intro m hm
      obtain ⟨offset, hoffset, -⟩ := hpacked.inside m hm
      exact ⟨offset, hoffset⟩
    have hstream : yielded.map Chunk.unplaced ++
        readBucket (metasOf metadata.bucketMeta) (bufs (!sendBuf)) ++ msgs.flatMap Message.chunks ++
          s.unposted ++ s.todo = chunks := by
      refine Eq.trans ?_ h.stream
      show _ = yielded.map Chunk.unplaced ++ [] ++
        (Message.chunks ⟨metadata, bufs (!sendBuf)⟩ ++ msgs.flatMap Message.chunks) ++ _ ++ _
      rw [append_nil, ← append_assoc (yielded.map _)]
      rfl
    have hrest : ∀ m ∈ msgs, ∃ used ≤ bucketSize, Packed m.metadata.bucketMeta used :=
      fun m hm => h.packed m (mem_cons_of_mem _ hm)
    obtain ⟨k, hk⟩ := h.flags
    have hk : metadata.isLast :: msgs.map (fun m => m.metadata.isLast) =
      replicate k false ++ s.endFlag := hk
    have hadvance : Receiver.advance ⟨bufs, sendBuf, some ⟨!sendBuf, some metadata, true⟩, [], yielded,
        metas, datas, error⟩ = ⟨bufs, !sendBuf, if metadata.isLast then none else
          some (Receiver.nextOp sendBuf), metasOf metadata.bucketMeta, yielded, metas, datas, error⟩ :=
      rfl
    rw [hadvance]
    cases hlast : metadata.isLast with
    | true =>
      rw [hlast] at hk
      exact
        { h with
          stream := hstream
          flags := ⟨k, hk⟩
          packed := hrest
          yielding := hyielding
          opBucket := fun op hop => by cases hop
          opMeta := fun op hop => by cases hop }
    | false =>
      rw [hlast] at hk
      have hflags : ∃ k, msgs.map (fun m => m.metadata.isLast) =
          replicate k false ++ s.endFlag := by
        cases k with
        | zero =>
          -- the list would start with the flag of the last bucket
          unfold Sender.endFlag at hk
          cases hposted : s.lastPosted <;> rw [hposted] at hk <;> cases hk
        | succ k => exact ⟨k, (List.cons.inj hk).2⟩
      exact
        { h with
          stream := hstream
          flags := hflags
          packed := hrest
          yielding := hyielding
          opBucket := fun op hop => by cases hop; exact (Bool.not_not sendBuf).symm
          opMeta := fun op hop hreceived => by cases hop; cases hreceived }

theorem yield : LinkInv chunks s i r.yield msgs := by
  obtain ⟨bufs, sendBuf, op, yielding, yielded, metas, datas, error⟩ := r
  cases yielding with
  | nil => exact h
  | cons m rest =>
    obtain ⟨name, shape, chunkOffset, chunkSize, offset⟩ := m
    obtain ⟨offset, hoffset⟩ := h.yielding _ mem_cons_self
    cases hoffset
    exact
      { h with
        stream := by
          refine Eq.trans ?_ h.stream
          show (yielded ++ [_]).map Chunk.unplaced ++ _ ++ _ ++ _ ++ _ = _
          rw [map_append, append_assoc (yielded.map _)]
          rfl
        yielding := fun m hm => h.yielding m (mem_cons_of_mem _ hm) }

/-- Nothing is under way to a receiver that has seen the last bucket. -/
theorem msgs_of_returned (hop : r.broadcastOp = none) : r.arrived = [] ∧ msgs = [] := by
  have harrived : r.arrived = [] := by
    unfold Receiver.arrived
    rw [hop]
  refine ⟨harrived, ?_⟩
  obtain ⟨k, hk⟩ := h.flags
  have hflag : r.endFlag = [true] := by
    unfold Receiver.endFlag
    rw [hop]
    rfl
  rw [hflag, harrived] at hk
  unfold Sender.endFlag at hk
  cases k with
  | zero =>
    cases hposted : s.lastPosted with
    | false => rw [hposted] at hk; cases hk
    | true =>
      rw [hposted] at hk
      exact map_eq_nil_iff.1 (List.cons.inj hk).2
  | succ k => cases (List.cons.inj hk).1

end

end LinkInv

/-! ## Every reachable state -/

structure State.Inv (chunks : List Chunk) (s : State bucketSize n) : Prop where
  sender : s.sender.Inv chunks
  link : ∀ i, ∃ msgs, LinkInv chunks s.sender i (s.receivers i) msgs

namespace State

variable {chunks : List Chunk} {s : State bucketSize n}

theorem inv_initial (bucketSize n : Nat) (weights : List Weight) :
    (initial bucketSize n weights).Inv (splitWeightChunks bucketSize weights) where
  sender :=
    { error := rfl
      bucket := Packed.empty
      offset_le := Nat.zero_le _
      flushed := fun h => by cases h
      todo := suffix_refl _
      lastPosted := fun h => by cases h
      opBucket := fun _ h => by cases h
      opPacked := fun _ h => by cases h }
  link := fun i => ⟨[],
    { metas := rfl
      datas := rfl
      stream := rfl
      flags := ⟨0, rfl⟩
      packed := fun _ h => by cases h
      yielding := fun _ h => by cases h
      opBucket := fun op hop => by cases hop; rfl
      opMeta := fun op hop h => by cases hop; cases h
      error := rfl }⟩

theorem Inv.pack (hchunks : ChunkStream bucketSize chunks) (h : s.Inv chunks)
    (hfits : s.sender.nextFits = some true) : Inv chunks { s with sender := s.sender.pack } := by
  obtain ⟨hsender, c, hpacks⟩ := h.sender.pack hchunks hfits
  refine ⟨hsender, fun i => ?_⟩
  obtain ⟨msgs, hlink⟩ := h.link i
  have hlast : s.sender.lastPosted = false :=
    h.sender.lastPosted_eq_false (by rw [hpacks.todo]; exact cons_ne_nil _ _)
  refine ⟨msgs, hlink.transmit ?_ ?_ ?_ ?_⟩
  · unfold Sender.unsentMeta
    rw [hpacks.op]
  · -- the buffer of the operation is not the one that is packed
    unfold Sender.unsentData
    rw [hpacks.op]
    cases hop : s.sender.broadcastOp with
    | none => rfl
    | some op =>
      have hbuf : s.sender.pack.bufs op.bucket = s.sender.bufs op.bucket := by
        rw [h.sender.opBucket op hop hlast]
        exact hpacks.other
      dsimp only
      rw [hbuf]
  · unfold Sender.unposted
    rw [hpacks.lastPosted, hlast, hpacks.packed, hpacks.todo]
    show (_ ++ [c]) ++ _ = _
    rw [append_assoc]
    rfl
  · unfold Sender.endFlag
    rw [hpacks.lastPosted]

section

variable (h : s.Inv chunks)
include h

theorem Inv.flush (hfits : s.sender.nextFits = some false)
    (hidle : s.sender.Idle) : Inv chunks { s with sender := s.sender.flush } := by
  refine ⟨h.sender.flush, fun i => ?_⟩
  obtain ⟨msgs, hlink⟩ := h.link i
  have htodo : s.sender.todo ≠ [] := by
    intro hnil
    unfold Sender.nextFits at hfits
    rw [hnil] at hfits
    cases hfits
  have hlast := h.sender.lastPosted_eq_false htodo
  refine ⟨_, hlink.post h.sender hidle hlast false rfl rfl rfl ?_ ?_⟩
  · show (if s.sender.lastPosted then [] else []) = []
    rw [ite_self]
  · show (if s.sender.lastPosted then [true] else []) = _
    rw [hlast]

theorem Inv.last (hfits : s.sender.nextFits = none)
    (hlast : s.sender.lastPosted = false) (hidle : s.sender.Idle) :
    Inv chunks { s with sender := { s.sender.post true with lastPosted := true } } := by
  refine ⟨h.sender.last hfits, fun i => ?_⟩
  obtain ⟨msgs, hlink⟩ := h.link i
  exact ⟨_, hlink.post h.sender hidle hlast true rfl rfl rfl rfl rfl⟩

theorem Inv.sendMeta (hguard : s.sender.broadcastOp.any (fun op => !op.metaSent) = true) :
    s.sendMeta.Inv chunks := by
  obtain ⟨op, hop, hmeta⟩ := (Option.any_eq_true _ _).1 hguard
  have hmeta : op.metaSent = false := by rw [← Bool.not_eq_true']; exact hmeta
  unfold State.sendMeta
  rw [hop]
  refine ⟨h.sender.progress hop rfl rfl, fun i => ?_⟩
  obtain ⟨msgs, hlink⟩ := h.link i
  refine ⟨msgs, hlink.transmit ?_ ?_ rfl rfl⟩
  · unfold Sender.unsentMeta
    rw [hop]
    dsimp only
    rw [hmeta, if_pos rfl, append_nil]
    rfl
  · unfold Sender.unsentData
    rw [hop]

theorem Inv.send {j : Fin n}
    (hguard : s.sender.broadcastOp.any (fun op => op.metaSent && !op.sent j) = true) :
    (s.send j).Inv chunks := by
  obtain ⟨op, hop, hsent⟩ := (Option.any_eq_true _ _).1 hguard
  rw [Bool.and_eq_true, Bool.not_eq_true'] at hsent
  unfold State.send
  rw [hop]
  refine ⟨h.sender.progress hop rfl rfl, fun i => ?_⟩
  obtain ⟨msgs, hlink⟩ := h.link i
  have hmeta : Sender.unsentMeta
      { s.sender with broadcastOp := some { op with sent := update op.sent j true } } =
        s.sender.unsentMeta := by
    unfold Sender.unsentMeta
    rw [hop]
  dsimp only
  by_cases hij : i = j
  · subst hij
    rw [update_self]
    refine ⟨msgs, hlink.transmit (by rw [hmeta]) ?_ rfl rfl⟩
    unfold Sender.unsentData
    rw [hop]
    simp only [update_self, hsent.2, if_true, append_nil, Bool.false_eq_true, if_false]
  · rw [update_of_ne hij]
    refine ⟨msgs, hlink.transmit (by rw [hmeta]) ?_ rfl rfl⟩
    unfold Sender.unsentData
    rw [hop]
    simp only [update_of_ne hij]

theorem Inv.onReceiver (j : Fin n) (f : Receiver bucketSize → Receiver bucketSize)
    (hf : ∀ msgs, LinkInv chunks s.sender j (s.receivers j) msgs →
      ∃ msgs', LinkInv chunks s.sender j (f (s.receivers j)) msgs') :
    (s.onReceiver j f).Inv chunks where
  sender := h.sender
  link := by
    intro i
    obtain ⟨msgs, hlink⟩ := h.link i
    show ∃ msgs, LinkInv chunks s.sender i (update s.receivers j (f (s.receivers j)) i) msgs
    by_cases hij : i = j
    · grind
    · grind

end

theorem Inv.step {eager : Bool} (hchunks : ChunkStream bucketSize chunks) (h : s.Inv chunks)
    (a : Action n) (hguard : (broadcast eager a).guard s) :
    ((broadcast eager a).effect s).Inv chunks := by
  cases a with
  | pack => exact h.pack hchunks hguard.2
  | flush => exact h.flush hguard.2.1 hguard.2.2
  | last => exact h.last hguard.2.1 hguard.2.2.1 hguard.2.2.2
  | sendMeta => exact h.sendMeta hguard
  | send i => exact h.send hguard.1
  | recvMeta i =>
    exact h.onReceiver i _ fun msgs hlink => ⟨msgs, hlink.recvMeta hguard.1 hguard.2⟩
  | recvData i => exact h.onReceiver i _ fun msgs hlink => hlink.recvData hguard.1 hguard.2
  | advance i =>
    exact h.onReceiver i _ fun msgs hlink => ⟨msgs, hlink.advance hguard.2.1 hguard.2.2⟩
  | yield i => exact h.onReceiver i _ fun msgs hlink => ⟨msgs, hlink.yield⟩

end State

end Verl.CheckpointEngine
