import Verl.CheckpointEngine.TypedMerge

/-! # What arrives of weights with a dtype

Both senders fill a bucket as long as the next item fits, so they cut what they send in the one
greedy way, and the offset of an item is the size of what is before it.

* `Sender.exists_run`: the NCCL engine; every chunk arrives, at its place.
* `BucketSender.exists_run`: the bucketed sender; a weight larger than a bucket is sent itself. -/

namespace Verl.TypedWeights

open List

open CheckpointEngine (Merge Uninitialized ChunkStream)

variable {bucketSize : Nat}

/-! ## `NCCLCheckpointEngine` -/

def Chunk.placed (c : Chunk) (offset : Nat) : Chunk :=
  { c with tensorMeta := { c.tensorMeta with offset := some offset } }

/-- The chunks of a bucket and their places, as they are received. -/
def placedPart (part : List Chunk) : List (Chunk × Nat) :=
  (places Chunk.size 0 part).map fun p => (p.1.placed p.2, p.2)

theorem map_unplaced_placed (parts : List (List Chunk)) :
    (parts.flatMap placedPart).map (fun p => p.1.unplaced) =
      parts.flatten.map Chunk.unplaced := by
  rw [map_flatMap, map_flatten]
  refine congrArg flatten (map_congr_left fun part _ => ?_)
  conv => rhs; rw [← map_fst_places Chunk.size 0 part, map_map]
  unfold placedPart
  rw [map_map]
  rfl

namespace Sender

/-- The bucket that is filled holds the chunks. -/
structure Holds (g : List Chunk) (s : Sender bucketSize) : Prop where
  filled : Filled Chunk.size Chunk.data s.sendBuf g s.offset
  items : s.bucketMeta.items =
    (places Chunk.size 0 g).map fun p => (p.1.tensorMeta.name, (p.1.placed p.2).tensorMeta)

variable {g : List Chunk} {s : Sender bucketSize}

theorem holds_flush (s : Sender bucketSize) : s.flush.Holds [] where
  filled := Filled.nil
  items := rfl

theorem Holds.keys (h : s.Holds g) : s.bucketMeta.keys = g.map fun c => c.tensorMeta.name := by
  unfold Dict.keys
  rw [h.items, map_map]
  conv => rhs; rw [← map_fst_places Chunk.size 0 g, map_map]
  rfl

/-- What a receiver reads of the bucket. -/
theorem Holds.chunks (h : s.Holds g) (isLast : Bool) :
    Message.chunks ⟨s.bucketMeta, s.sendBuf, isLast⟩ = placedPart g := by
  unfold Message.chunks
  rw [h.items, map_map]
  refine map_congr_left fun p hp => ?_
  exact congrArg (fun data => (Chunk.mk (p.1.placed p.2).tensorMeta data, p.2)) (h.filled.slice hp)

theorem Holds.store (h : s.Holds g) {c : Chunk} (hlength : c.data.length = c.size)
    (hfits : s.offset + c.size ≤ bucketSize)
    (hname : c.tensorMeta.name ∉ g.map fun d => d.tensorMeta.name) :
    ∃ s', s.store c = .ok s' ∧ s'.Holds (g ++ [c]) ∧ s'.posted = s.posted := by
  obtain ⟨buf, hassign, hfilled⟩ := h.filled.assign hlength hfits
  rw [← h.keys] at hname
  refine ⟨{ s with
    sendBuf := buf
    bucketMeta := s.bucketMeta.insert c.tensorMeta.name (c.placed s.offset).tensorMeta
    offset := s.offset + c.size }, ?_, ⟨hfilled, ?_⟩, rfl⟩
  · have hfits' : s.offset + c.tensorMeta.chunkSize ≤ bucketSize := hfits
    have hassign' : s.sendBuf.assign s.offset c.tensorMeta.chunkSize c.data = some buf := hassign
    have hfresh : s.bucketMeta.keys.contains c.tensorMeta.name = false :=
      Bool.eq_false_iff.2 fun hmem => hname (contains_iff_mem.1 hmem)
    unfold Sender.store
    dsimp only
    rw [decide_eq_true hfits', hfresh, hassign']
    rfl
  · dsimp only
    rw [Dict.items_insert_of_notMem _ hname, h.items, places_append, map_append, Nat.zero_add,
      ← h.filled.offset_eq]
    rfl

/-- The chunks so far: those of the buckets that were broadcast, then those of the open one. -/
structure Inv (done : List Chunk) (parts : List (List Chunk)) (g : List Chunk)
    (s : Sender bucketSize) : Prop where
  done_eq : parts.flatten ++ g = done
  cut : IsGreedyCut Chunk.size bucketSize (withOpen parts g)
  holds : s.Holds g
  posted : s.posted.flatMap Message.chunks = parts.flatMap placedPart
  opened : g = [] → parts = []

variable {done : List Chunk} {parts : List (List Chunk)}

section

variable (h : s.Inv done parts g) {c : Chunk}
  (hstream : ChunkStream bucketSize ((done ++ [c]).map Chunk.asBytes))
include h hstream

/-- A chunk of the same name would have filled the bucket. -/
theorem Inv.name_notMem (hfits : s.offset + c.size ≤ bucketSize) :
    c.tensorMeta.name ∉ g.map fun d => d.tensorMeta.name := by
  intro hname
  obtain ⟨d, hd, hdname⟩ := mem_map.1 hname
  have hdone : d ∈ done := by
    rw [← h.done_eq]
    exact mem_append_right _ hd
  have hpairwise := pairwise_map.1 hstream.pairwise
  have hfull : d.size = bucketSize :=
    (pairwise_append.1 hpairwise).2.2 d hdone c (mem_singleton_self c) hdname
  have hused : d.size ≤ s.offset := by
    rw [h.holds.filled.offset_eq]
    exact single_le_sum (fun _ _ => Nat.zero_le _) _ (mem_map_of_mem hd)
  obtain ⟨w, hw⟩ := hstream.isChunk c.asBytes
    (mem_map_of_mem (mem_append_right _ (mem_singleton_self c)))
  have hpos : 0 < c.size := hw.pos
  omega

theorem Inv.step : ∃ s' parts' g', s.step c = .ok s' ∧ s'.Inv (done ++ [c]) parts' g' := by
  obtain ⟨w, hw⟩ := hstream.isChunk c.asBytes
    (mem_map_of_mem (mem_append_right _ (mem_singleton_self c)))
  have hlength : c.data.length = c.size := hw.length
  have hle : c.size ≤ bucketSize := hw.le
  unfold Sender.step
  split
  case isTrue hover =>
    -- there are chunks in the bucket, else this one would fit
    have hover : bucketSize < s.offset + c.size := hover
    have hg : g ≠ [] := by
      rintro rfl
      rw [h.holds.filled.offset_eq, map_nil, sum_nil] at hover
      omega
    obtain ⟨s', hstore, hholds, hposted⟩ := (holds_flush s).store hlength
      (by show 0 + c.size ≤ bucketSize; omega) not_mem_nil
    refine ⟨s', parts ++ [g], [c], hstore, ?_⟩
    have hcut := h.cut
    unfold withOpen at hcut
    rw [if_neg hg] at hcut
    exact
      { done_eq := by rw [flatten_append, flatten_singleton, h.done_eq]
        cut := hcut.append_part fun part hpart => by
          rw [getLast?_concat] at hpart
          rw [← Option.some.inj hpart, ← h.holds.filled.offset_eq]
          exact hover
        holds := hholds
        posted := by
          rw [hposted]
          show (s.posted ++ [_]).flatMap Message.chunks = _
          rw [flatMap_append, flatMap_append, h.posted, flatMap_singleton,
            flatMap_singleton, h.holds.chunks]
        opened := fun hnil => by cases hnil }
  case isFalse hroom =>
    have hroom : s.offset + c.size ≤ bucketSize := Nat.not_lt.1 hroom
    obtain ⟨s', hstore, hholds, hposted⟩ :=
      h.holds.store hlength hroom (h.name_notMem hstream hroom)
    refine ⟨s', parts, g ++ [c], hstore, ?_⟩
    exact
      { done_eq := by rw [← append_assoc, h.done_eq]
        cut := h.cut.withOpen_item (by rw [← h.holds.filled.offset_eq]; exact hroom)
          fun hnil part hpart => by
            rw [h.opened hnil] at hpart
            cases hpart
        holds := hholds
        posted := by rw [hposted, h.posted]
        opened := fun hnil => absurd hnil (by simp) }

end

theorem Inv.run (h : s.Inv done parts g) (cs : List Chunk)
    (hstream : ChunkStream bucketSize ((done ++ cs).map Chunk.asBytes)) :
    ∃ s' parts' g', cs.foldlM Sender.step s = .ok s' ∧ s'.Inv (done ++ cs) parts' g' := by
  induction cs generalizing done parts g s with
  | nil =>
    rw [append_nil]
    exact ⟨s, parts, g, rfl, h⟩
  | cons c cs ih =>
    rw [append_cons] at hstream ⊢
    have hfirst : ChunkStream bucketSize ((done ++ [c]).map Chunk.asBytes) :=
      { isChunk := fun d hd => by
          rw [map_append] at hstream
          exact hstream.isChunk d (mem_append_left _ hd)
        pairwise := by
          have hpairwise := hstream.pairwise
          rw [map_append] at hpairwise
          exact (pairwise_append.1 hpairwise).1 }
    obtain ⟨s₁, parts₁, g₁, hstep, h₁⟩ := h.step hfirst
    obtain ⟨s₂, parts₂, g₂, hrun, h₂⟩ := ih h₁ hstream
    exact ⟨s₂, parts₂, g₂, by rw [foldlM_cons, hstep, ok_bind, hrun], h₂⟩

end Sender

/-- What the receivers read is what was cut, at the places of a greedy cut. -/
theorem exists_sendWeights (sendBuf recvBuf : Buffer UInt8 bucketSize) {ws : List Weight}
    (hstream : ChunkStream bucketSize ((splitWeightChunks bucketSize ws).map Chunk.asBytes)) :
    ∃ messages parts g, sendWeights sendBuf recvBuf ws = .ok messages ∧
      parts.flatten ++ g = splitWeightChunks bucketSize ws ∧
      IsGreedyCut Chunk.size bucketSize (withOpen parts g) ∧
      messages.flatMap Message.chunks = (parts ++ [g]).flatMap placedPart := by
  have hinit : Sender.Inv [] [] [] (⟨sendBuf, recvBuf, Dict.empty, 0, []⟩ : Sender bucketSize) :=
    { done_eq := rfl
      cut := IsGreedyCut.nil
      holds := ⟨Filled.nil, rfl⟩
      posted := rfl
      opened := fun _ => rfl }
  obtain ⟨s, parts, g, hrun, h⟩ := hinit.run (splitWeightChunks bucketSize ws) hstream
  refine ⟨(s.post true).posted, parts, g, ?_, h.done_eq, h.cut, ?_⟩
  · unfold sendWeights
    rw [hrun]
    rfl
  · show (s.posted ++ [_]).flatMap Message.chunks = _
    rw [flatMap_append, flatMap_append, h.posted, flatMap_singleton,
      flatMap_singleton, h.holds.chunks]

theorem ncclTransfer_eq_ok (empty : Uninitialized) (sendBuf recvBuf : Buffer UInt8 bucketSize)
    {ws : List Weight} (hpos : 0 < bucketSize) (hnodup : (ws.map Weight.name).Nodup) :
    ncclTransfer empty sendBuf recvBuf ws = .ok ws ↔ NcclReady bucketSize ws := by
  have hstream := chunkStream_asBytes hpos hnodup
  obtain ⟨messages, parts, g, hsend, hdone, hcut, hchunks⟩ :=
    exists_sendWeights sendBuf recvBuf hstream
  have hunplaced : ((parts ++ [g]).flatMap placedPart).map (fun p => p.1.unplaced) =
      splitWeightChunks bucketSize ws := by
    rw [map_unplaced_placed, flatten_append, flatten_singleton, hdone]
    refine (map_congr_left fun c hc => ?_).trans (map_id _)
    -- the generator gives no offset
    obtain ⟨w, hw⟩ := hstream.isChunk c.asBytes (mem_map_of_mem hc)
    have hoffset : c.tensorMeta.offset = none := hw.offset
    obtain ⟨⟨name, shape, dtype, chunkOffset, chunkSize, offset⟩, data⟩ := c
    exact congrArg
      (fun o => Chunk.mk ⟨name, shape, dtype, chunkOffset, chunkSize, o⟩ data) hoffset.symm
  have haligned : (∀ p ∈ (parts ++ [g]).flatMap placedPart, ChunkAligned bucketSize p.1 p.2) ↔
      ∀ part ∈ parts ++ [g], ∀ p ∈ places Chunk.size 0 part, ChunkAligned bucketSize p.1 p.2 := by
    rw [forall_mem_flatMap]
    exact forall₂_congr fun part _ => forall_mem_map
  have hall : ws = ws.filter (fun w => 0 < w.nbytes) ↔ ∀ w ∈ ws, 0 < w.nbytes := by
    rw [eq_comm, filter_eq_self]
    exact forall₂_congr fun w _ => decide_eq_true_iff
  unfold ncclTransfer NcclReady
  rw [hsend, ok_bind, hchunks, mergeLoop_eq_ok hpos hunplaced, haligned, hall, ← hdone,
    packedAt_withOpen_iff hcut, and_comm]

/-! ## `BucketedWeightSender` -/

/-- The weights of a bucket are its stretch, if each can be viewed where it is. -/
def BucketMessage.Reads (m : BucketMessage bucketSize) (part : List Weight) : Prop :=
  ∀ out, m.weights = .ok out ↔
    (∀ p ∈ places Weight.nbytes 0 part, p.1.dtype.itemsize ∣ p.2) ∧ out = part

theorem mapM_weights {messages : List (BucketMessage bucketSize)} {parts : List (List Weight)}
    (h : Forall₂ BucketMessage.Reads messages parts) {out : List (List Weight)} :
    messages.mapM BucketMessage.weights = .ok out ↔
      (∀ part ∈ parts, ∀ p ∈ places Weight.nbytes 0 part, p.1.dtype.itemsize ∣ p.2) ∧
        out = parts := by
  induction h generalizing out with
  | nil => exact ⟨fun h => ⟨(fun p hp => by cases hp), (Except.ok.inj h).symm⟩,
      fun h => congrArg Except.ok h.2.symm⟩
  | @cons m part messages parts hm _ ih =>
    rw [mapM_cons, bind_eq_ok, forall_mem_cons]
    constructor
    · rintro ⟨weights, hweights, hrest⟩
      obtain ⟨haligned, rfl⟩ := (hm weights).1 hweights
      obtain ⟨outs, houts, hout⟩ := bind_eq_ok.1 hrest
      obtain ⟨haligned', rfl⟩ := ih.1 houts
      exact ⟨⟨haligned, haligned'⟩, (Except.ok.inj hout).symm⟩
    · rintro ⟨⟨haligned, haligned'⟩, rfl⟩
      exact ⟨part, (hm part).2 ⟨haligned, rfl⟩,
        bind_eq_ok.2 ⟨parts, ih.2 ⟨haligned', rfl⟩, rfl⟩⟩

namespace BucketSender

/-- The buffer holds the weights. -/
structure Holds (g : List Weight) (s : BucketSender bucketSize) : Prop where
  filled : Filled Weight.nbytes Weight.bytes s.buffer g s.offset
  items : s.bucketMeta.items = (places Weight.nbytes 0 g).map fun p =>
    (p.1.name, ⟨p.1.name, p.1.shape, p.1.dtype, p.2, none⟩)

variable {useShm : Bool} {g : List Weight} {s : BucketSender bucketSize}

theorem holds_flush (s : BucketSender bucketSize) : s.flush.Holds [] where
  filled := Filled.nil
  items := rfl

theorem Holds.keys (h : s.Holds g) : s.bucketMeta.keys = g.map Weight.name := by
  unfold Dict.keys
  rw [h.items, map_map]
  conv => rhs; rw [← map_fst_places Weight.nbytes 0 g, map_map]
  rfl

theorem Holds.length_items (h : s.Holds g) : s.bucketMeta.items.length = g.length := by
  rw [h.items, length_map, ← length_map Prod.fst, map_fst_places]

theorem Holds.reads (h : s.Holds g) (isLast : Bool) :
    BucketMessage.Reads ⟨s.bucketMeta, s.buffer, isLast⟩ g := by
  intro out
  unfold BucketMessage.weights
  rw [h.items, mapM_map]
  have hviews : ∀ p ∈ places Weight.nbytes 0 g, ∀ v,
      viewAs p.1.name p.1.dtype p.1.shape p.2
        (s.buffer.slice p.2 (p.1.dtype.itemsize * p.1.shape.prod)) = .ok v ↔
        p.1.dtype.itemsize ∣ p.2 ∧ v = p.1 := by
    intro p hp v
    have hslice : s.buffer.slice p.2 p.1.nbytes = p.1.bytes := h.filled.slice hp
    unfold Weight.nbytes at hslice
    rw [Nat.mul_comm, hslice]
    exact viewAs_eq_ok
  exact (mapM_eq_ok_iff hviews).trans (by rw [map_fst_places])

/-- The weights so far: those of the buckets that were sent, then those of the open one. -/
structure Inv (done : List Weight) (parts : List (List Weight)) (g : List Weight)
    (s : BucketSender bucketSize) : Prop where
  done_eq : parts.flatten ++ g = done
  cut : IsGreedyCut Weight.nbytes bucketSize (withOpen parts g)
  holds : s.Holds g
  sent : List.Forall₂ BucketMessage.Reads s.sent parts

/-- Behind a weight that was sent itself. -/
def Opened (bucketSize : Nat) (parts : List (List Weight)) (g : List Weight) : Prop :=
  g = [] → ∀ part ∈ parts.getLast?, bucketSize < (part.map Weight.nbytes).sum

variable {done : List Weight} {parts : List (List Weight)} {w : Weight}

theorem Inv.name_notMem (h : s.Inv done parts g) (hname : w.name ∉ done.map Weight.name) :
    w.name ∉ g.map Weight.name := fun hmem => hname (by
  rw [← h.done_eq, map_append]
  exact mem_append_right _ hmem)

theorem Inv.flush (h : s.Inv done parts g) (hg : g ≠ []) : s.flush.Inv done (parts ++ [g]) [] where
  done_eq := by rw [flatten_append, flatten_singleton, append_nil, h.done_eq]
  cut := by
    have hcut := h.cut
    unfold withOpen at hcut
    rwa [if_neg hg] at hcut
  holds := holds_flush s
  sent := rel_append h.sent (.cons (h.holds.reads false) .nil)

/-- A weight larger than the buffer is sent itself. -/
theorem Inv.directSend (h : s.Inv done parts [])
    (hlast : ∀ part ∈ parts.getLast?, bucketSize < (part.map Weight.nbytes).sum + w.nbytes) :
    (s.directSendLargeWeight w).Inv (done ++ [w]) (parts ++ [[w]]) [] where
  done_eq := by
    rw [← h.done_eq, flatten_append, flatten_singleton, append_nil, append_nil]
  cut := h.cut.append_part hlast
  holds := ⟨h.holds.filled, h.holds.items⟩
  sent := by
    have hreads : BucketMessage.Reads
        ⟨Dict.empty.insert w.name ⟨w.name, w.shape, w.dtype, 0, some w⟩, s.buffer, false⟩ [w] := by
      intro out
      have haligned : ∀ p ∈ places Weight.nbytes 0 [w], p.1.dtype.itemsize ∣ p.2 :=
        forall_mem_singleton.2 (Nat.dvd_zero _)
      exact ⟨fun hout => ⟨haligned, (Except.ok.inj hout).symm⟩,
        fun hout => congrArg Except.ok hout.2.symm⟩
    exact rel_append h.sent (.cons hreads .nil)

theorem Inv.store (h : s.Inv done parts g) (hname : w.name ∉ done.map Weight.name)
    (hover : bucketSize < s.offset + w.nbytes → g = [])
    (hlast : g = [] → ∀ part ∈ parts.getLast?, bucketSize < (part.map Weight.nbytes).sum + w.nbytes)
    (hshm : useShm = true → w.nbytes ≤ bucketSize) :
    ∃ s' parts' g', s.store useShm w = .ok s' ∧ s'.Inv (done ++ [w]) parts' g' ∧
      Opened bucketSize parts' g' := by
  unfold BucketSender.store
  split
  case isTrue hlarge =>
    obtain rfl := hover hlarge
    rw [h.holds.filled.offset_eq, map_nil, sum_nil, Nat.zero_add] at hlarge
    have hnoShm : useShm = false := Bool.eq_false_iff.2 fun huse =>
      absurd (hshm huse) (Nat.not_le.2 hlarge)
    refine ⟨s.directSendLargeWeight w, parts ++ [[w]], [], by rw [hnoShm]; rfl,
      h.directSend (hlast rfl), fun _ part hpart => ?_⟩
    rw [getLast?_concat] at hpart
    rw [← Option.some.inj hpart]
    exact hlarge
  case isFalse hroom =>
    have hroom : s.offset + w.nbytes ≤ bucketSize := Nat.not_lt.1 hroom
    obtain ⟨buf, hassign, hfilled⟩ := h.holds.filled.assign w.length_eq hroom
    have hfresh := h.name_notMem hname
    rw [← h.holds.keys] at hfresh
    rw [hassign]
    refine ⟨_, parts, g ++ [w], rfl, ?_, fun hnil => absurd hnil (by simp)⟩
    exact
      { done_eq := by rw [← append_assoc, h.done_eq]
        cut := h.cut.withOpen_item (by rw [← h.holds.filled.offset_eq]; exact hroom) hlast
        holds :=
          { filled := hfilled
            items := by
              rw [Dict.items_insert_of_notMem _ hfresh, h.holds.items, places_append,
                map_append, Nat.zero_add, ← h.holds.filled.offset_eq]
              rfl }
        sent := h.sent }

theorem Inv.step (h : s.Inv done parts g) (hopened : Opened bucketSize parts g)
    (hname : w.name ∉ done.map Weight.name) (hshm : useShm = true → w.nbytes ≤ bucketSize) :
    ∃ s' parts' g', s.step useShm w = .ok s' ∧ s'.Inv (done ++ [w]) parts' g' ∧
      Opened bucketSize parts' g' := by
  unfold BucketSender.step
  rw [h.holds.length_items]
  split
  case isTrue hcond =>
    obtain ⟨hover, hg⟩ := hcond
    refine (h.flush (length_pos_iff.1 hg)).store hname (fun _ => rfl) (fun _ part hpart => ?_)
      hshm
    rw [getLast?_concat] at hpart
    rw [← Option.some.inj hpart, ← h.holds.filled.offset_eq]
    exact hover
  case isFalse hcond =>
    refine h.store hname (fun hover => ?_) (fun hg part hpart => ?_) hshm
    · exact eq_nil_iff_length_eq_zero.2 (by omega)
    · exact Nat.lt_add_right _ (hopened hg part hpart)

theorem Inv.run (h : s.Inv done parts g) (hopened : Opened bucketSize parts g) (ws : List Weight)
    (hnodup : ((done ++ ws).map Weight.name).Nodup)
    (hshm : useShm = true → ∀ w ∈ ws, w.nbytes ≤ bucketSize) :
    ∃ s' parts' g', ws.foldlM (BucketSender.step useShm) s = .ok s' ∧
      s'.Inv (done ++ ws) parts' g' := by
  induction ws generalizing done parts g s with
  | nil =>
    rw [append_nil]
    exact ⟨s, parts, g, rfl, h⟩
  | cons w ws ih =>
    have hname : w.name ∉ done.map Weight.name := fun hmem => by grind
    rw [append_cons] at hnodup ⊢
    obtain ⟨s₁, parts₁, g₁, hstep, h₁, hopened₁⟩ := h.step hopened hname fun huse =>
      hshm huse w mem_cons_self
    obtain ⟨s₂, parts₂, g₂, hrun, h₂⟩ := ih h₁ hopened₁ hnodup fun huse v hv =>
      hshm huse v (mem_cons_of_mem w hv)
    exact ⟨s₂, parts₂, g₂, by rw [foldlM_cons, hstep, ok_bind, hrun], h₂⟩

/-- With shared memory a weight larger than the buffer is refused. -/
theorem nbytes_le_of_step {s' : BucketSender bucketSize} (hstep : s.step true w = .ok s') :
    w.nbytes ≤ bucketSize := by
  have hstore : ∀ {r : BucketSender bucketSize}, r.store true w = .ok s' →
      w.nbytes ≤ bucketSize := by
    intro r hr
    unfold BucketSender.store at hr
    split at hr
    case isTrue => cases hr
    case isFalse hroom => omega
  unfold BucketSender.step at hstep
  split at hstep
  case isTrue => exact hstore hstep
  case isFalse => exact hstore hstep

end BucketSender

theorem bucketedTransfer_eq_ok (useShm : Bool) (buffer : Buffer UInt8 bucketSize) {ws : List Weight}
    (hnodup : (ws.map Weight.name).Nodup) :
    bucketedTransfer useShm buffer ws = .ok ws ↔ BucketedReady useShm bucketSize ws := by
  have hinit : BucketSender.Inv [] [] []
      (⟨buffer, Dict.empty, 0, []⟩ : BucketSender bucketSize) :=
    { done_eq := rfl
      cut := IsGreedyCut.nil
      holds := ⟨Filled.nil, rfl⟩
      sent := .nil }
  by_cases hshm : useShm = true → ∀ w ∈ ws, w.nbytes ≤ bucketSize
  · obtain ⟨s, parts, g, hrun, h⟩ := hinit.run (fun _ _ hpart => by cases hpart) ws hnodup hshm
    have hmessages : Forall₂ BucketMessage.Reads (s.sendObj s.bucketMeta true).sent
        (parts ++ [g]) := rel_append h.sent (.cons (h.holds.reads true) .nil)
    have hdone : parts.flatten ++ g = ws := h.done_eq
    have hsend : asyncSendWeights useShm buffer ws = .ok (s.sendObj s.bucketMeta true).sent := by
      unfold asyncSendWeights
      rw [hrun]
      rfl
    have hpacked : PackedAt Weight.nbytes bucketSize (fun w offset => w.dtype.itemsize ∣ offset) ws ↔
        ∀ part ∈ parts ++ [g], ∀ p ∈ places Weight.nbytes 0 part, p.1.dtype.itemsize ∣ p.2 := by
      rw [← hdone]
      exact packedAt_withOpen_iff h.cut
    unfold bucketedTransfer BucketedReady
    rw [hsend, ok_bind, bind_eq_ok, hpacked]
    constructor
    · rintro ⟨received, hreceived, -⟩
      exact ⟨hshm, ((mapM_weights hmessages).1 hreceived).1⟩
    · rintro ⟨-, haligned⟩
      refine ⟨_, (mapM_weights hmessages).2 ⟨haligned, rfl⟩, congrArg Except.ok ?_⟩
      rw [flatten_append, flatten_singleton, hdone]
  · -- the assertion on a weight that is too large
    refine iff_of_false (fun htransfer => hshm fun huse w hw => ?_) fun hready => hshm hready.1
    obtain ⟨messages, hsend, -⟩ := bind_eq_ok.1 htransfer
    obtain ⟨s, hrun, -⟩ := bind_eq_ok.1 hsend
    obtain ⟨s₁, s₂, hstep⟩ := exists_of_foldlM hrun hw
    rw [huse] at hstep
    exact BucketSender.nbytes_le_of_step hstep

/-! ## Both transports -/

/-- The weights arrive exactly where every one can be viewed at the place that the sizes before it
give, no weight is empty for the chunks, and none is too large for shared memory. -/
theorem delivers_iff_ready {ws : List Weight} (hnodup : (ws.map Weight.name).Nodup)
    (hsize : ∀ w ∈ ws, w.dtype.itemsize ≤ bucketSize) (empty : Uninitialized)
    (sendBuf recvBuf : Buffer UInt8 bucketSize) :
    (ncclTransfer empty sendBuf recvBuf ws = .ok ws ↔ NcclReady bucketSize ws) ∧
      ∀ useShm (buffer : Buffer UInt8 bucketSize),
        bucketedTransfer useShm buffer ws = .ok ws ↔ BucketedReady useShm bucketSize ws := by
  refine ⟨?_, fun useShm buffer => bucketedTransfer_eq_ok useShm buffer hnodup⟩
  cases ws with
  | nil =>
    exact iff_of_true rfl ⟨(fun w hw => by cases hw), [], rfl, IsGreedyCut.nil,
      fun part hpart => by cases hpart⟩
  | cons w ws =>
    have hpos := w.dtype.itemsize_pos.trans_le (hsize w mem_cons_self)
    exact ncclTransfer_eq_ok empty sendBuf recvBuf hpos hnodup

def bfloat16 : DType := ⟨"bfloat16", 2, by decide⟩

def float32 : DType := ⟨"float32", 4, by decide⟩

/-- Two bytes, then four. -/
def mixedWeights : List Weight :=
  [⟨"gate.bias", bfloat16, [1], [1, 2], rfl⟩, ⟨"gate.weight", float32, [1], [1, 2, 3, 4], rfl⟩]

theorem delivers_iff_ready_mixed :
    (ncclTransfer (fun _ n => .replicate n 0) (.replicate 16 0) (.replicate 16 0) mixedWeights =
        .ok mixedWeights ↔ NcclReady 16 mixedWeights) ∧
      ∀ useShm (buffer : Buffer UInt8 16), bucketedTransfer useShm buffer mixedWeights =
        .ok mixedWeights ↔ BucketedReady useShm 16 mixedWeights :=
  delivers_iff_ready (by decide) (by decide) _ _ _

/-- The four bytes are at offset 2. -/
theorem not_delivers_mixed :
    (mixedWeights.map Weight.name).Nodup ∧ (∀ w ∈ mixedWeights, w.dtype.itemsize ≤ 16) ∧
    ncclTransfer (fun _ n => .replicate n 0) (.replicate 16 0) (.replicate 16 0) mixedWeights =
      .error (.runtimeError "self.storage_offset() must be divisible by the size of the dtype") ∧
    ∀ useShm, bucketedTransfer useShm (.replicate 16 0 : Buffer UInt8 16) mixedWeights =
      .error (.runtimeError "self.storage_offset() must be divisible by the size of the dtype") := by
  refine ⟨by decide, by decide, rfl, fun useShm => ?_⟩
  cases useShm <;> rfl

end Verl.TypedWeights
