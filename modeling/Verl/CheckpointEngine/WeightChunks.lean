import Verl.Lib.Python
import Verl.Lib.Slice

/-! # Splitting weights into chunks and merging them again

The two generators of `verl/checkpoint_engine/base.py` for byte tensors (dtype `uint8`, so
that `numel` is `nbytes`): `splitWeightChunks` cuts every weight into chunks of at most
`bucketSize` bytes, `mergeWeightChunks` puts the weights together again.

* `splitWeightChunks_chunkSize`: no chunk is empty or larger than a bucket.
* `splitWeightChunks_pairwise`: a chunk that is not the last one of its weight fills a bucket.
* `mergeWeightChunks_split`: merging what was split gives the weights, in order; merging a
  part of the stream gives the weights it completes (`mergeWeightChunks_of_prefix`). -/

namespace Verl.CheckpointEngine

open List

/-- A named byte tensor; `bytes` is `weight.view(-1).view(torch.uint8)`. -/
@[ext] structure Weight where
  name : String
  shape : List Nat
  bytes : List UInt8
  length_eq : bytes.length = shape.prod
  deriving DecidableEq

def Weight.nbytes (w : Weight) : Nat := w.shape.prod

/-- Weights under different names, none of them empty. -/
structure WeightList where
  weights : List Weight
  nodup : (weights.map Weight.name).Nodup
  nonempty : ∀ w ∈ weights, 0 < w.nbytes

structure TensorMeta where
  name : String
  shape : List Nat
  chunkOffset : Nat
  chunkSize : Nat
  offset : Option Nat
  deriving DecidableEq, Repr

/-- `tensor_meta.shape.numel() * tensor_meta.dtype.itemsize`. -/
def TensorMeta.nbytes (m : TensorMeta) : Nat := m.shape.prod

structure Chunk where
  tensorMeta : TensorMeta
  data : List UInt8
  deriving DecidableEq

/-! ## `split_weight_chunks` -/

/-- The chunk of `w` that starts at `chunkOffset`. -/
def Weight.chunk (w : Weight) (chunkOffset chunkSize : Nat) : Chunk where
  tensorMeta :=
    { name := w.name
      shape := w.shape
      chunkOffset := chunkOffset
      chunkSize := chunkSize
      offset := none }
  data := getSlice w.bytes chunkOffset chunkSize

/-- The `while` loop over one weight.  Each round moves on by a byte at least, so `nbytes`
rounds are enough. -/
def splitLoop (bucketSize : Nat) (w : Weight) : (fuel chunkOffset : Nat) → List Chunk
  | 0, _ => []
  | fuel + 1, chunkOffset =>
    if chunkOffset < w.nbytes then
      let chunkSize := min bucketSize (w.nbytes - chunkOffset)
      w.chunk chunkOffset chunkSize :: splitLoop bucketSize w fuel (chunkOffset + chunkSize)
    else []

def splitWeightChunks (bucketSize : Nat) (weights : List Weight) : List Chunk :=
  weights.flatMap fun w => splitLoop bucketSize w w.nbytes 0

variable {weights : List Weight} {c : Chunk} {chunkOffset bucketSize fuel : Nat}
  {chunks : List Chunk} {w : Weight} {st : Option Merge} {merge : Merge}

theorem lt_of_mem_splitLoop
    (h : c ∈ splitLoop bucketSize w fuel chunkOffset) : chunkOffset < w.nbytes := by
  cases fuel with
  | zero => cases h
  | succ fuel =>
    unfold splitLoop at h
    split at h
    case isTrue hlt => exact hlt
    case isFalse => cases h

theorem splitLoop_eq_nil
    (h : w.nbytes ≤ chunkOffset) : splitLoop bucketSize w fuel chunkOffset = [] := by
  rw [eq_nil_iff_forall_not_mem]
  intro c hc
  exact absurd (lt_of_mem_splitLoop hc) (Nat.not_lt.2 h)

theorem exists_chunk_of_mem_splitLoop (h : c ∈ splitLoop bucketSize w fuel chunkOffset) :
    ∃ offset size, c = w.chunk offset size := by
  induction fuel generalizing chunkOffset with
  | zero => cases h
  | succ fuel ih =>
    have hlt := lt_of_mem_splitLoop h
    unfold splitLoop at h
    rw [if_pos hlt] at h
    rcases mem_cons.1 h with rfl | h
    · exact ⟨_, _, rfl⟩
    · exact ih h

/-- What a chunk of `w` is: its name, and a slice of the bytes that fits into a bucket. -/
structure IsChunkOf (bucketSize : Nat) (w : Weight) (c : Chunk) : Prop where
  name : c.tensorMeta.name = w.name
  offset : c.tensorMeta.offset = none
  pos : 0 < c.tensorMeta.chunkSize
  le : c.tensorMeta.chunkSize ≤ bucketSize
  length : c.data.length = c.tensorMeta.chunkSize

theorem isChunkOf_of_mem_splitLoop (hpos : 0 < bucketSize)
    (h : c ∈ splitLoop bucketSize w fuel chunkOffset) :
    IsChunkOf bucketSize w c := by
  induction fuel generalizing chunkOffset with
  | zero => cases h
  | succ fuel ih =>
    have hlt := lt_of_mem_splitLoop h
    unfold splitLoop at h
    rw [if_pos hlt] at h
    rcases mem_cons.1 h with rfl | h
    · exact
        { name := rfl
          offset := rfl
          pos := by show 0 < min _ _; omega
          le := Nat.min_le_left _ _
          length := length_getSlice (by rw [w.length_eq]; change _ ≤ w.nbytes; omega) }
    · exact ih h

theorem exists_isChunkOf (hpos : 0 < bucketSize) (h : c ∈ splitWeightChunks bucketSize weights) :
    ∃ w ∈ weights, IsChunkOf bucketSize w c := by
  obtain ⟨w, hw, hc⟩ := mem_flatMap.1 h
  exact ⟨w, hw, isChunkOf_of_mem_splitLoop hpos hc⟩

/-- Of two chunks of one weight, the first one fills a bucket. -/
def FullIfSameName (bucketSize : Nat) (c d : Chunk) : Prop :=
  c.tensorMeta.name = d.tensorMeta.name → c.tensorMeta.chunkSize = bucketSize

theorem splitLoop_pairwise (bucketSize : Nat) (w : Weight) (fuel chunkOffset : Nat) :
    (splitLoop bucketSize w fuel chunkOffset).Pairwise (FullIfSameName bucketSize) := by
  induction fuel generalizing chunkOffset with
  | zero => exact Pairwise.nil
  | succ fuel ih =>
    unfold splitLoop
    split
    case isTrue hlt =>
      refine pairwise_cons.2 ⟨fun d hd _ => ?_, ih _⟩
      -- a chunk follows, so the loop was not at the end of the weight
      have hnext := lt_of_mem_splitLoop hd
      show min bucketSize (w.nbytes - chunkOffset) = bucketSize
      omega
    case isFalse => exact Pairwise.nil

theorem splitWeightChunks_pairwise (hpos : 0 < bucketSize)
    (hnodup : (weights.map Weight.name).Nodup) :
    (splitWeightChunks bucketSize weights).Pairwise (FullIfSameName bucketSize) := by
  refine pairwise_flatMap.2 ⟨fun w _ => splitLoop_pairwise bucketSize w _ _, ?_⟩
  refine (pairwise_map.1 hnodup).imp fun hne c hc d hd hname => ?_
  rw [(isChunkOf_of_mem_splitLoop hpos hc).name, (isChunkOf_of_mem_splitLoop hpos hd).name]
    at hname
  exact absurd hname hne

/-! ## `merge_weight_chunks` -/

/-- The weight that is being merged; `merge_weight` and `merge_buffer` share their memory. -/
structure Merge where
  name : String
  shape : List Nat
  buffer : Buffer UInt8 shape.prod
  offset : Nat

/-- What `torch.empty` leaves in the memory of a new weight. -/
abbrev Uninitialized := String → (n : Nat) → Buffer UInt8 n

variable (bucketSize : Nat) (empty : Uninitialized)

/-- The state with which a chunk of a large weight is written. -/
def beginMerge (st : Option Merge) (m : TensorMeta) : Except PyErr Merge :=
  match st with
  | none => do
    pyAssert (m.chunkOffset == 0) s!"Chunk offset must be 0, but got {repr m}"
    .ok { name := m.name, shape := m.shape, buffer := empty m.name _, offset := 0 }
  | some merge => .ok merge

/-- The chunk goes into the buffer of the weight, which is yielded with its last chunk. -/
def writeChunk (merge : Merge) (c : Chunk) : Except PyErr (Option Merge × List Weight) := do
  let m := c.tensorMeta
  pyAssert (m.name == merge.name) ""
  pyAssert (merge.offset == m.chunkOffset) ""
  match merge.buffer.assign m.chunkOffset m.chunkSize c.data with
  | none => .error (.runtimeError "The expanded size of the tensor must match the existing size")
  | some buffer =>
    if m.chunkOffset + m.chunkSize = m.nbytes then
      .ok (none, [{ name := merge.name, shape := merge.shape, bytes := buffer.toList,
                    length_eq := buffer.length_eq }])
    else
      .ok (some { merge with buffer := buffer, offset := merge.offset + m.chunkSize }, [])

/-- One round of the loop: the state after it and the weights it yields. -/
def mergeStep (st : Option Merge) (c : Chunk) : Except PyErr (Option Merge × List Weight) :=
  let m := c.tensorMeta
  if m.nbytes ≤ bucketSize then do
    pyAssert st.isNone ("Weight must be None, but got " ++ (st.map Merge.name).getD "None")
    if h : c.data.length = m.shape.prod then
      .ok (none, [{ name := m.name, shape := m.shape, bytes := c.data, length_eq := h }])
    else .error (.runtimeError "shape is invalid for input")
  else do
    let merge ← beginMerge empty st m
    writeChunk merge c

def mergeLoop : Option Merge → List Chunk → Except PyErr (Option Merge × List Weight)
  | st, [] => .ok (st, [])
  | st, c :: cs => do
    let (st', out) ← mergeStep bucketSize empty st c
    let (st'', outs) ← mergeLoop st' cs
    .ok (st'', out ++ outs)

def mergeWeightChunks (chunks : List Chunk) : Except PyErr (List Weight) := do
  let (_, out) ← mergeLoop bucketSize empty none chunks
  .ok out

/-! ## Merging what was split -/

/-- The bytes of `w` before `chunkOffset` are in the buffer. -/
structure Merging (w : Weight) (chunkOffset : Nat) (merge : Merge) : Prop where
  name : merge.name = w.name
  shape : merge.shape = w.shape
  offset : merge.offset = chunkOffset
  bytes : merge.buffer.slice 0 chunkOffset = getSlice w.bytes 0 chunkOffset

/-- The state in which the loop expects the chunk of `w` at `chunkOffset`. -/
def Expects (w : Weight) (chunkOffset : Nat) : Option Merge → Prop
  | none => chunkOffset = 0
  | some merge => Merging w chunkOffset merge

variable {bucketSize empty}

variable (empty) in
theorem exists_beginMerge (hst : Expects w chunkOffset st) (chunkSize : Nat) :
    ∃ merge, beginMerge empty st (w.chunk chunkOffset chunkSize).tensorMeta = .ok merge ∧
      Merging w chunkOffset merge := by
  cases st with
  | none =>
    cases hst
    exact ⟨_, rfl, rfl, rfl, rfl, rfl⟩
  | some merge => exact ⟨merge, rfl, hst⟩

theorem mergeStep_eq_writeChunk (hlarge : bucketSize < c.tensorMeta.nbytes)
    (hbegin : beginMerge empty st c.tensorMeta = .ok merge) :
    mergeStep bucketSize empty st c = writeChunk merge c := by
  unfold mergeStep
  rw [if_neg (Nat.not_le.2 hlarge), hbegin]
  rfl

theorem writeChunk_eq {buffer : Buffer UInt8 merge.shape.prod}
    (hname : c.tensorMeta.name = merge.name) (hoffset : c.tensorMeta.chunkOffset = merge.offset)
    (hassign : merge.buffer.assign merge.offset c.tensorMeta.chunkSize c.data = some buffer) :
    writeChunk merge c =
      if merge.offset + c.tensorMeta.chunkSize = c.tensorMeta.nbytes then
        .ok (none, [⟨merge.name, merge.shape, buffer.toList, buffer.length_eq⟩])
      else .ok (some ⟨merge.name, merge.shape, buffer, merge.offset + c.tensorMeta.chunkSize⟩, []) := by
  unfold writeChunk
  dsimp only
  rw [hname, hoffset, hassign, beq_self_eq_true, beq_self_eq_true]
  rfl

variable (empty) in
/-- A chunk of a weight that does not fit into a bucket: the weight is done, or its buffer
holds the bytes up to the end of the chunk. -/
theorem mergeStep_of_large {chunkSize : Nat} (hlarge : bucketSize < w.nbytes)
    (hst : Expects w chunkOffset st) (hle : chunkOffset + chunkSize ≤ w.nbytes) :
    (chunkOffset + chunkSize = w.nbytes ∧
      mergeStep bucketSize empty st (w.chunk chunkOffset chunkSize) = .ok (none, [w])) ∨
    (chunkOffset + chunkSize < w.nbytes ∧ ∃ st', Expects w (chunkOffset + chunkSize) st' ∧
      mergeStep bucketSize empty st (w.chunk chunkOffset chunkSize) = .ok (st', [])) := by
  obtain ⟨⟨name, shape, buffer, offset⟩, hbegin, hname, hshape, hoffset, hbytes⟩ :=
    exists_beginMerge empty hst chunkSize
  dsimp only at hoffset
  subst hname hshape hoffset
  have hlen : (w.chunk offset chunkSize).data.length = chunkSize :=
    length_getSlice (by rw [w.length_eq]; exact hle)
  obtain ⟨buffer', hassign, hwritten, hkept⟩ := buffer.exists_assign hle hlen
  -- the bytes before the chunk are kept, the chunk comes behind them
  have hbytes' : buffer'.slice 0 (offset + chunkSize) = getSlice w.bytes 0 (offset + chunkSize) := by
    calc buffer'.slice 0 (offset + chunkSize)
        = buffer'.slice 0 offset ++ buffer'.slice (0 + offset) chunkSize :=
          (getSlice_append buffer'.toList 0 offset chunkSize).symm
      _ = getSlice w.bytes 0 offset ++ getSlice w.bytes (0 + offset) chunkSize := by
          rw [hkept 0 offset (by omega), hbytes, Nat.zero_add, hwritten]
          rfl
      _ = getSlice w.bytes 0 (offset + chunkSize) := getSlice_append w.bytes 0 offset chunkSize
  rw [mergeStep_eq_writeChunk hlarge hbegin, writeChunk_eq rfl rfl hassign]
  by_cases hlast : offset + chunkSize = w.nbytes
  · left
    refine ⟨hlast, ?_⟩
    have hall : buffer'.toList = w.bytes := by
      rw [← buffer'.slice_zero (Nat.le_of_eq hlast.symm), hbytes',
        getSlice_zero w.bytes (by rw [w.length_eq]; exact Nat.le_of_eq hlast.symm)]
    have hw : Weight.mk w.name w.shape buffer'.toList buffer'.length_eq = w :=
      Weight.ext rfl rfl hall
    rw [hw]
    exact if_pos hlast
  · right
    have hmerging : Expects w (offset + chunkSize)
        (some ⟨w.name, w.shape, buffer', offset + chunkSize⟩) := ⟨rfl, rfl, rfl, hbytes'⟩
    exact ⟨Nat.lt_of_le_of_ne hle hlast, _, hmerging, if_neg hlast⟩

theorem mergeLoop_nil (st : Option Merge) : mergeLoop bucketSize empty st [] = .ok (st, []) :=
  rfl

theorem mergeLoop_cons (st : Option Merge) (c : Chunk) (cs : List Chunk) :
    mergeLoop bucketSize empty st (c :: cs) = (do
      let r ← mergeStep bucketSize empty st c
      let r' ← mergeLoop bucketSize empty r.1 cs
      .ok (r'.1, r.2 ++ r'.2)) := rfl

theorem mergeLoop_append (st : Option Merge) (xs ys : List Chunk) :
    mergeLoop bucketSize empty st (xs ++ ys) = (do
      let r ← mergeLoop bucketSize empty st xs
      let r' ← mergeLoop bucketSize empty r.1 ys
      .ok (r'.1, r.2 ++ r'.2)) := by
  induction xs generalizing st with
  | nil =>
    rw [nil_append, mergeLoop_nil, ok_bind]
    cases mergeLoop bucketSize empty st ys <;> rfl
  | cons c xs ih =>
    simp only [cons_append, mergeLoop_cons, ih, bind_assoc, ok_bind, append_assoc]

theorem mergeLoop_splitLoop (hlarge : bucketSize < w.nbytes) (hpos : 0 < bucketSize)
    (hst : Expects w chunkOffset st)
    (hlt : chunkOffset < w.nbytes) (hfuel : w.nbytes - chunkOffset ≤ fuel) :
    mergeLoop bucketSize empty st (splitLoop bucketSize w fuel chunkOffset) = .ok (none, [w]) := by
  induction fuel generalizing chunkOffset st with
  | zero => omega
  | succ fuel ih =>
    unfold splitLoop
    rw [if_pos hlt]
    rw [mergeLoop_cons]
    set chunkSize := min bucketSize (w.nbytes - chunkOffset) with hsize
    have hle : chunkOffset + chunkSize ≤ w.nbytes := by omega
    rcases mergeStep_of_large empty hlarge hst hle with
      ⟨hlast, hstep⟩ | ⟨hmore, st', hst', hstep⟩
    · -- the loop of the generator ends here
      rw [hstep, splitLoop_eq_nil (Nat.le_of_eq hlast.symm)]
      rfl
    · rw [hstep, ok_bind, ih hst' hmore (by omega)]
      rfl

theorem mergeStep_of_small (hsmall : w.nbytes ≤ bucketSize) :
    mergeStep bucketSize empty none (w.chunk 0 w.nbytes) = .ok (none, [w]) := by
  have hdata : (w.chunk 0 w.nbytes).data = w.bytes :=
    getSlice_zero w.bytes (Nat.le_of_eq w.length_eq)
  have hlen : (w.chunk 0 w.nbytes).data.length = w.shape.prod := by rw [hdata, w.length_eq]
  have hw : Weight.mk w.name w.shape (w.chunk 0 w.nbytes).data hlen = w :=
    Weight.ext rfl rfl hdata
  calc mergeStep bucketSize empty none (w.chunk 0 w.nbytes)
      = if h : (w.chunk 0 w.nbytes).data.length = w.shape.prod then
          .ok (none, [⟨w.name, w.shape, (w.chunk 0 w.nbytes).data, h⟩])
        else .error (.runtimeError "shape is invalid for input") := if_pos hsmall
    _ = .ok (none, [w]) := by rw [dif_pos hlen, hw]

theorem splitLoop_of_small (hw : 0 < w.nbytes) (hsmall : w.nbytes ≤ bucketSize) :
    splitLoop bucketSize w w.nbytes 0 = [w.chunk 0 w.nbytes] := by
  obtain ⟨fuel, hfuel⟩ : ∃ fuel, w.nbytes = fuel + 1 := ⟨w.nbytes - 1, by omega⟩
  have hsplit : splitLoop bucketSize w (fuel + 1) 0 = [w.chunk 0 w.nbytes] := by
    unfold splitLoop
    rw [if_pos hw]
    dsimp only
    rw [Nat.sub_zero, Nat.min_eq_right hsmall, Nat.zero_add, splitLoop_eq_nil (Nat.le_refl _)]
  rw [← hsplit, ← hfuel]

theorem mergeLoop_weight (hpos : 0 < bucketSize) (hw : 0 < w.nbytes) :
    mergeLoop bucketSize empty none (splitLoop bucketSize w w.nbytes 0) = .ok (none, [w]) := by
  by_cases hsmall : w.nbytes ≤ bucketSize
  · rw [splitLoop_of_small hw hsmall, mergeLoop_cons, mergeStep_of_small hsmall]
    rfl
  · exact mergeLoop_splitLoop (Nat.lt_of_not_le hsmall) hpos rfl hw (Nat.le_refl _)

variable (empty) in
theorem mergeLoop_split (hpos : 0 < bucketSize) (hw : ∀ w ∈ weights, 0 < w.nbytes) :
    mergeLoop bucketSize empty none (splitWeightChunks bucketSize weights) =
      .ok (none, weights) := by
  induction weights with
  | nil => rfl
  | cons w ws ih =>
    have hcons : splitWeightChunks bucketSize (w :: ws) =
        splitLoop bucketSize w w.nbytes 0 ++ splitWeightChunks bucketSize ws := flatMap_cons
    rw [hcons, mergeLoop_append, mergeLoop_weight hpos (hw w mem_cons_self), ok_bind,
      ih fun v hv => hw v (mem_cons_of_mem _ hv)]
    rfl

theorem mergeWeightChunks_split (hpos : 0 < bucketSize) (ws : WeightList) :
    mergeWeightChunks bucketSize empty (splitWeightChunks bucketSize ws.weights) =
      .ok ws.weights := by
  unfold mergeWeightChunks
  rw [mergeLoop_split empty hpos ws.nonempty]
  rfl

variable (empty) in
theorem mergeWeightChunks_of_prefix (hpos : 0 < bucketSize) (ws : WeightList)
    (h : chunks <+: splitWeightChunks bucketSize ws.weights) :
    ∃ out, mergeWeightChunks bucketSize empty chunks = .ok out ∧ out <+: ws.weights := by
  obtain ⟨rest, hrest⟩ := h
  have hall := mergeLoop_split empty hpos ws.nonempty
  rw [← hrest, mergeLoop_append] at hall
  obtain ⟨r, hr, hall⟩ := bind_eq_ok.1 hall
  obtain ⟨r', -, hall⟩ := bind_eq_ok.1 hall
  refine ⟨r.2, ?_, r'.2, ?_⟩
  · unfold mergeWeightChunks
    rw [hr]
    rfl
  · exact congrArg Prod.snd (Except.ok.inj hall)

/-! ## The position in the bucket -/

/-- The chunk as the generator yielded it, before the sender gave it a place in a bucket. -/
def Chunk.unplaced (c : Chunk) : Chunk :=
  { c with tensorMeta := { c.tensorMeta with offset := none } }

theorem beginMerge_of_unplaced (h : beginMerge empty st c.unplaced.tensorMeta = .ok merge) :
    beginMerge empty st c.tensorMeta = .ok merge := by
  cases st with
  | none =>
    -- the position shows in the message of the assertion only
    obtain ⟨u, hassert, h⟩ := bind_eq_ok.1 h
    have hzero : (c.tensorMeta.chunkOffset == 0) = true := pyAssert_eq_ok.1 hassert
    unfold beginMerge
    rw [hzero]
    exact h
  | some => exact h

theorem mergeStep_of_unplaced {r : Option Merge × List Weight}
    (h : mergeStep bucketSize empty st c.unplaced = .ok r) :
    mergeStep bucketSize empty st c = .ok r := by
  by_cases hsmall : c.tensorMeta.nbytes ≤ bucketSize
  · unfold mergeStep at ⊢
    rw [if_pos hsmall]
    exact (if_pos hsmall).symm.trans h
  · unfold mergeStep at h
    have hlarge := (if_neg hsmall).symm.trans h
    obtain ⟨merge, hbegin, hwrite⟩ := bind_eq_ok.1 hlarge
    rw [mergeStep_eq_writeChunk (Nat.lt_of_not_le hsmall) (beginMerge_of_unplaced hbegin)]
    exact hwrite

theorem mergeLoop_of_unplaced {r : Option Merge × List Weight}
    (h : mergeLoop bucketSize empty st (chunks.map Chunk.unplaced) = .ok r) :
    mergeLoop bucketSize empty st chunks = .ok r := by
  induction chunks generalizing st r with
  | nil => exact h
  | cons c cs ih =>
    obtain ⟨r₁, hstep, h⟩ := bind_eq_ok.1 h
    obtain ⟨r₂, hrest, h⟩ := bind_eq_ok.1 h
    rw [mergeLoop_cons, mergeStep_of_unplaced hstep, ok_bind, ih hrest]
    exact h

theorem mergeWeightChunks_of_unplaced {out : List Weight}
    (h : mergeWeightChunks bucketSize empty (chunks.map Chunk.unplaced) = .ok out) :
    mergeWeightChunks bucketSize empty chunks = .ok out := by
  unfold mergeWeightChunks at ⊢
  obtain ⟨r, hr, h⟩ := bind_eq_ok.1 h
  rw [mergeLoop_of_unplaced hr]
  exact h

end Verl.CheckpointEngine
