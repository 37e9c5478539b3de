import Verl.CheckpointEngine.WeightChunks
import Verl.Lib.Dict
import Verl.Lib.Packing

/-! # Weights with a dtype in buckets of bytes

Two transports put weights behind each other into a buffer of bytes, the bytes of which the receiver
views as the dtype again; the view takes an offset that is a multiple of the element size.

    bf16 [1]  fp32 [1]        2 bytes at 0, 4 bytes at 2

* `ncclTransfer`: the chunks of `split_weight_chunks`, packed by `send_weights` of the NCCL engine
  and put together by `merge_weight_chunks`.
* `bucketedTransfer`: `BucketedWeightSender` and `BucketedWeightReceiver`. -/

namespace Verl.TypedWeights

open CheckpointEngine (Merge Uninitialized)

/-! ## Weights -/

structure DType where
  name : String
  itemsize : Nat
  itemsize_pos : 0 < itemsize
  deriving DecidableEq

/-- `bytes` is `weight.view(-1).view(torch.uint8)`. -/
@[ext] structure Weight where
  name : String
  dtype : DType
  shape : List Nat
  bytes : List UInt8
  length_eq : bytes.length = shape.prod * dtype.itemsize
  deriving DecidableEq

def Weight.nbytes (w : Weight) : Nat := w.shape.prod * w.dtype.itemsize

/-- `tensor.view(dtype).view(shape)`, for a tensor of bytes at an offset of its storage. -/
def viewAs (name : String) (dtype : DType) (shape : List Nat) (storageOffset : Nat)
    (bytes : List UInt8) : Except PyErr Weight :=
  if ¬dtype.itemsize ∣ storageOffset then
    .error (.runtimeError "self.storage_offset() must be divisible by the size of the dtype")
  else if h : bytes.length = shape.prod * dtype.itemsize then .ok ⟨name, dtype, shape, bytes, h⟩
  else .error (.runtimeError "shape is invalid for input")

/-! ## Chunks (`verl/checkpoint_engine/base.py`) -/

structure TensorMeta where
  name : String
  shape : List Nat
  dtype : DType
  chunkOffset : Nat
  chunkSize : Nat
  offset : Option Nat
  deriving DecidableEq

def TensorMeta.nbytes (m : TensorMeta) : Nat := m.shape.prod * m.dtype.itemsize

structure Chunk where
  tensorMeta : TensorMeta
  data : List UInt8
  deriving DecidableEq

def Chunk.size (c : Chunk) : Nat := c.tensorMeta.chunkSize

/-- The weight as a tensor of bytes. -/
def Weight.asBytes (w : Weight) : CheckpointEngine.Weight where
  name := w.name
  shape := [w.nbytes]
  bytes := w.bytes
  length_eq := w.length_eq.trans (Nat.mul_one _).symm

/-- A chunk of `w`, from one of its bytes. -/
def Weight.retype (w : Weight) (c : CheckpointEngine.Chunk) : Chunk where
  tensorMeta :=
    { name := w.name
      shape := w.shape
      dtype := w.dtype
      chunkOffset := c.tensorMeta.chunkOffset
      chunkSize := c.tensorMeta.chunkSize
      offset := c.tensorMeta.offset }
  data := c.data

/-- The chunk, of a tensor of bytes. -/
def Chunk.asBytes (c : Chunk) : CheckpointEngine.Chunk where
  tensorMeta :=
    { name := c.tensorMeta.name
      shape := [c.tensorMeta.nbytes]
      chunkOffset := c.tensorMeta.chunkOffset
      chunkSize := c.tensorMeta.chunkSize
      offset := c.tensorMeta.offset }
  data := c.data

/-- The chunks of a weight. -/
def splitWeight (bucketSize : Nat) (w : Weight) : List Chunk :=
  (CheckpointEngine.splitLoop bucketSize w.asBytes w.nbytes 0).map w.retype

def splitWeightChunks (bucketSize : Nat) (weights : List Weight) : List Chunk :=
  weights.flatMap (splitWeight bucketSize)

section Merge

variable (bucketSize : Nat) (empty : Uninitialized)

/-- One round of `merge_weight_chunks`, for a chunk at an offset of the received buffer; a weight
larger than a bucket has a memory of its own. -/
def mergeStep (st : Option Merge) (c : Chunk) (storageOffset : Nat) :
    Except PyErr (Option Merge × List Weight) :=
  let m := c.tensorMeta
  if m.nbytes ≤ bucketSize then do
    pyAssert st.isNone ("Weight must be None, but got " ++ (st.map Merge.name).getD "None")
    let weight ← viewAs m.name m.dtype m.shape storageOffset c.data
    return (none, [weight])
  else do
    let merge ← CheckpointEngine.beginMerge empty st c.asBytes.tensorMeta
    let (st, out) ← CheckpointEngine.writeChunk merge c.asBytes
    let weights ← out.mapM fun w => viewAs w.name m.dtype m.shape 0 w.bytes
    return (st, weights)

def mergeLoop : Option Merge → List (Chunk × Nat) → Except PyErr (List Weight)
  | _, [] => .ok []
  | st, c :: cs => do
    let (st, out) ← mergeStep bucketSize empty st c.1 c.2
    let outs ← mergeLoop st cs
    return out ++ outs

end Merge

/-! ## `NCCLCheckpointEngine` -/

/-- A bucket that is broadcast, with its metadata. -/
structure Message (bucketSize : Nat) where
  bucketMeta : Dict TensorMeta
  bucket : Buffer UInt8 bucketSize
  isLast : Bool

structure Sender (bucketSize : Nat) where
  sendBuf : Buffer UInt8 bucketSize
  recvBuf : Buffer UInt8 bucketSize
  bucketMeta : Dict TensorMeta
  offset : Nat
  posted : List (Message bucketSize)

namespace Sender

variable {bucketSize : Nat}

def post (s : Sender bucketSize) (isLast : Bool) : Sender bucketSize :=
  { s with posted := s.posted ++ [⟨s.bucketMeta, s.sendBuf, isLast⟩] }

/-- The bucket is broadcast, and the other buffer is filled. -/
def flush (s : Sender bucketSize) : Sender bucketSize :=
  { s.post false with
    sendBuf := s.recvBuf
    recvBuf := s.sendBuf
    bucketMeta := Dict.empty
    offset := 0 }

def store (s : Sender bucketSize) (c : Chunk) : Except PyErr (Sender bucketSize) := do
  let m := c.tensorMeta
  pyAssert (s.offset + m.chunkSize ≤ bucketSize) ""
  pyAssert (!s.bucketMeta.keys.contains m.name) ""
  match s.sendBuf.assign s.offset m.chunkSize c.data with
  | none => throw (.valueError "could not broadcast input array")
  | some sendBuf => return { s with
      sendBuf := sendBuf
      bucketMeta := s.bucketMeta.insert m.name { m with offset := some s.offset }
      offset := s.offset + m.chunkSize }

/-- One round of the loop. -/
def step (s : Sender bucketSize) (c : Chunk) : Except PyErr (Sender bucketSize) :=
  if s.offset + c.tensorMeta.chunkSize > bucketSize then s.flush.store c else s.store c

end Sender

/-- `send_weights`: what is broadcast. -/
def sendWeights {bucketSize : Nat} (sendBuf recvBuf : Buffer UInt8 bucketSize)
    (weights : List Weight) : Except PyErr (List (Message bucketSize)) := do
  let s ← (splitWeightChunks bucketSize weights).foldlM Sender.step
    ⟨sendBuf, recvBuf, Dict.empty, 0, []⟩
  return (s.post true).posted

/-- The chunks of a bucket, as they are in the received buffer. -/
def Message.chunks {bucketSize : Nat} (m : Message bucketSize) : List (Chunk × Nat) :=
  m.bucketMeta.items.map fun p =>
    let offset := p.2.offset.getD 0
    (⟨p.2, m.bucket.slice offset p.2.chunkSize⟩, offset)

/-- What the receivers yield of what is sent. -/
def ncclTransfer {bucketSize : Nat} (empty : Uninitialized)
    (sendBuf recvBuf : Buffer UInt8 bucketSize) (weights : List Weight) :
    Except PyErr (List Weight) := do
  let messages ← sendWeights sendBuf recvBuf weights
  mergeLoop bucketSize empty none (messages.flatMap Message.chunks)

/-! ## `BucketedWeightSender` and `BucketedWeightReceiver` -/

/-- `handle` is the memory of a weight that is shared itself. -/
structure TensorMetadata where
  name : String
  shape : List Nat
  dtype : DType
  offset : Nat
  handle : Option Weight
  deriving DecidableEq

/-- The metadata that is sent, and the buffer as the receiver sees it then. -/
structure BucketMessage (bucketSize : Nat) where
  bucketMeta : Dict TensorMetadata
  buffer : Buffer UInt8 bucketSize
  isLast : Bool

structure BucketSender (bucketSize : Nat) where
  buffer : Buffer UInt8 bucketSize
  bucketMeta : Dict TensorMetadata
  offset : Nat
  sent : List (BucketMessage bucketSize)

namespace BucketSender

variable {bucketSize : Nat}

def sendObj (s : BucketSender bucketSize) (bucketMeta : Dict TensorMetadata) (isLast : Bool) :
    BucketSender bucketSize :=
  { s with sent := s.sent ++ [⟨bucketMeta, s.buffer, isLast⟩] }

def flush (s : BucketSender bucketSize) : BucketSender bucketSize :=
  { s.sendObj s.bucketMeta false with
    bucketMeta := Dict.empty
    offset := 0 }

def directSendLargeWeight (s : BucketSender bucketSize) (w : Weight) : BucketSender bucketSize :=
  s.sendObj (Dict.empty.insert w.name ⟨w.name, w.shape, w.dtype, 0, some w⟩) false

/-- A weight behind the others of the bucket, or for itself. -/
def store (useShm : Bool) (s : BucketSender bucketSize) (w : Weight) :
    Except PyErr (BucketSender bucketSize) :=
  if s.offset + w.nbytes > bucketSize then do
    pyAssert (!useShm) s!"Weight {w.name} is too large to fit in the bucket."
    return s.directSendLargeWeight w
  else
    match s.buffer.assign s.offset w.nbytes w.bytes with
    | none => .error (.runtimeError "The size of the tensor must match the size of the other")
    | some buffer => .ok { s with
        buffer := buffer
        bucketMeta := s.bucketMeta.insert w.name ⟨w.name, w.shape, w.dtype, s.offset, none⟩
        offset := s.offset + w.nbytes }

/-- One round of the loop. -/
def step (useShm : Bool) (s : BucketSender bucketSize) (w : Weight) :
    Except PyErr (BucketSender bucketSize) :=
  if s.offset + w.nbytes > bucketSize ∧ 0 < s.bucketMeta.items.length then
    s.flush.store useShm w
  else s.store useShm w

end BucketSender

/-- `async_send_weights`: what is sent. -/
def asyncSendWeights {bucketSize : Nat} (useShm : Bool) (buffer : Buffer UInt8 bucketSize)
    (weights : List Weight) : Except PyErr (List (BucketMessage bucketSize)) := do
  let s ← weights.foldlM (BucketSender.step useShm) ⟨buffer, Dict.empty, 0, []⟩
  return (s.sendObj s.bucketMeta true).sent

/-- The weights that are handed to the callback for a bucket. -/
def BucketMessage.weights {bucketSize : Nat} (m : BucketMessage bucketSize) :
    Except PyErr (List Weight) :=
  m.bucketMeta.items.mapM fun p =>
    match p.2.handle with
    | some weight => .ok weight
    | none => viewAs p.1 p.2.dtype p.2.shape p.2.offset
        (m.buffer.slice p.2.offset (p.2.dtype.itemsize * p.2.shape.prod))

/-- What the receiver gets of what is sent. -/
def bucketedTransfer {bucketSize : Nat} (useShm : Bool) (buffer : Buffer UInt8 bucketSize)
    (weights : List Weight) : Except PyErr (List Weight) := do
  let messages ← asyncSendWeights useShm buffer weights
  let received ← messages.mapM BucketMessage.weights
  return received.flatten

/-! ## Property -/

/-- A chunk can be viewed as its dtype where it is; the chunks of a weight larger than a bucket are
not viewed there. -/
def ChunkAligned (bucketSize : Nat) (c : Chunk) (offset : Nat) : Prop :=
  c.tensorMeta.nbytes ≤ bucketSize → c.tensorMeta.dtype.itemsize ∣ offset

/-- Every weight has a byte, and where the chunks are cut into the longest stretches that fit into a
bucket, every small weight is behind a multiple of its element size. -/
def NcclReady (bucketSize : Nat) (weights : List Weight) : Prop :=
  (∀ w ∈ weights, 0 < w.nbytes) ∧
    PackedAt Chunk.size bucketSize (ChunkAligned bucketSize)
      (splitWeightChunks bucketSize weights)

/-- With shared memory every weight fits into a bucket, and where the weights are cut into the
longest stretches that fit, every one is behind a multiple of its element size. -/
def BucketedReady (useShm : Bool) (bucketSize : Nat) (weights : List Weight) : Prop :=
  (useShm = true → ∀ w ∈ weights, w.nbytes ≤ bucketSize) ∧
    PackedAt Weight.nbytes bucketSize (fun w offset => w.dtype.itemsize ∣ offset) weights

end Verl.TypedWeights
