import Verl.CheckpointEngine.WeightChunks
import Verl.Lib.Dict
import Verl.Lib.StepSystem

/-! # Broadcasting buckets with two alternating buffers

`NCCLCheckpointEngine`: rank 0 packs chunks into its send buffer and broadcasts it when the
next chunk does not fit; while the broadcast is under way it packs the other buffer.  A
receiver reads one of its buffers while the next bucket arrives in the other one.

    send_weights:           pack* ; flush ; pack* ; flush ; ... ; last
    BroadcastOperation:     sendMeta ; send i, for each receiver i      (rank 0)
                            recvMeta i ; recvData i                     (rank > 0)
    _receive_weight_chunks: advance i ; yield i* ; advance i ; yield i* ; ...

The coroutines and the executor threads of the operations are interleaved in any order.
Metadata (ZeroMQ) and buckets (NCCL) travel to each receiver on two queues that keep their
order.  With `eager` a bucket may be sent before the receiver asks for it, without it only
when the receiver waits for it.

* `broadcast`: the step system. -/

namespace Verl.CheckpointEngine

/-- What `BroadcastOperation` publishes with a bucket. -/
structure Metadata where
  bucketMeta : Dict TensorMeta
  isLast : Bool

/-- A `BroadcastOperation` of rank 0; `bucket` says which of the two buffers it sends. -/
structure SendOp (n : Nat) where
  bucket : Bool
  metadata : Metadata
  metaSent : Bool
  sent : Fin n → Bool

/-- `wait_for_complete` returns. -/
def SendOp.Completed {n : Nat} (op : SendOp n) : Prop :=
  op.metaSent = true ∧ ∀ i, op.sent i = true

instance {n : Nat} (op : SendOp n) : Decidable op.Completed :=
  inferInstanceAs (Decidable (_ ∧ _))

/-- A `BroadcastOperation` of a receiver. -/
structure RecvOp where
  bucket : Bool
  metadata : Option Metadata
  received : Bool

/-! ## The sender -/

/-- The state of `send_weights`; `recv_buf` is the buffer that `sendBuf` is not. -/
structure Sender (bucketSize n : Nat) where
  bufs : Bool → Buffer UInt8 bucketSize
  sendBuf : Bool
  broadcastOp : Option (SendOp n)
  bucketMeta : Dict TensorMeta
  offset : Nat
  /-- What `split_weight_chunks` has still to yield, the chunk at hand included. -/
  todo : List Chunk
  /-- The chunk at hand is past the check at the top of the loop. -/
  flushed : Bool
  /-- The loop is over and the last bucket is posted. -/
  lastPosted : Bool
  error : Option PyErr

namespace Sender

variable {bucketSize n : Nat}

/-- No operation is left to wait for. -/
def Idle (s : Sender bucketSize n) : Prop := ∀ op ∈ s.broadcastOp, op.Completed

instance (s : Sender bucketSize n) : Decidable s.Idle :=
  match h : s.broadcastOp with
  | none => .isTrue fun op hop => by rw [h] at hop; cases hop
  | some op => decidable_of_iff op.Completed (by
      unfold Idle
      rw [h]
      exact ⟨fun hc op' hop' => by cases hop'; exact hc, fun hc => hc op rfl⟩)

/-- Whether the chunk at hand can go into the current bucket; `none` behind the last one. -/
def nextFits (s : Sender bucketSize n) : Option Bool :=
  s.todo.head?.map fun c =>
    s.flushed || decide (s.offset + c.tensorMeta.chunkSize ≤ bucketSize)

/-- `broadcast_op = BroadcastOperation(...)` with the current bucket. -/
def post (s : Sender bucketSize n) (isLast : Bool) : Sender bucketSize n :=
  { s with
    broadcastOp := some
      { bucket := s.sendBuf
        metadata := { bucketMeta := s.bucketMeta, isLast := isLast }
        metaSent := false
        sent := fun _ => false } }

/-- The block under `if offset + tensor_meta.chunk_size > self.bucket_size`. -/
def flush (s : Sender bucketSize n) : Sender bucketSize n :=
  { s.post false with
    sendBuf := !s.sendBuf
    bucketMeta := Dict.empty
    offset := 0
    flushed := true }

/-- The rest of the loop body: the chunk goes into the current bucket. -/
def store (s : Sender bucketSize n) (c : Chunk) : Except PyErr (Sender bucketSize n) := do
  let tensorMeta := c.tensorMeta
  pyAssert (decide (s.offset + tensorMeta.chunkSize ≤ bucketSize)) ""
  pyAssert (!decide (tensorMeta.name ∈ s.bucketMeta.keys)) ""
  match (s.bufs s.sendBuf).assign s.offset tensorMeta.chunkSize c.data with
  | none => .error (.valueError "could not broadcast input array into shape")
  | some buf =>
    .ok { s with
          bucketMeta := s.bucketMeta.insert tensorMeta.name
            { tensorMeta with offset := some s.offset }
          bufs := Function.update s.bufs s.sendBuf buf
          offset := s.offset + tensorMeta.chunkSize
          flushed := false }

def pack (s : Sender bucketSize n) : Sender bucketSize n :=
  match s.todo with
  | [] => s
  | c :: rest =>
    match s.store c with
    | .ok s' => { s' with todo := rest }
    | .error e => { s with error := some e }

end Sender

/-! ## The receivers -/

/-- The state of `_receive_weight_chunks`, and the messages on their way to it. -/
structure Receiver (bucketSize : Nat) where
  bufs : Bool → Buffer UInt8 bucketSize
  sendBuf : Bool
  broadcastOp : Option RecvOp
  /-- The metadata of the chunks not yet read; the first one may be being read. -/
  yielding : List TensorMeta
  /-- History: the chunks that were yielded and read. -/
  yielded : List Chunk
  metas : List Metadata
  datas : List (Buffer UInt8 bucketSize)
  error : Option PyErr

namespace Receiver

variable {bucketSize : Nat}

/-- The next `BroadcastOperation`, which receives into `bucket`. -/
def nextOp (bucket : Bool) : RecvOp where
  bucket := bucket
  metadata := none
  received := false

/-- The operation waits for metadata. -/
def awaitsMeta (r : Receiver bucketSize) : Bool :=
  r.broadcastOp.any fun op => op.metadata.isNone

/-- The operation has its metadata and waits for the bucket. -/
def awaitsData (r : Receiver bucketSize) : Bool :=
  r.broadcastOp.any fun op => op.metadata.isSome && !op.received

/-- The operation is complete. -/
def hasReceived (r : Receiver bucketSize) : Bool :=
  r.broadcastOp.any fun op => op.received

/-- `self.metadata = self.socket.recv_pyobj()`. -/
def recvMeta (r : Receiver bucketSize) : Receiver bucketSize :=
  match r.broadcastOp, r.metas with
  | some op, metadata :: metas =>
    { r with broadcastOp := some { op with metadata := some metadata }, metas := metas }
  | _, _ => r

/-- `collective.broadcast(self.bucket, ...)` of a receiver. -/
def recvData (r : Receiver bucketSize) : Receiver bucketSize :=
  match r.broadcastOp, r.datas with
  | some op, data :: datas =>
    { r with
      broadcastOp := some { op with received := true }
      bufs := Function.update r.bufs op.bucket data
      datas := datas }
  | _, _ => r

/-- From `await broadcast_op.wait_for_complete()` to the first `yield` behind it. -/
def advance (r : Receiver bucketSize) : Receiver bucketSize :=
  match r.broadcastOp with
  | some { metadata := some metadata, .. } =>
    { r with
      sendBuf := !r.sendBuf
      broadcastOp := if metadata.isLast then none else some (nextOp r.sendBuf)
      yielding := metadata.bucketMeta.items.map Prod.snd }
  | _ => r

/-- The consumer has read the chunk and resumes the generator. -/
def yield (r : Receiver bucketSize) : Receiver bucketSize :=
  match r.yielding with
  | [] => r
  | tensorMeta :: rest =>
    match tensorMeta.offset with
    | none => { r with error := some (.typeError "unsupported operand type(s) for +") }
    | some offset =>
      let tensor := (r.bufs r.sendBuf).slice offset tensorMeta.chunkSize
      { r with
        yielded := r.yielded ++ [{ tensorMeta := tensorMeta, data := tensor }]
        yielding := rest }

/-- What `receive_weights` has yielded so far. -/
def received (empty : Uninitialized) (r : Receiver bucketSize) : Except PyErr (List Weight) :=
  mergeWeightChunks bucketSize empty r.yielded

end Receiver

/-! ## Steps -/

structure State (bucketSize n : Nat) where
  sender : Sender bucketSize n
  receivers : Fin n → Receiver bucketSize

namespace State

variable {bucketSize n : Nat}

/-- The buffers that `prepare` makes. -/
def zeros (bucketSize : Nat) : Bool → Buffer UInt8 bucketSize :=
  fun _ => Buffer.replicate bucketSize 0

def initial (bucketSize n : Nat) (weights : List Weight) : State bucketSize n where
  sender :=
    { bufs := zeros bucketSize
      sendBuf := false
      broadcastOp := none
      bucketMeta := Dict.empty
      offset := 0
      todo := splitWeightChunks bucketSize weights
      flushed := false
      lastPosted := false
      error := none }
  receivers := fun _ =>
    { bufs := zeros bucketSize
      sendBuf := false
      broadcastOp := some (Receiver.nextOp true)
      yielding := []
      yielded := []
      metas := []
      datas := []
      error := none }

/-- `_run` of rank 0, first half: the metadata go to all receivers. -/
def sendMeta (s : State bucketSize n) : State bucketSize n :=
  match s.sender.broadcastOp with
  | none => s
  | some op =>
    { sender := { s.sender with broadcastOp := some { op with metaSent := true } }
      receivers := fun i =>
        { s.receivers i with metas := (s.receivers i).metas ++ [op.metadata] } }

/-- `_run` of rank 0, second half: the buffer as it is now goes to receiver `i`. -/
def send (s : State bucketSize n) (i : Fin n) : State bucketSize n :=
  match s.sender.broadcastOp with
  | none => s
  | some op =>
    { sender :=
        { s.sender with
          broadcastOp := some { op with sent := Function.update op.sent i true } }
      receivers := Function.update s.receivers i
        { s.receivers i with
          datas := (s.receivers i).datas ++ [s.sender.bufs op.bucket] } }

/-- Receiver `i` takes a step of its own. -/
def onReceiver (s : State bucketSize n) (i : Fin n)
    (f : Receiver bucketSize → Receiver bucketSize) : State bucketSize n :=
  { s with receivers := Function.update s.receivers i (f (s.receivers i)) }

end State

inductive Action (n : Nat)
  | pack
  | flush
  | last
  | sendMeta
  | send (i : Fin n)
  | recvMeta (i : Fin n)
  | recvData (i : Fin n)
  | advance (i : Fin n)
  | yield (i : Fin n)
  deriving DecidableEq, Repr

variable {bucketSize n : Nat}

def broadcast (eager : Bool) : StepSystem (State bucketSize n) (Action n)
  | .pack => {
      guard := fun s => s.sender.error = none ∧ s.sender.nextFits = some true
      effect := fun s => { s with sender := s.sender.pack } }
  | .flush => {
      guard := fun s => s.sender.error = none ∧ s.sender.nextFits = some false ∧ s.sender.Idle
      effect := fun s => { s with sender := s.sender.flush } }
  | .last => {
      guard := fun s => s.sender.error = none ∧ s.sender.nextFits = none ∧
        s.sender.lastPosted = false ∧ s.sender.Idle
      effect := fun s => { s with sender := { s.sender.post true with lastPosted := true } } }
  | .sendMeta => {
      guard := fun s => s.sender.broadcastOp.any (fun op => !op.metaSent) = true
      effect := State.sendMeta }
  | .send i => {
      guard := fun s => s.sender.broadcastOp.any (fun op => op.metaSent && !op.sent i) = true ∧
        (eager || (s.receivers i).awaitsData) = true
      effect := fun s => s.send i }
  | .recvMeta i => {
      guard := fun s => (s.receivers i).awaitsMeta = true ∧ (s.receivers i).metas.isEmpty = false
      effect := fun s => s.onReceiver i Receiver.recvMeta }
  | .recvData i => {
      guard := fun s => (s.receivers i).awaitsData = true ∧ (s.receivers i).datas.isEmpty = false
      effect := fun s => s.onReceiver i Receiver.recvData }
  | .advance i => {
      guard := fun s => (s.receivers i).error = none ∧ (s.receivers i).hasReceived = true ∧
        (s.receivers i).yielding.isEmpty = true
      effect := fun s => s.onReceiver i Receiver.advance }
  | .yield i => {
      guard := fun s => (s.receivers i).error = none ∧ (s.receivers i).yielding.isEmpty = false
      effect := fun s => s.onReceiver i Receiver.yield }

end Verl.CheckpointEngine
