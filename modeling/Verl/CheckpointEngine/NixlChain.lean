import Verl.CheckpointEngine.Broadcast
import Verl.CheckpointEngine.ChainRanks

/-! # Relaying buckets along a chain of agents

`NIXLCheckpointEngine`: the trainer (rank 0) packs buckets and lets the first rollout worker
read them; a worker that has read a bucket lets the next one read it, reads the following
bucket into its other buffer meanwhile, and yields the tensors of the first.

    trainer ==link 0==> worker 0 ==link 1==> worker 1 ==link 2==> ... worker (n - 1)

    link i:   messages, with the place of a bucket  ->   notifications, of a finished read  <-

    send_weights:           pack* ; wait ; flush ; pack* ; wait ; flush ; ... ; wait ; last ; wait
    _receive_weight_chunks: readMetadata ; beginRead ; advance ;
                            publish ; readMetadata ; beginRead ; yield* ; waitReadable ; advance ;
                            ... ; publish ; yield* ; waitReadable
    the NIXL library:       finishRead, at any time after beginRead

Every agent is a process of its own, so the steps of all agents are interleaved in any order.  A
transfer does not fail, and a finished one leaves its notification with the agent that was read
from: `get_notification` of an agent sees those of the next agent only, as no other one reads
from it.  The values of `uuid4` are a parameter. -/

namespace Verl.CheckpointEngine.Nixl

/-- `uuid.uuid4().bytes`. -/
abbrev NotifyKey := List UInt8

/-- What a `ReadableOperation` sends; `remoteDescs` is the buffer of its agent. -/
structure ReadableMessage where
  notifyKey : NotifyKey
  remoteDescs : Bool
  metadata : Metadata

structure ReadableOperation where
  notifyKey : NotifyKey
  localDescs : Bool

/-- What `check_xfer_state` says of a transfer. -/
inductive XferState
  | proc
  | done
  deriving DecidableEq, Repr

/-- A `ReadOperation`; `message` is what `read_metadata` took, a handle is there from
`begin_read` on. -/
structure ReadOperation where
  localDescs : Bool
  message : Option ReadableMessage
  xferHandle : Option XferState

/-! ## From an agent to the next one -/

/-- The `ReadableOperation` an agent has still to wait for, and what is under way between it and
the next agent. -/
structure Link where
  readableOp : Option ReadableOperation
  messages : List ReadableMessage
  notifications : List NotifyKey
  /-- The operations that were made so far. -/
  ops : Nat

namespace Link

/-- `ReadableOperation(agent, next_agent, send_descs, metadata)`. -/
def post (l : Link) (uuid : Nat → NotifyKey) (sendDescs : Bool) (metadata : Metadata) : Link :=
  { l with
    readableOp := some { notifyKey := uuid l.ops, localDescs := sendDescs }
    messages := l.messages ++
      [{ notifyKey := uuid l.ops, remoteDescs := sendDescs, metadata := metadata }]
    ops := l.ops + 1 }

/-- `readable_op.wait_for_complete()`, once there is a notification. -/
def waitForComplete (l : Link) : Except PyErr Link :=
  match l.readableOp, l.notifications with
  | some op, notification :: notifications => do
    pyAssert (op.notifyKey == notification)
      s!"Notify key {op.notifyKey} not equal to {notification}"
    .ok { l with readableOp := none, notifications := notifications }
  | _, _ => .ok l

/-- There is an operation to wait for, and a notification has come. -/
def Notified (l : Link) : Prop := l.readableOp.isSome = true ∧ l.notifications.isEmpty = false

instance (l : Link) : Decidable l.Notified := inferInstanceAs (Decidable (_ ∧ _))

end Link

/-! ## The trainer -/

/-- The state of `send_weights`. -/
structure Trainer (bucketSize : Nat) where
  bufs : Bool → Buffer UInt8 bucketSize
  sendBuf : Bool
  bucketMeta : Dict TensorMeta
  offset : Nat
  /-- What `split_weight_chunks` has still to yield, the chunk at hand included. -/
  todo : List Chunk
  /-- The chunk at hand is past the check at the top of the loop. -/
  flushed : Bool
  /-- The loop is over and the last bucket is posted. -/
  lastPosted : Bool
  error : Option PyErr

namespace Trainer

variable {bucketSize : Nat}

/-- Whether the chunk at hand can go into the current bucket; `none` behind the last one. -/
def nextFits (t : Trainer bucketSize) : Option Bool :=
  t.todo.head?.map fun c =>
    t.flushed || decide (t.offset + c.tensorMeta.chunkSize ≤ bucketSize)

/-- What is left of the block under `if offset + tensor_meta.chunk_size > self.bucket_size` when
the bucket is posted. -/
def swap (t : Trainer bucketSize) : Trainer bucketSize :=
  { t with
    sendBuf := !t.sendBuf
    bucketMeta := Dict.empty
    offset := 0
    flushed := true }

/-- The rest of the loop body: the chunk goes into the current bucket. -/
def store (t : Trainer bucketSize) (c : Chunk) : Except PyErr (Trainer bucketSize) := do
  let tensorMeta := c.tensorMeta
  pyAssert (decide (t.offset + tensorMeta.chunkSize ≤ bucketSize)) ""
  pyAssert (!decide (tensorMeta.name ∈ t.bucketMeta.keys)) ""
  match (t.bufs t.sendBuf).assign t.offset tensorMeta.chunkSize c.data with
  | none => .error (.runtimeError "The size of tensor a must match the size of tensor b")
  | some buf =>
    .ok { t with
          bucketMeta := t.bucketMeta.insert tensorMeta.name
            { tensorMeta with offset := some t.offset }
          bufs := Function.update t.bufs t.sendBuf buf
          offset := t.offset + tensorMeta.chunkSize
          flushed := false }

def pack (t : Trainer bucketSize) : Trainer bucketSize :=
  match t.todo with
  | [] => t
  | c :: rest =>
    match t.store c with
    | .ok t' => { t' with todo := rest }
    | .error e => { t with error := some e }

end Trainer

/-! ## The rollout workers -/

/-- The state of `_receive_weight_chunks`. -/
structure Worker (bucketSize : Nat) where
  bufs : Bool → Buffer UInt8 bucketSize
  sendBuf : Bool
  /-- The metadata of the bucket in `sendBuf`, from the swap to its `ReadableOperation`. -/
  metadata : Option Metadata
  readOp : Option ReadOperation
  /-- The metadata of the chunks not yet read; the first one may be being read. -/
  yielding : List TensorMeta
  /-- History: the chunks that were yielded and read. -/
  yielded : List Chunk
  error : Option PyErr

namespace Worker

variable {bucketSize : Nat}

/-- `ReadOperation(agent, prev_agent, recv_descs, bucket_size)`. -/
def nextOp (recvDescs : Bool) : ReadOperation where
  localDescs := recvDescs
  message := none
  xferHandle := none

/-- The coroutine is in `read_metadata`. -/
def awaitsMessage (w : Worker bucketSize) : Bool := w.readOp.any fun op => op.message.isNone

/-- The coroutine is in front of `begin_read`. -/
def canBegin (w : Worker bucketSize) : Bool :=
  w.readOp.any fun op => op.message.isSome && op.xferHandle.isNone

/-- The transfer is under way. -/
def inFlight (w : Worker bucketSize) : Option ReadableMessage :=
  match w.readOp with
  | some { message := some message, xferHandle := some .proc, .. } => some message
  | _ => none

/-- The transfer is finished. -/
def hasRead (w : Worker bucketSize) : Bool :=
  w.readOp.any fun op => op.xferHandle = some .done

/-- The coroutine is past `begin_read`, or there is nothing left to read. -/
def pastBegin (w : Worker bucketSize) : Bool := w.readOp.all fun op => op.xferHandle.isSome

def readMetadata (w : Worker bucketSize) (message : ReadableMessage) : Worker bucketSize :=
  { w with readOp := w.readOp.map fun op => { op with message := some message } }

def beginRead (w : Worker bucketSize) : Worker bucketSize :=
  { w with readOp := w.readOp.map fun op => { op with xferHandle := some .proc } }

/-- The bytes of the remote buffer are in the local one. -/
def finishRead (w : Worker bucketSize) (data : Buffer UInt8 bucketSize) : Worker bucketSize :=
  match w.readOp with
  | none => w
  | some op =>
    { w with
      bufs := Function.update w.bufs op.localDescs data
      readOp := some { op with xferHandle := some .done } }

/-- `read_op.wait_for_complete()` returns and the buffers are swapped. -/
def advance (w : Worker bucketSize) : Worker bucketSize :=
  match w.readOp with
  | some { message := some message, .. } =>
    { w with
      sendBuf := !w.sendBuf
      metadata := some message.metadata
      readOp := none }
  | _ => w

/-- From the top of the loop, or from behind it, to the next `await` or `yield`. -/
def publish (w : Worker bucketSize) (metadata : Metadata) : Worker bucketSize :=
  { w with
    metadata := none
    readOp := if metadata.isLast then none else some (nextOp !w.sendBuf)
    yielding := metadata.bucketMeta.items.map Prod.snd }

/-- The consumer has read the chunk and resumes the generator. -/
def yield (w : Worker bucketSize) : Worker bucketSize :=
  match w.yielding with
  | [] => w
  | tensorMeta :: rest =>
    match tensorMeta.offset with
    | none => { w with error := some (.typeError "unsupported operand type(s) for +") }
    | some offset =>
      let tensor := (w.bufs w.sendBuf).slice offset tensorMeta.chunkSize
      { w with
        yielded := w.yielded ++ [{ tensorMeta := tensorMeta, data := tensor }]
        yielding := rest }

/-- What `receive_weights` has yielded so far. -/
def received (empty : Uninitialized) (w : Worker bucketSize) : Except PyErr (List Weight) :=
  mergeWeightChunks bucketSize empty w.yielded

end Worker

/-! ## Steps -/

structure State (bucketSize n : Nat) where
  trainer : Trainer bucketSize
  workers : Fin n → Worker bucketSize
  /-- `links i` leads to worker `i`. -/
  links : Fin n → Link

namespace State

variable {bucketSize n : Nat}

/-- The buffers of the agent of this rank. -/
def bufs (s : State bucketSize n) (rank : Fin (n + 1)) : Bool → Buffer UInt8 bucketSize :=
  Fin.cases s.trainer.bufs (fun i => (s.workers i).bufs) rank

/-- The `ReadableOperation` that the agent has still to wait for. -/
def readableOp (s : State bucketSize n) (rank : Fin (n + 1)) : Option ReadableOperation :=
  (nextLink rank).bind fun i => (s.links i).readableOp

/-- The operation is complete. -/
def Notified (s : State bucketSize n) (rank : Fin (n + 1)) : Prop :=
  ∃ i ∈ nextLink rank, (s.links i).Notified

instance (s : State bucketSize n) (rank : Fin (n + 1)) : Decidable (s.Notified rank) :=
  match h : nextLink rank with
  | none => .isFalse fun hn => by
      obtain ⟨i, hi, -⟩ := hn
      rw [h] at hi
      cases hi
  | some i => decidable_of_iff (s.links i).Notified (by
      unfold Notified
      rw [h]
      constructor
      · exact fun hn => ⟨i, rfl, hn⟩
      · rintro ⟨j, hj, hn⟩
        cases hj
        exact hn)

/-- The buffers that `prepare` makes. -/
def zeros (bucketSize : Nat) : Bool → Buffer UInt8 bucketSize :=
  fun _ => Buffer.replicate bucketSize 0

def initial (bucketSize n : Nat) (weights : List Weight) : State bucketSize n where
  trainer :=
    { bufs := zeros bucketSize
      sendBuf := false
      bucketMeta := Dict.empty
      offset := 0
      todo := splitWeightChunks bucketSize weights
      flushed := false
      lastPosted := false
      error := if n = 0 then some (.assertionError "Next agent is not set.") else none }
  workers := fun _ =>
    { bufs := zeros bucketSize
      sendBuf := false
      metadata := none
      readOp := some (Worker.nextOp true)
      yielding := []
      yielded := []
      error := none }
  links := fun _ =>
    { readableOp := none
      messages := []
      notifications := []
      ops := 0 }

variable (uuid : Fin (n + 1) → Nat → NotifyKey)

/-- The agent of this rank makes a `ReadableOperation`, if there is a next agent. -/
def postLinks (s : State bucketSize n) (rank : Fin (n + 1)) (sendDescs : Bool)
    (metadata : Metadata) : Fin n → Link :=
  match nextLink rank with
  | none => s.links
  | some i => Function.update s.links i ((s.links i).post (uuid rank) sendDescs metadata)

/-- The trainer lets the current bucket be read and swaps the buffers. -/
def flush (s : State bucketSize n) : State bucketSize n :=
  { s with
    trainer := s.trainer.swap
    links := s.postLinks uuid 0 s.trainer.sendBuf
      { bucketMeta := s.trainer.bucketMeta, isLast := false } }

/-- The loop of `send_weights` is over. -/
def last (s : State bucketSize n) : State bucketSize n :=
  { s with
    trainer := { s.trainer with lastPosted := true }
    links := s.postLinks uuid 0 s.trainer.sendBuf
      { bucketMeta := s.trainer.bucketMeta, isLast := true } }

/-- The trainer is at an `await readable_op.wait_for_complete()`. -/
def wait (s : State bucketSize n) : State bucketSize n :=
  match nextLink (0 : Fin (n + 1)) with
  | none => s
  | some i =>
    match (s.links i).waitForComplete with
    | .ok l => { s with links := Function.update s.links i l }
    | .error e => { s with trainer := { s.trainer with error := some e } }

/-- Worker `i` takes a step of its own. -/
def onWorker (s : State bucketSize n) (i : Fin n)
    (f : Worker bucketSize → Worker bucketSize) : State bucketSize n :=
  { s with workers := Function.update s.workers i (f (s.workers i)) }

def readMetadata (s : State bucketSize n) (i : Fin n) : State bucketSize n :=
  match (s.links i).messages with
  | [] => s
  | message :: messages =>
    { s.onWorker i fun w => w.readMetadata message with
      links := Function.update s.links i { s.links i with messages := messages } }

/-- The library has transferred the bytes and notifies the agent they were read from. -/
def finishRead (s : State bucketSize n) (i : Fin n) : State bucketSize n :=
  match (s.workers i).inFlight with
  | none => s
  | some message =>
    { s.onWorker i fun w => w.finishRead (s.bufs i.castSucc message.remoteDescs) with
      links := Function.update s.links i
        { s.links i with notifications := (s.links i).notifications ++ [message.notifyKey] } }

def publish (s : State bucketSize n) (i : Fin n) : State bucketSize n :=
  match (s.workers i).metadata with
  | none => s
  | some metadata =>
    { s.onWorker i fun w => w.publish metadata with
      links := s.postLinks uuid i.succ (s.workers i).sendBuf metadata }

def waitReadable (s : State bucketSize n) (i : Fin n) : State bucketSize n :=
  match nextLink i.succ with
  | none => s
  | some j =>
    match (s.links j).waitForComplete with
    | .ok l => { s with links := Function.update s.links j l }
    | .error e => s.onWorker i fun w => { w with error := some e }

end State

inductive Action (n : Nat)
  | pack
  | wait
  | flush
  | last
  | readMetadata (i : Fin n)
  | beginRead (i : Fin n)
  | finishRead (i : Fin n)
  | advance (i : Fin n)
  | publish (i : Fin n)
  | yield (i : Fin n)
  | waitReadable (i : Fin n)
  deriving DecidableEq, Repr

variable {bucketSize n : Nat}

def relay (uuid : Fin (n + 1) → Nat → NotifyKey) : StepSystem (State bucketSize n) (Action n)
  | .pack => {
      guard := fun s => s.trainer.error = none ∧ s.trainer.nextFits = some true
      effect := fun s => { s with trainer := s.trainer.pack } }
  | .wait => {
      guard := fun s => s.trainer.error = none ∧ s.trainer.nextFits ≠ some true ∧ s.Notified 0
      effect := State.wait }
  | .flush => {
      guard := fun s => s.trainer.error = none ∧ s.trainer.nextFits = some false ∧
        (s.readableOp 0).isNone = true
      effect := State.flush uuid }
  | .last => {
      guard := fun s => s.trainer.error = none ∧ s.trainer.nextFits = none ∧
        s.trainer.lastPosted = false ∧ (s.readableOp 0).isNone = true
      effect := State.last uuid }
  | .readMetadata i => {
      guard := fun s => (s.workers i).error = none ∧ (s.workers i).awaitsMessage = true ∧
        (s.links i).messages.isEmpty = false
      effect := fun s => s.readMetadata i }
  | .beginRead i => {
      guard := fun s => (s.workers i).error = none ∧ (s.workers i).canBegin = true
      effect := fun s => s.onWorker i Worker.beginRead }
  | .finishRead i => {
      guard := fun s => (s.workers i).inFlight.isSome = true
      effect := fun s => s.finishRead i }
  | .advance i => {
      guard := fun s => (s.workers i).error = none ∧ (s.workers i).yielding.isEmpty = true ∧
        (s.readableOp i.succ).isNone = true ∧ (s.workers i).hasRead = true
      effect := fun s => s.onWorker i Worker.advance }
  | .publish i => {
      guard := fun s => (s.workers i).error = none ∧ (s.workers i).metadata.isSome = true
      effect := fun s => s.publish uuid i }
  | .yield i => {
      guard := fun s => (s.workers i).error = none ∧ (s.workers i).pastBegin = true ∧
        (s.workers i).yielding.isEmpty = false
      effect := fun s => s.onWorker i Worker.yield }
  | .waitReadable i => {
      guard := fun s => (s.workers i).error = none ∧ (s.workers i).pastBegin = true ∧
        (s.workers i).yielding.isEmpty = true ∧ s.Notified i.succ
      effect := fun s => s.waitReadable i }

end Verl.CheckpointEngine.Nixl
