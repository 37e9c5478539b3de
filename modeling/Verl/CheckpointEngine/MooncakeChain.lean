import Verl.CheckpointEngine.ChainRanks
import Verl.Lib.Dict
import Verl.Lib.Slice
import Verl.Lib.StepSystem

/-! # Relaying buckets with a magic word

`MooncakeCheckpointEngine`: as in the NIXL chain every worker reads the buckets of the agent
before it and relays them, but nothing notifies an agent of a finished read.  The next worker
writes four bytes into the buffer itself when it is through with the bucket, and an agent that
wants to use the buffer again waits for these bytes.

    trainer ==infos 0==> worker 0 ==infos 1==> worker 1 ==infos 2==> ... worker (n - 1)

    memory of an agent:   [ buffer 0 | buffer 1 ]        bucket_size bytes each

    send_weights:      pack* ; flush ; pack* ; flush ; wait ; pack* ; ... ; last ; wait
    receive_weights:   recv ; (waitMagic) ; read ; send ; yield* ; writeMagic ; recv ; ...

The agents are processes of their own.  `engine.transfer_sync_read` and `transfer_sync_write` read
and write the memory of another agent without its help. -/

namespace Verl.CheckpointEngine.Mooncake

/-- The bytes by which a worker says that it is through with a bucket. -/
def magic : List UInt8 := [0xAB, 0xDC, 0xEF, 0x88]

structure DType where
  name : String
  itemsize : Nat
  deriving DecidableEq, Repr

/-- What is yielded: a name and a tensor, with the bytes the consumer reads. -/
@[ext] structure Named where
  name : String
  dtype : DType
  shape : List Nat
  bytes : List UInt8
  deriving DecidableEq, Repr

/-- A named tensor; `bytes` is `weight.view(-1).view(torch.uint8)`. -/
structure Weight extends Named where
  length_eq : bytes.length = dtype.itemsize * shape.prod
  deriving DecidableEq

def Weight.nbytes (w : Weight) : Nat := w.dtype.itemsize * w.shape.prod

structure TensorMeta where
  name : String
  shape : List Nat
  dtype : DType
  offset : Nat
  deriving DecidableEq, Repr

/-- `dtype.itemsize * shape.numel()`. -/
def TensorMeta.size (m : TensorMeta) : Nat := m.dtype.itemsize * m.shape.prod

/-- What an agent sends to the next one; `ptr` is relative to its memory. -/
structure Info where
  bucketMeta : Dict TensorMeta
  ptr : Nat
  len : Nat
  isLast : Bool

/-- The two buffers of an agent, `self.buf`. -/
abbrev Memory (bucketSize : Nat) := Buffer UInt8 (2 * bucketSize)

section Memory

variable {bucketSize : Nat}

/-- Where `bufs[b]` begins. -/
def start (bucketSize : Nat) (b : Bool) : Nat := if b then bucketSize else 0

/-- `bufs[b][:4]`. -/
def head (mem : Memory bucketSize) (b : Bool) : List UInt8 :=
  mem.slice (start bucketSize b) (min 4 bucketSize)

/-- `transfer_sync_read`, which fails outside of the registered memory. -/
def transferRead (dst src : Memory bucketSize) (dstPtr srcPtr len : Nat) :
    Except PyErr (Memory bucketSize) :=
  if dstPtr + len ≤ 2 * bucketSize ∧ srcPtr + len ≤ 2 * bucketSize then
    match dst.assign dstPtr len (src.slice srcPtr len) with
    | some mem => .ok mem
    | none => .error (.assertionError "transfer_sync_read failed")
  else .error (.assertionError "transfer_sync_read failed")

/-- `transfer_sync_write` of the magic word. -/
def transferMagic (mem : Memory bucketSize) (ptr : Nat) : Except PyErr (Memory bucketSize) :=
  if ptr + 4 ≤ 2 * bucketSize then
    match mem.assign ptr 4 magic with
    | some mem => .ok mem
    | none => .error (.assertionError "transfer_sync_write failed")
  else .error (.assertionError "transfer_sync_write failed")

end Memory

/-! ## The trainer -/

/-- The state of `send_weights`; `weight.to(self.rollout_dtype)` is a parameter of its steps. -/
structure Trainer where
  idx : Bool
  bucketMeta : Dict TensorMeta
  offset : Nat
  /-- The weights still to be packed, the one at hand included. -/
  todo : List Weight
  shouldWait : Bool
  /-- The coroutine is in `wait_for_complete(current)`. -/
  waiting : Bool
  /-- The weight at hand is past the check at the top of the loop. -/
  flushed : Bool
  /-- The loop is over and the last bucket is sent. -/
  lastSent : Bool
  error : Option PyErr

namespace Trainer

variable (bucketSize : Nat) (cast : Weight → Weight)

/-- Whether the weight at hand can go into the current bucket; `none` behind the last one. -/
def nextFits (t : Trainer) : Option Bool :=
  t.todo.head?.map fun w => t.flushed || decide (t.offset + (cast w).nbytes ≤ bucketSize)

/-- What is sent to rank 1. -/
def info (t : Trainer) (isLast : Bool) : Info where
  bucketMeta := t.bucketMeta
  ptr := start bucketSize t.idx
  len := t.offset
  isLast := isLast

/-- The block under `if offset + weight.nbytes > self.bucket_size`, up to the `await`. -/
def flush (t : Trainer) : Trainer :=
  { t with
    idx := !t.idx
    bucketMeta := Dict.empty
    offset := 0
    waiting := t.shouldWait
    shouldWait := true
    flushed := true }

variable {bucketSize}

/-- The rest of the loop body: the weight goes into the current bucket. -/
def store (t : Trainer) (mem : Memory bucketSize) (w : Weight) :
    Except PyErr (Trainer × Memory bucketSize) := do
  let dtype := w.dtype.name
  let shape := w.shape
  let name := w.name
  pyAssert (decide (t.offset + w.nbytes ≤ bucketSize))
    s!"Weight {name}({shape}, {dtype}) is too large to fit in the bucket."
  match mem.assign (start bucketSize t.idx + t.offset) w.nbytes w.bytes with
  | none => .error (.runtimeError "The size of tensor a must match the size of tensor b")
  | some mem =>
    .ok ({ t with
            bucketMeta := t.bucketMeta.insert w.name
              { name := w.name, shape := w.shape, dtype := w.dtype, offset := t.offset }
            offset := t.offset + w.nbytes
            flushed := false }, mem)

def pack (t : Trainer) (mem : Memory bucketSize) : Trainer × Memory bucketSize :=
  match t.todo with
  | [] => (t, mem)
  | w :: rest =>
    match t.store mem (cast w) with
    | .ok (t', mem') => ({ t' with todo := rest }, mem')
    | .error e => ({ t with error := some e }, mem)

end Trainer

/-! ## The rollout workers -/

/-- Where the loop of `receive_weights` is; `info` is what `recv_obj` returned, with the address in
the memory of the agent before. -/
inductive Phase
  | receiving
  | waiting (info : Info)
  | reading (info : Info)
  | sending (info : Info)
  | yielding (info : Info) (rest : List TensorMeta)
  | returned

structure Worker where
  idx : Nat
  phase : Phase
  /-- History: the tensors that were yielded and read. -/
  yielded : List Named
  error : Option PyErr

namespace Worker

variable {bucketSize : Nat}

/-- The buffer `bufs[idx % 2]`. -/
def current (w : Worker) : Bool := w.idx % 2 == 1

/-- The tensor in the current buffer. -/
def tensor (w : Worker) (mem : Memory bucketSize) (m : TensorMeta) : Named where
  name := m.name
  dtype := m.dtype
  shape := m.shape
  bytes := mem.slice (start bucketSize w.current + m.offset) m.size

/-- The consumer has read the tensor and resumes the generator. -/
def yield (w : Worker) (mem : Memory bucketSize) : Worker :=
  match w.phase with
  | .yielding info (m :: rest) =>
    if m.offset + m.size ≤ bucketSize then
      { w with phase := .yielding info rest, yielded := w.yielded ++ [w.tensor mem m] }
    else { w with error := some (.runtimeError "shape is invalid for input") }
  | _ => w

/-- The buffer is swapped behind the magic word. -/
def swap (w : Worker) (info : Info) : Worker :=
  { w with idx := w.idx + 1, phase := if info.isLast then .returned else .receiving }

end Worker

/-! ## Steps -/

structure State (bucketSize n : Nat) where
  trainer : Trainer
  workers : Fin n → Worker
  /-- The memory of the agents, by rank. -/
  mems : Fin (n + 1) → Memory bucketSize
  /-- `infos i` is on its way to worker `i`. -/
  infos : Fin n → List Info
  /-- History: what the buffers of the agents began with when their buckets were sent. -/
  sent : Fin (n + 1) → Bool → List UInt8

namespace State

variable {bucketSize n : Nat}

/-- The memory is as `torch.empty` left it, or as the last transfer did. -/
def initial (mems : Fin (n + 1) → Memory bucketSize) (weights : List Weight) :
    State bucketSize n where
  trainer :=
    { idx := false
      bucketMeta := Dict.empty
      offset := 0
      todo := weights
      shouldWait := false
      waiting := false
      flushed := false
      lastSent := false
      error := none }
  workers := fun _ =>
    { idx := 0
      phase := .receiving
      yielded := []
      error := none }
  mems := mems
  infos := fun _ => []
  sent := fun _ _ => []

/-- `self.store.send_obj(info, self.rank + 1)`, where there is a next rank. -/
def send (s : State bucketSize n) (rank : Fin (n + 1)) (info : Info) : Fin n → List Info :=
  match nextLink rank with
  | none => s.infos
  | some i => Function.update s.infos i (s.infos i ++ [info])

/-- The history after the bucket in buffer `b` was sent. -/
def record (s : State bucketSize n) (rank : Fin (n + 1)) (b : Bool) :
    Fin (n + 1) → Bool → List UInt8 :=
  Function.update s.sent rank (Function.update (s.sent rank) b (head (s.mems rank) b))

def pack (cast : Weight → Weight) (s : State bucketSize n) : State bucketSize n :=
  { s with
    trainer := (s.trainer.pack cast (s.mems 0)).1
    mems := Function.update s.mems 0 (s.trainer.pack cast (s.mems 0)).2 }

def flush (s : State bucketSize n) : State bucketSize n :=
  { s with
    trainer := s.trainer.flush
    infos := s.send 0 (s.trainer.info bucketSize false)
    sent := s.record 0 s.trainer.idx }

/-- The loop of `send_weights` is over. -/
def last (s : State bucketSize n) : State bucketSize n :=
  { s with
    trainer := { s.trainer with lastSent := true, waiting := true }
    infos := s.send 0 (s.trainer.info bucketSize true)
    sent := s.record 0 s.trainer.idx }

/-- Worker `i` goes on as `w`. -/
def setWorker (s : State bucketSize n) (i : Fin n) (w : Worker) : State bucketSize n :=
  { s with workers := Function.update s.workers i w }

/-- `self.store.recv_obj(self.rank - 1)`; only an agent with a next rank waits for the magic. -/
def recv (s : State bucketSize n) (i : Fin n) : State bucketSize n :=
  match s.infos i with
  | [] => s
  | info :: infos =>
    { s.setWorker i { s.workers i with
        phase := if 2 ≤ (s.workers i).idx ∧ (nextLink i.succ).isSome = true then .waiting info
          else .reading info } with
      infos := Function.update s.infos i infos }

def waitMagic (s : State bucketSize n) (i : Fin n) : State bucketSize n :=
  match (s.workers i).phase with
  | .waiting info => s.setWorker i { s.workers i with phase := .reading info }
  | _ => s

def read (s : State bucketSize n) (i : Fin n) : State bucketSize n :=
  match (s.workers i).phase with
  | .reading info =>
    match transferRead (s.mems i.succ) (s.mems i.castSucc)
        (start bucketSize (s.workers i).current) info.ptr info.len with
    | .ok mem =>
      { s.setWorker i { s.workers i with phase := .sending info } with
        mems := Function.update s.mems i.succ mem }
    | .error e => s.setWorker i { s.workers i with error := some e }
  | _ => s

/-- The info goes to the next rank with the address of the current buffer. -/
def sendInfo (s : State bucketSize n) (i : Fin n) : State bucketSize n :=
  match (s.workers i).phase with
  | .sending info =>
    { s.setWorker i { s.workers i with
        phase := .yielding info (info.bucketMeta.items.map Prod.snd) } with
      infos := s.send i.succ { info with ptr := start bucketSize (s.workers i).current }
      sent := s.record i.succ (s.workers i).current }
  | _ => s

def yield (s : State bucketSize n) (i : Fin n) : State bucketSize n :=
  s.setWorker i ((s.workers i).yield (s.mems i.succ))

/-- The magic word goes into the buffer the bucket was read from. -/
def writeMagic (s : State bucketSize n) (i : Fin n) : State bucketSize n :=
  match (s.workers i).phase with
  | .yielding info [] =>
    match transferMagic (s.mems i.castSucc) info.ptr with
    | .ok mem =>
      { s.setWorker i ((s.workers i).swap info) with
        mems := Function.update s.mems i.castSucc mem }
    | .error e => s.setWorker i { s.workers i with error := some e }
  | _ => s

end State

inductive Action (n : Nat)
  | pack
  | flush
  | wait
  | last
  | recv (i : Fin n)
  | waitMagic (i : Fin n)
  | read (i : Fin n)
  | send (i : Fin n)
  | yield (i : Fin n)
  | writeMagic (i : Fin n)
  deriving DecidableEq, Repr

/-- The kind of a phase, as the guards look at it. -/
def Phase.isReceiving : Phase → Bool
  | .receiving => true
  | _ => false

def Phase.isWaiting : Phase → Bool
  | .waiting _ => true
  | _ => false

def Phase.isReading : Phase → Bool
  | .reading _ => true
  | _ => false

def Phase.isSending : Phase → Bool
  | .sending _ => true
  | _ => false

/-- A tensor is still to be yielded. -/
def Phase.canYield : Phase → Bool
  | .yielding _ (_ :: _) => true
  | _ => false

/-- All tensors of the bucket are yielded. -/
def Phase.hasYielded : Phase → Bool
  | .yielding _ [] => true
  | _ => false

variable {bucketSize n : Nat}

def relay (cast : Weight → Weight) : StepSystem (State bucketSize n) (Action n)
  | .pack => {
      guard := fun s => s.trainer.error = none ∧ s.trainer.waiting = false ∧
        s.trainer.nextFits bucketSize cast = some true
      effect := State.pack cast }
  | .flush => {
      guard := fun s => s.trainer.error = none ∧ s.trainer.waiting = false ∧
        s.trainer.nextFits bucketSize cast = some false
      effect := State.flush }
  | .wait => {
      guard := fun s => s.trainer.error = none ∧ s.trainer.waiting = true ∧
        head (s.mems 0) s.trainer.idx = magic
      effect := fun s => { s with trainer := { s.trainer with waiting := false } } }
  | .last => {
      guard := fun s => s.trainer.error = none ∧ s.trainer.waiting = false ∧
        s.trainer.nextFits bucketSize cast = none ∧ s.trainer.lastSent = false
      effect := State.last }
  | .recv i => {
      guard := fun s => (s.workers i).error = none ∧ (s.workers i).phase.isReceiving = true ∧
        (s.infos i).isEmpty = false
      effect := fun s => s.recv i }
  | .waitMagic i => {
      guard := fun s => (s.workers i).error = none ∧ (s.workers i).phase.isWaiting = true ∧
        head (s.mems i.succ) (s.workers i).current = magic
      effect := fun s => s.waitMagic i }
  | .read i => {
      guard := fun s => (s.workers i).error = none ∧ (s.workers i).phase.isReading = true
      effect := fun s => s.read i }
  | .send i => {
      guard := fun s => (s.workers i).error = none ∧ (s.workers i).phase.isSending = true
      effect := fun s => s.sendInfo i }
  | .yield i => {
      guard := fun s => (s.workers i).error = none ∧ (s.workers i).phase.canYield = true
      effect := fun s => s.yield i }
  | .writeMagic i => {
      guard := fun s => (s.workers i).error = none ∧ (s.workers i).phase.hasYielded = true
      effect := fun s => s.writeMagic i }

/-! ## The steps that do no harm -/

/-- The agent of this rank has still to yield tensors from the buffer at `ptr`. -/
def State.yieldingFrom (s : State bucketSize n) (rank : Fin (n + 1)) (ptr : Nat) : Bool :=
  Fin.cases false (fun j => (s.workers j).phase.canYield &&
    start bucketSize (s.workers j).current == ptr) rank

/-- The address the magic word of worker `i` goes to. -/
def State.magicPtr (s : State bucketSize n) (i : Fin n) : Option Nat :=
  match (s.workers i).phase with
  | .yielding info [] => some info.ptr
  | _ => none

/-- A wait for the magic is a wait for a bucket that did not begin with it, and the magic goes to
a buffer whose tensors the owner has yielded. -/
def Careful (s : State bucketSize n) : Action n → Prop
  | .wait => s.sent 0 s.trainer.idx ≠ magic
  | .waitMagic i => s.sent i.succ (s.workers i).current ≠ magic
  | .writeMagic i => ∀ ptr ∈ s.magicPtr i, s.yieldingFrom i.castSucc ptr = false
  | _ => True

instance (s : State bucketSize n) (a : Action n) : Decidable (Careful s a) := by
  cases a <;> unfold Careful <;> infer_instance

end Verl.CheckpointEngine.Mooncake
