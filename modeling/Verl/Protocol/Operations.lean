import Verl.Lib.PySlice
import Verl.Protocol.Union

/-! # Row operations of `DataProto` (`verl/protocol.py`)

The operations as the code computes them, tensor columns by torch and numpy columns by numpy:

    select, select_idxs, slice, repeat, sample_level_repeat, split, reorder, union
    pad_dataproto_to_divisor, unpad_dataproto

Tensors and numpy arrays read an index array alike unless its dtype is `uint8`, which torch takes
to be a mask (`IndexArray`).  `chunk` and `concat` are in `Verl.Protocol.DataProto`. -/

namespace Verl

variable {τ ν : Type}

/-! ## Index arrays -/

/-- An index tensor, array or list, by its dtype. -/
inductive IndexArray
  | ints (idxs : List Int)
  | mask (flags : List Bool)
  | uint8 (bytes : List UInt8)

namespace IndexArray

/-- The rows where a mask for `n` rows is set. -/
def maskRows (n : Nat) (flags : List Bool) : Except PyErr (List Nat) :=
  if flags.length = n then .ok ((List.range n).filter fun i => flags.getD i false)
  else .error .indexError

/-- The rows that `tensor[idxs]` takes. -/
def tensorRows (n : Nat) : IndexArray → Except PyErr (List Nat)
  | ints idxs => idxs.mapM (pyIndex n)
  | mask flags => maskRows n flags
  | uint8 bytes => maskRows n (bytes.map (· != 0))

/-- The rows that `array[idxs]` takes. -/
def arrayRows (n : Nat) : IndexArray → Except PyErr (List Nat)
  | ints idxs => idxs.mapM (pyIndex n)
  | mask flags => maskRows n flags
  | uint8 bytes => bytes.mapM fun b => pyIndex n b.toNat

/-- The `batch_size` of `select_idxs`. -/
def batchSize : IndexArray → Nat
  | ints idxs => idxs.length
  | mask flags => (flags.filter id).length
  | uint8 bytes => bytes.length

end IndexArray

/-! ## Algorithm -/

/-- `TensorDict(source=columns, batch_size=(batchSize,))`. -/
def TensorDict.new (columns : Dict (List τ)) (batchSize : Nat) : Except PyErr (TensorDict τ) :=
  if h : ∀ c ∈ columns.items, c.2.length = batchSize then
    .ok { batchSize := batchSize, columns := columns, rows_eq := h }
  else .error (.runtimeError "the batch dimension of a tensor differs from the batch size")

/-- `TensorDict.select`. -/
def TensorDict.select (td : TensorDict τ) (keys : List String) : Except PyErr (TensorDict τ) :=
  match keys.find? fun key => !td.columns.keys.contains key with
  | some key => .error (.keyError key)
  | none => .ok
    { batchSize := td.batchSize
      columns := td.columns.filterKeys keys.contains
      rows_eq := fun c hc => td.rows_eq c (List.mem_filter.1 hc).1 }

/-- The rows of `repeat`: `repeat_interleave` / `np.repeat`, or the whole column over and over. -/
def repeatRows {α : Type} (repeatTimes : Nat) (interleave : Bool) (rows : List α) : List α :=
  if interleave then rows.flatMap fun v => List.replicate repeatTimes v
  else (List.replicate repeatTimes rows).flatten

/-- `repeat_interleave` / `np.repeat` with one number for each row, or one for all. -/
def repeatEach {α : Type} (repeatTimes : List Nat) (rows : List α) : Except PyErr (List α) :=
  match repeatTimes with
  | [] => .error (.typeError "repeats must be integers")
  | [times] => .ok (rows.flatMap fun v => List.replicate times v)
  | _ =>
    if repeatTimes.length = rows.length then
      .ok ((rows.zip repeatTimes).flatMap fun p => List.replicate p.2 p.1)
    else .error (.valueError "repeats and rows differ in length")

namespace DataProto

/-- A step on the tensor columns, when there are any. -/
def onBatch (batch : Option (TensorDict τ)) (f : TensorDict τ → Except PyErr (TensorDict τ)) :
    Except PyErr (Option (TensorDict τ)) :=
  match batch with
  | none => .ok none
  | some td => (f td).map some

def selectBatch (batch : Option (TensorDict τ)) (batchKeys : Option (List String)) :
    Except PyErr (Option (TensorDict τ)) :=
  match batchKeys, batch with
  | none, batch => .ok batch
  | some _, none => .error (.attributeError "select")
  | some keys, some td => (td.select keys).map some

def selectKeys {β : Type} (d : Dict β) (keys : Option (List String)) : Dict β :=
  match keys with
  | none => d
  | some keys => d.filterKeys keys.contains

/-- `select`; `deepcopy` does not change the values. -/
def select (d : DataProto τ ν) (batchKeys nonTensorBatchKeys metaInfoKeys : Option (List String)) :
    Except PyErr (DataProto τ ν) := do
  let subBatch ← selectBatch d.batch batchKeys
  new subBatch (selectKeys d.nonTensorBatch nonTensorBatchKeys) (selectKeys d.metaInfo metaInfoKeys)

/-- `select_idxs`. -/
def selectIdxsAt (d : DataProto τ ν) (idxs : IndexArray) : Except PyErr (DataProto τ ν) := do
  let selectedBatch ← onBatch d.batch fun td => do
    let columns ← td.columns.mapValsM fun rows =>
      (idxs.tensorRows rows.length).map (gatherRows rows)
    TensorDict.new columns idxs.batchSize
  let selectedNonTensor ← d.nonTensorBatch.mapValsM fun rows =>
    (idxs.arrayRows rows.length).map (gatherRows rows)
  new selectedBatch selectedNonTensor d.metaInfo

/-- `slice`; a step of tensors must be positive, one of numpy arrays not zero. -/
def slice (d : DataProto τ ν) (start stop step : Option Int) : Except PyErr (DataProto τ ν) := do
  let step := step.getD 1
  let slicedBatch ← onBatch d.batch fun td =>
    if step ≤ 0 then .error (.valueError "step must be greater than zero")
    else .ok (td.gather (sliceIdxs td.batchSize start stop step))
  let slicedNonTensor ← d.nonTensorBatch.mapValsM fun rows =>
    if step = 0 then .error (.valueError "slice step cannot be zero")
    else .ok (gatherRows rows (sliceIdxs rows.length start stop step))
  new slicedBatch slicedNonTensor d.metaInfo

/-- `repeat`; numpy and torch raise for a negative number. -/
def repeat_ (d : DataProto τ ν) (repeatTimes : Nat) (interleave : Bool) :
    Except PyErr (DataProto τ ν) := do
  let repeatedBatch ← onBatch d.batch fun td =>
    TensorDict.new (td.columns.mapVals fun _ => repeatRows repeatTimes interleave)
      (td.batchSize * repeatTimes)
  new repeatedBatch (d.nonTensorBatch.mapVals fun _ => repeatRows repeatTimes interleave) d.metaInfo

def sampleLevelRepeat (d : DataProto τ ν) (repeatTimes : List Nat) :
    Except PyErr (DataProto τ ν) := do
  let repeatedBatch ← onBatch d.batch fun td => do
    let columns ← td.columns.mapValsM (repeatEach repeatTimes)
    TensorDict.new columns repeatTimes.sum
  let repeatedNonTensorBatch ← d.nonTensorBatch.mapValsM (repeatEach repeatTimes)
  new repeatedBatch repeatedNonTensorBatch d.metaInfo

/-- `split`: `[self[i : i + split_size] for i in range(0, len(self), split_size)]`. -/
def split (d : DataProto τ ν) (splitSize : Int) : Except PyErr (List (DataProto τ ν)) :=
  if splitSize = 0 then .error (.valueError "range() arg 3 must not be zero")
  else (List.range (rangeLength 0 d.len splitSize)).mapM fun (k : Nat) =>
    d.slice (some (k * splitSize)) (some (k * splitSize + splitSize)) none

/-- `reorder`: what `self` is afterwards. -/
def reorder (d : DataProto τ ν) (indices : IndexArray) : Except PyErr (DataProto τ ν) :=
  match d.batch with
  | none => .error (.typeError "'NoneType' object is not subscriptable")
  | some td => do
    let idxs ← indices.tensorRows td.batchSize
    let nonTensorBatch ← d.nonTensorBatch.mapValsM fun rows =>
      (indices.arrayRows rows.length).map (gatherRows rows)
    return { d with batch := some (td.gather idxs), nonTensorBatch := nonTensorBatch }

/-! ### `union` -/

/-- The columns of a `DataProto` as a whole. -/
def stores (d : DataProto τ ν) : DataStores (List τ) (List ν) PyVal where
  batch := d.batch.map fun td => { batchSize := td.batchSize, columns := td.columns }
  nonTensorBatch := d.nonTensorBatch
  metaInfo := d.metaInfo

theorem batch_stores_eq_some {d : DataProto τ ν} {batch : TensorColumns (List τ)}
    (h : d.stores.batch = some batch) :
    ∃ td, d.batch = some td ∧ batch = { batchSize := td.batchSize, columns := td.columns } := by
  obtain ⟨td, htd, hbatch⟩ := Option.map_eq_some_iff.1 h
  exact ⟨td, htd, hbatch.symm⟩

theorem rows_eq_union (tests : StoreTests (List τ) (List ν) PyVal) (self other : DataProto τ ν)
    {batch : TensorColumns (List τ)} (h : (self.stores.union tests other.stores).1.batch = some batch) :
    ∀ c ∈ batch.columns.items, c.2.length = batch.batchSize := by
  rcases DataStores.batch_union tests self.stores other.stores with
    hsame | ⟨batch1, batch2, h1, h2, hunion⟩
  · rw [hsame] at h
    obtain ⟨td, -, rfl⟩ := batch_stores_eq_some h
    exact td.rows_eq
  · obtain ⟨td1, -, rfl⟩ := batch_stores_eq_some h1
    obtain ⟨td2, -, rfl⟩ := batch_stores_eq_some h2
    rw [hunion] at h
    cases h
    intro c hc
    rw [batchSize_unionTensorDict]
    rcases mem_columns_unionTensorDict tests hc with hc | ⟨hsize, hc⟩
    · exact td1.rows_eq c hc
    · exact (td2.rows_eq c hc).trans hsize.symm

/-- `union`: what `self` is afterwards, and what was raised. -/
def union (tests : StoreTests (List τ) (List ν) PyVal) (self other : DataProto τ ν) :
    DataProto τ ν × Option PyErr :=
  let r := self.stores.union tests other.stores
  ({ batch :=
      match h : r.1.batch with
      | none => none
      | some batch => some
        { batchSize := batch.batchSize
          columns := batch.columns
          rows_eq := rows_eq_union tests self other h }
     nonTensorBatch := r.1.nonTensorBatch
     metaInfo := r.1.metaInfo },
    r.2)

end DataProto

/-! ### Padding -/

/-- The sizes the loop of `pad_dataproto_to_divisor` takes from the front. -/
def padTakes (n remainingPad : Nat) : List Nat :=
  if _h : 0 < remainingPad ∧ 0 < n then
    min remainingPad n :: padTakes n (remainingPad - min remainingPad n)
  else []
termination_by remainingPad
decreasing_by omega

def padDataprotoToDivisor (data : DataProto τ ν) (sizeDivisor : Nat) :
    Except PyErr (DataProto τ ν × Nat) :=
  if sizeDivisor = 0 then .error .zeroDivisionError
  else if data.len % sizeDivisor ≠ 0 then do
    let padSize := sizeDivisor - data.len % sizeDivisor
    let paddingProtos ← (padTakes data.len padSize).mapM fun (takeSize : Nat) =>
      data.slice none (some takeSize) none
    let dataPadded ← DataProto.concat (data :: paddingProtos)
    return (dataPadded, padSize)
  else .ok (data, 0)

def unpadDataproto (data : DataProto τ ν) (padSize : Nat) : Except PyErr (DataProto τ ν) :=
  if padSize ≠ 0 then data.slice none (some (-padSize)) none else .ok data

end Verl
