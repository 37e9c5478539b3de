import Verl.Lib.Bytes
import Verl.Lib.Dict

/-! # Serializing tensors (`verl/protocol.py`)

A tensor is sent as its dtype, its shape and its bytes, a nested tensor as its layout and its rows.
`torch.frombuffer` takes no empty buffer, and `torch.nested.as_nested_tensor` finds the ragged
dimension from the rows it is given.

    rows [4, 2], [4, 5], ragged 2     come back with ragged 2
    rows [4, 2], [4, 2], ragged 2     come back with ragged 1

* `deserialize_serialize_single`: a tensor of at least one number comes back. -/

namespace Verl.Serialize

open List

/-! ## Data -/

inductive DType where
  | float64 | float32 | float16 | bfloat16 | float8_e4m3fn | float8_e5m2
  | int64 | int32 | int16 | int8 | uint8 | bool | complex64 | complex128
deriving DecidableEq, Repr

namespace DType

/-- `str(dtype).removeprefix("torch.")`. -/
def name : DType → String
  | float64 => "float64" | float32 => "float32" | float16 => "float16" | bfloat16 => "bfloat16"
  | float8_e4m3fn => "float8_e4m3fn" | float8_e5m2 => "float8_e5m2"
  | int64 => "int64" | int32 => "int32" | int16 => "int16" | int8 => "int8"
  | uint8 => "uint8" | bool => "bool" | complex64 => "complex64" | complex128 => "complex128"

/-- The bytes of an element. -/
def itemsize : DType → Nat
  | float64 => 8 | float32 => 4 | float16 => 2 | bfloat16 => 2
  | float8_e4m3fn => 1 | float8_e5m2 => 1
  | int64 => 8 | int32 => 4 | int16 => 2 | int8 => 1
  | uint8 => 1 | bool => 1 | complex64 => 8 | complex128 => 16

def all : List DType :=
  [float64, float32, float16, bfloat16, float8_e4m3fn, float8_e5m2, int64, int32, int16, int8,
    uint8, bool, complex64, complex128]

/-- `getattr(torch, name)`. -/
def ofName (name : String) : Except PyErr DType :=
  match all.find? fun dtype => dtype.name == name with
  | some dtype => .ok dtype
  | none => .error (.attributeError name)

theorem ofName_name (dtype : DType) : ofName dtype.name = .ok dtype := by
  cases dtype <;> rfl

theorem itemsize_pos (dtype : DType) : 0 < dtype.itemsize := by
  cases dtype <;> decide

end DType

inductive Layout where
  | strided | jagged
deriving DecidableEq, Repr

/-- `str(layout).removeprefix("torch.")`. -/
def Layout.name : Layout → String
  | .strided => "strided"
  | .jagged => "jagged"

/-- `getattr(torch, name)`. -/
def Layout.ofName (name : String) : Except PyErr Layout :=
  if name = "strided" then .ok .strided
  else if name = "jagged" then .ok .jagged
  else .error (.attributeError name)

theorem Layout.ofName_name (layout : Layout) : Layout.ofName layout.name = .ok layout := by
  cases layout <;> rfl

/-- A tensor with the bit patterns of its elements, row by row. -/
@[ext]
structure Tensor where
  dtype : DType
  device : String
  shape : List Nat
  data : List Nat
  numel : data.length = shape.prod
  fits : ∀ x ∈ data, x < 256 ^ dtype.itemsize

/-- Rows that differ at most in the size of the ragged dimension. -/
def Regular (raggedIdx : Nat) (tensors : List Tensor) : Prop :=
  ∀ t ∈ tensors, 1 ≤ raggedIdx ∧ raggedIdx ≤ t.shape.length ∧
    ∀ t' ∈ tensors, t'.dtype = t.dtype ∧ t'.shape.length = t.shape.length ∧
      t'.shape.eraseIdx (raggedIdx - 1) = t.shape.eraseIdx (raggedIdx - 1)

/-- A nested tensor with what `unbind` gives. -/
@[ext]
structure NestedTensor where
  layout : Layout
  raggedIdx : Nat
  tensors : List Tensor
  regular : layout = .jagged → Regular raggedIdx tensors

inductive TensorVal where
  | dense (t : Tensor)
  | nested (t : NestedTensor)

namespace TensorVal

def tensors : TensorVal → List Tensor
  | dense t => [t]
  | nested t => t.tensors

/-- `shape`, without the size of a ragged dimension. -/
def size : TensorVal → List (Option Nat)
  | dense t => t.shape.map some
  | nested t => some t.tensors.length ::
      ((t.tensors.head?.map Tensor.shape).getD []).mapIdx fun dim n =>
        if dim + 1 = t.raggedIdx then none else some n

end TensorVal

@[ext]
structure TensorDict where
  batchSize : List Nat
  device : Option String
  items : Dict TensorVal
  sizes : ∀ p ∈ items.items, batchSize.map some <+: p.2.size
  onDevice : ∀ d, device = some d → ∀ p ∈ items.items, ∀ t ∈ p.2.tensors, t.device = d

/-! ## What is used of `torch` -/

/-- The first dimension in which the rows differ, or the first one. -/
def raggedIdxOf (tensors : List Tensor) : Nat :=
  let shapes := tensors.map Tensor.shape
  match shapes with
  | [] => 1
  | first :: rest =>
    ((List.range first.length).find? fun dim => rest.any fun s => s[dim]? != first[dim]?).getD 0 + 1

structure Torch where
  frombuffer : List UInt8 → Except PyErr (List UInt8)
  asNestedTensor : List Tensor → Layout → Except PyErr NestedTensor

/-- What `torch` documents: a buffer is taken unless it is empty, and rows with at most one ragged
dimension make a jagged tensor, unless there are none. -/
structure Torch.Lawful (torch : Torch) : Prop where
  frombuffer : ∀ buffer, buffer ≠ [] → torch.frombuffer buffer = .ok buffer
  frombuffer_nil : ∃ e, torch.frombuffer [] = .error e
  nested : ∀ raggedIdx tensors, tensors ≠ [] → Regular raggedIdx tensors →
    ∃ t, torch.asNestedTensor tensors .jagged = .ok t ∧ t.layout = .jagged ∧
      t.tensors = tensors ∧ t.raggedIdx = raggedIdxOf tensors
  nested_nil : ∃ e, torch.asNestedTensor [] .jagged = .error e

/-! ## Algorithm -/

/-- A dtype, a shape and bytes. -/
abbrev EncodedTensor := String × List Nat × List UInt8

inductive Encoded where
  | tensor (encoded : EncodedTensor)
  | nested (layout : String) (data : List EncodedTensor)

def serializeSingleTensor (obj : Tensor) : Except PyErr EncodedTensor :=
  if obj.device = "cpu" then
    .ok (obj.dtype.name, obj.shape, obj.data.flatMap (leBytes obj.dtype.itemsize))
  else .error (.typeError "can't convert device type tensor to numpy")

def serializeVal : TensorVal → Except PyErr Encoded
  | .dense t => (serializeSingleTensor t).map .tensor
  | .nested t => (t.tensors.mapM serializeSingleTensor).map (.nested t.layout.name)

def serializeTensordict (batch : TensorDict) :
    Except PyErr (List Nat × Option String × Dict Encoded) := do
  let encodedItems ← batch.items.mapValsM serializeVal
  return (batch.batchSize, batch.device, encodedItems)

/-- `arr.view(torch_dtype).view(shape)`. -/
def viewTensor (dtype : DType) (shape : List Nat) (arr : List UInt8) : Except PyErr Tensor :=
  if arr.length % dtype.itemsize ≠ 0 then
    .error (.runtimeError "self.size(-1) must be divisible by the size of the new dtype")
  else if h : (viewAs dtype.itemsize arr).length = shape.prod then
    .ok { dtype := dtype, device := "cpu", shape := shape, data := viewAs dtype.itemsize arr
          numel := h, fits := viewAs_lt arr }
  else .error (.runtimeError "shape is invalid for input")

def deserializeSingleTensor (torch : Torch) (arr : EncodedTensor) : Except PyErr Tensor := do
  let dtype ← DType.ofName arr.1
  let buffer ← torch.frombuffer arr.2.2
  viewTensor dtype arr.2.1 buffer

def deserializeVal (torch : Torch) : Encoded → Except PyErr TensorVal
  | .tensor encoded => (deserializeSingleTensor torch encoded).map .dense
  | .nested layout data => do
    let layout ← Layout.ofName layout
    let tensors ← data.mapM (deserializeSingleTensor torch)
    (torch.asNestedTensor tensors layout).map .nested

def Tensor.to (t : Tensor) (device : String) : Tensor := { t with device := device }

theorem Regular.to {raggedIdx : Nat} {tensors : List Tensor} (h : Regular raggedIdx tensors)
    (device : String) : Regular raggedIdx (tensors.map fun t => t.to device) := by
  intro t ht
  obtain ⟨u, hu, rfl⟩ := mem_map.1 ht
  refine ⟨(h u hu).1, (h u hu).2.1, fun t' ht' => ?_⟩
  obtain ⟨u', hu', rfl⟩ := mem_map.1 ht'
  exact (h u hu).2.2 u' hu'

def TensorVal.to (device : String) : TensorVal → TensorVal
  | .dense t => .dense (t.to device)
  | .nested t => .nested
      { t with
        tensors := t.tensors.map fun u => u.to device
        regular := fun h => (t.regular h).to device }

theorem TensorVal.device_of_mem_to {device : String} {v : TensorVal} {t : Tensor}
    (h : t ∈ (v.to device).tensors) : t.device = device := by
  cases v with
  | dense u =>
    rw [mem_singleton.1 h]
    rfl
  | nested u =>
    obtain ⟨w, -, rfl⟩ := mem_map.1 h
    rfl

/-- The values on the device of the dictionary, if it has one. -/
def moveTo (device : Option String) (v : TensorVal) : TensorVal :=
  match device with
  | some d => v.to d
  | none => v

/-- `TensorDict(source, batch_size, device)`. -/
def TensorDict.new (source : Dict TensorVal) (batchSize : List Nat) (device : Option String) :
    Except PyErr TensorDict :=
  let items := source.mapVals fun _ => moveTo device
  if h : ∀ p ∈ items.items, batchSize.map some <+: p.2.size then
    .ok
      { batchSize := batchSize, device := device, items := items, sizes := h
        onDevice := by
          rintro d rfl p hp t ht
          obtain ⟨q, -, rfl⟩ := mem_map.1 hp
          exact TensorVal.device_of_mem_to ht }
  else .error (.runtimeError "batch dimension mismatch")

def deserializeTensordict (torch : Torch) (arr : List Nat × Option String × Dict Encoded) :
    Except PyErr TensorDict := do
  let decodedItems ← arr.2.2.mapValsM (deserializeVal torch)
  TensorDict.new decodedItems arr.1 arr.2.1

/-! ## What comes back -/

/-- A tensor on the CPU with at least one element. -/
def Tensor.Survives (t : Tensor) : Prop := t.device = "cpu" ∧ t.data ≠ []

/-- A nested tensor has rows, and those tell which dimension is ragged. -/
def TensorVal.Survives : TensorVal → Prop
  | .dense t => t.Survives
  | .nested t => t.tensors ≠ [] ∧ (∀ u ∈ t.tensors, u.Survives) ∧ raggedIdxOf t.tensors = t.raggedIdx

/-- The nested tensors of a batch are jagged. -/
def TensorDict.Jagged (td : TensorDict) : Prop :=
  ∀ p ∈ td.items.items, ∀ t, p.2 = .nested t → t.layout = .jagged

/-! ## Lemmas: one tensor -/

section Single

variable {torch : Torch}

theorem length_bytes (t : Tensor) :
    (t.data.flatMap (leBytes t.dtype.itemsize)).length = t.data.length * t.dtype.itemsize :=
  length_flatMap_leBytes _ _

theorem bytes_eq_nil_iff {t : Tensor} :
    t.data.flatMap (leBytes t.dtype.itemsize) = [] ↔ t.data = [] := by
  have hpos := t.dtype.itemsize_pos
  rw [← length_eq_zero_iff, length_bytes, Nat.mul_eq_zero, length_eq_zero_iff]
  exact ⟨fun h => h.resolve_right (by omega), Or.inl⟩

theorem viewTensor_bytes (t : Tensor) :
    viewTensor t.dtype t.shape (t.data.flatMap (leBytes t.dtype.itemsize)) =
      .ok (t.to "cpu") := by
  have hview := viewAs_flatMap t.dtype.itemsize_pos t.fits
  unfold viewTensor
  rw [if_neg (by simp), dif_pos (by rw [hview, t.numel])]
  congr 1
  ext1
  · rfl
  · rfl
  · rfl
  · exact hview

theorem deserialize_serialize_single (htorch : torch.Lawful) {t t' : Tensor} :
    (serializeSingleTensor t >>= deserializeSingleTensor torch) = .ok t' ↔
      t.Survives ∧ t' = t := by
  unfold serializeSingleTensor Tensor.Survives
  by_cases hcpu : t.device = "cpu"
  · rw [if_pos hcpu, ok_bind]
    unfold deserializeSingleTensor
    rw [DType.ofName_name, ok_bind]
    by_cases hdata : t.data = []
    · obtain ⟨e, herror⟩ := htorch.frombuffer_nil
      rw [bytes_eq_nil_iff.2 hdata, herror]
      constructor
      · intro h
        cases h
      · grind
    · have hself : t.to "cpu" = t := by
        ext1 <;> first | rfl | exact hcpu.symm
      rw [htorch.frombuffer _ (fun h => hdata (bytes_eq_nil_iff.1 h)), ok_bind,
        viewTensor_bytes]
      constructor
      · grind
      · grind
  · rw [if_neg hcpu]
    constructor
    · intro h
      cases h
    · grind

theorem deserialize_serialize_rows (htorch : torch.Lawful) {ts ts' : List Tensor} :
    (ts.mapM serializeSingleTensor >>= List.mapM (deserializeSingleTensor torch)) = .ok ts' ↔
      (∀ t ∈ ts, t.Survives) ∧ ts' = ts := by
  constructor
  · intro h
    obtain ⟨encoded, hencoded, hdecoded⟩ := bind_eq_ok.1 h
    have hserialize := forall₂_of_mapM_eq_ok hencoded
    have hdeserialize := forall₂_of_mapM_eq_ok hdecoded
    clear h hencoded hdecoded
    induction hserialize generalizing ts' with
    | nil =>
      cases hdeserialize
      exact ⟨fun t h => (by cases h), rfl⟩
    | cons ht _ ih =>
      cases hdeserialize with
      | cons ht' hrest =>
        obtain ⟨hsurvives, rfl⟩ := (deserialize_serialize_single htorch).1
          (bind_eq_ok.2 ⟨_, ht, ht'⟩)
        obtain ⟨hall, rfl⟩ := ih hrest
        exact ⟨forall_mem_cons.2 ⟨hsurvives, hall⟩, rfl⟩
  · rintro ⟨hall, rfl⟩
    induction ts' with
    | nil => rfl
    | cons t ts ih =>
      rw [forall_mem_cons] at hall
      obtain ⟨enc, henc, hdec⟩ := bind_eq_ok.1
        ((deserialize_serialize_single htorch).2 ⟨hall.1, rfl⟩)
      obtain ⟨encs, hencs, hdecs⟩ := bind_eq_ok.1 (ih hall.2)
      rw [mapM_cons, henc, hencs]
      show List.mapM (deserializeSingleTensor torch) (enc :: encs) = _
      rw [mapM_cons, hdec, hdecs]
      rfl

end Single

/-! ## Lemmas: one value -/

section Val

variable {torch : Torch}

theorem of_roundTripVal (htorch : torch.Lawful) {v v' : TensorVal}
    (hjagged : ∀ t, v = .nested t → t.layout = .jagged)
    (h : (serializeVal v >>= deserializeVal torch) = .ok v') :
    v'.tensors = v.tensors ∧ v.tensors ≠ [] ∧ (∀ t ∈ v.tensors, t.Survives) ∧
      match v with
      | .dense t => v' = .dense t
      | .nested t => ∃ t', v' = .nested t' ∧ t'.layout = t.layout ∧
          t'.raggedIdx = raggedIdxOf t.tensors := by
  obtain ⟨encoded, hencoded, hdecoded⟩ := bind_eq_ok.1 h
  cases v with
  | dense t =>
    obtain ⟨enc, henc, rfl⟩ := except_map_eq_ok.1 hencoded
    obtain ⟨t', ht', rfl⟩ := except_map_eq_ok.1 hdecoded
    obtain ⟨hsurvives, rfl⟩ := (deserialize_serialize_single htorch).1
      (bind_eq_ok.2 ⟨enc, henc, ht'⟩)
    refine ⟨rfl, cons_ne_nil _ _, fun u hu => ?_, rfl⟩
    rw [mem_singleton.1 hu]
    exact hsurvives
  | nested t =>
    have hlayout := hjagged t rfl
    obtain ⟨encs, hencs, rfl⟩ := except_map_eq_ok.1 hencoded
    unfold deserializeVal at hdecoded
    dsimp only at hdecoded
    rw [Layout.ofName_name, ok_bind, hlayout] at hdecoded
    obtain ⟨ts, hts, hnested⟩ := bind_eq_ok.1 hdecoded
    obtain ⟨hall, rfl⟩ := (deserialize_serialize_rows htorch).1
      (bind_eq_ok.2 ⟨encs, hencs, hts⟩)
    obtain ⟨t', ht', rfl⟩ := except_map_eq_ok.1 hnested
    have hne : t.tensors ≠ [] := by
      intro hnil
      obtain ⟨e, herror⟩ := htorch.nested_nil
      rw [hnil, herror] at ht'
      cases ht'
    obtain ⟨u, hu, hulayout, hutensors, huragged⟩ := htorch.nested t.raggedIdx t.tensors hne
      (t.regular hlayout)
    rw [hu] at ht'
    cases ht'
    exact ⟨hutensors, hne, hall, t', rfl, hulayout.trans hlayout.symm, huragged⟩

theorem roundTripVal_of_survives (htorch : torch.Lawful) {v : TensorVal}
    (hjagged : ∀ t, v = .nested t → t.layout = .jagged) (h : v.Survives) :
    (serializeVal v >>= deserializeVal torch) = .ok v := by
  cases v with
  | dense t =>
    obtain ⟨enc, henc, hdec⟩ := bind_eq_ok.1
      ((deserialize_serialize_single htorch).2 ⟨h, rfl⟩)
    exact bind_eq_ok.2 ⟨.tensor enc, congrArg (Except.map _) henc, congrArg (Except.map _) hdec⟩
  | nested t =>
    have hlayout := hjagged t rfl
    obtain ⟨hne, hall, hragged⟩ := h
    obtain ⟨encs, hencs, hdecs⟩ := bind_eq_ok.1
      ((deserialize_serialize_rows htorch).2 ⟨hall, rfl⟩)
    obtain ⟨u, hu, hulayout, hutensors, huragged⟩ := htorch.nested t.raggedIdx t.tensors hne
      (t.regular hlayout)
    have hself : u = t := by
      ext1
      · rw [hulayout, hlayout]
      · rw [huragged, hragged]
      · exact hutensors
    refine bind_eq_ok.2 ⟨.nested t.layout.name encs, congrArg (Except.map _) hencs, ?_⟩
    unfold deserializeVal
    dsimp only
    rw [Layout.ofName_name, ok_bind, hdecs, ok_bind, hlayout, hu, hself]
    rfl

theorem moveTo_self {device : Option String} {v : TensorVal}
    (h : ∀ d, device = some d → ∀ t ∈ v.tensors, t.device = d) : moveTo device v = v := by
  cases device with
  | none => rfl
  | some d =>
    cases v with
    | dense t =>
      have hdevice := h d rfl t (mem_singleton_self t)
      subst hdevice
      rfl
    | nested t =>
      refine congrArg TensorVal.nested ?_
      ext1
      · rfl
      · rfl
      · refine (map_congr_left fun u hu => ?_).trans (map_id _)
        have hdevice := h d rfl u hu
        subst hdevice
        rfl

end Val

/-! ## A batch -/

section Batch

variable {torch : Torch}

theorem forall₂_of_roundTrip {items : Dict TensorVal} {encoded : Dict Encoded}
    {decoded : Dict TensorVal} (hencoded : items.mapValsM serializeVal = .ok encoded)
    (hdecoded : encoded.mapValsM (deserializeVal torch) = .ok decoded) :
    Forall₂ (fun p q => q.1 = p.1 ∧ (serializeVal p.2 >>= deserializeVal torch) = .ok q.2)
      items.items decoded.items := by
  have hserialize := Dict.mapValsM_eq_ok hencoded
  have hdeserialize := Dict.mapValsM_eq_ok hdecoded
  generalize items.items = ps at hserialize
  generalize encoded.items = es at hserialize hdeserialize
  generalize decoded.items = qs at hdeserialize
  induction hserialize generalizing qs with
  | nil =>
    cases hdeserialize
    exact .nil
  | cons hp _ ih =>
    cases hdeserialize with
    | cons hq hrest =>
      exact .cons ⟨hq.1.trans hp.1, bind_eq_ok.2 ⟨_, hp.2, hq.2⟩⟩ (ih _ hrest)

theorem survives_of_moveTo (htorch : torch.Lawful) {device : Option String} {v v' : TensorVal}
    (hjagged : ∀ t, v = .nested t → t.layout = .jagged)
    (h : (serializeVal v >>= deserializeVal torch) = .ok v') (hmoved : moveTo device v' = v) :
    v.Survives := by
  obtain ⟨-, hne, hall, hval⟩ := of_roundTripVal htorch hjagged h
  cases v with
  | dense t => exact hall t (mem_singleton_self t)
  | nested t =>
    obtain ⟨t', rfl, -, hragged⟩ := hval
    refine ⟨hne, hall, ?_⟩
    rw [← hragged]
    cases device with
    | none =>
      cases hmoved
      rfl
    | some d =>
      have hinj := TensorVal.nested.inj hmoved
      rw [← hinj]

/-- A batch comes back iff all of its tensors survive. -/
theorem roundTrip_iff (htorch : torch.Lawful) (td : TensorDict) (hjagged : td.Jagged) :
    (serializeTensordict td >>= deserializeTensordict torch) = .ok td ↔
      ∀ p ∈ td.items.items, p.2.Survives := by
  constructor
  · intro h
    obtain ⟨encoded, hencoded, hdecoded⟩ := bind_eq_ok.1 h
    obtain ⟨encodedItems, hitems, hpure⟩ := bind_eq_ok.1 hencoded
    cases hpure
    obtain ⟨decodedItems, hvals, hnew⟩ := bind_eq_ok.1 hdecoded
    have hforall := forall₂_of_roundTrip hitems hvals
    unfold TensorDict.new at hnew
    dsimp only at hnew
    split at hnew
    · have hitemsEq := congrArg (fun d : TensorDict => d.items.items) (Except.ok.inj hnew)
      have hlen : (decodedItems.items.map fun p => (p.1, moveTo td.device p.2)) = td.items.items :=
        hitemsEq
      have hjag := hjagged
      unfold TensorDict.Jagged at hjag
      generalize td.items.items = ps at hforall hlen hjag
      generalize decodedItems.items = qs at hforall hlen
      induction hforall with
      | nil => exact fun p hp => by cases hp
      | cons hpq _ ih =>
        rw [map_cons, cons_eq_cons] at hlen
        rw [forall_mem_cons] at hjag
        refine forall_mem_cons.2 ⟨?_, ih hjag.2 hlen.2⟩
        exact survives_of_moveTo htorch hjag.1 hpq.2 (congrArg Prod.snd hlen.1)
    · cases hnew
  · intro h
    have hback : ∀ p ∈ td.items.items, ∃ e, serializeVal p.2 = .ok e ∧
        deserializeVal torch e = .ok p.2 := fun p hp =>
      bind_eq_ok.1 (roundTripVal_of_survives htorch (hjagged p hp) (h p hp))
    obtain ⟨encoded, hencoded, hdecoded⟩ := Dict.exists_mapValsM hback
    refine bind_eq_ok.2 ⟨(td.batchSize, td.device, encoded), ?_, ?_⟩
    · unfold serializeTensordict
      rw [hencoded]
      rfl
    · unfold deserializeTensordict
      rw [hdecoded, ok_bind]
      have hmoved : (td.items.mapVals fun _ => moveTo td.device) = td.items := by
        ext1
        refine (map_congr_left fun p hp => ?_).trans (map_id _)
        exact congrArg (p.1, ·) (moveTo_self fun d hd => td.onDevice d hd p hp)
      unfold TensorDict.new
      rw [dif_pos (by rw [hmoved]; exact td.sizes)]
      congr 1
      ext1
      · rfl
      · rfl
      · exact hmoved

end Batch

/-! ## A concrete `torch` -/

section Concrete

instance (raggedIdx : Nat) (tensors : List Tensor) : Decidable (Regular raggedIdx tensors) := by
  unfold Regular
  infer_instance

/-- `frombuffer` and `as_nested_tensor` on the CPU. -/
def cpuTorch : Torch where
  frombuffer buffer :=
    if buffer = [] then .error (.valueError "both buffer length (0) and count (-1) must not be 0")
    else .ok buffer
  asNestedTensor tensors layout :=
    if tensors = [] then
      .error (.runtimeError "Cannot construct a nested tensor from an empty tensor list")
    else if h : Regular (raggedIdxOf tensors) tensors then
      .ok { layout := layout, raggedIdx := raggedIdxOf tensors, tensors := tensors
            regular := fun _ => h }
    else .error (.runtimeError "Cannot represent given tensor list as a nested tensor")

theorem getElem?_of_eraseIdx {s s' : List Nat} {k dim : Nat} (h : s.eraseIdx k = s'.eraseIdx k)
    (hdim : dim ≠ k) : s[dim]? = s'[dim]? := by
  by_cases hlt : dim < k
  · have hget : (s.eraseIdx k)[dim]? = (s'.eraseIdx k)[dim]? := by rw [h]
    rwa [getElem?_eraseIdx_of_lt hlt, getElem?_eraseIdx_of_lt hlt] at hget
  · have hget : (s.eraseIdx k)[dim - 1]? = (s'.eraseIdx k)[dim - 1]? := by rw [h]
    rwa [getElem?_eraseIdx_of_ge (by omega), getElem?_eraseIdx_of_ge (by omega),
      Nat.sub_add_cancel (by omega)] at hget

theorem Regular.raggedIdxOf {raggedIdx : Nat} {tensors : List Tensor}
    (h : Regular raggedIdx tensors) : Regular (Serialize.raggedIdxOf tensors) tensors := by
  cases tensors with
  | nil => exact fun t ht => by cases ht
  | cons first rest =>
    obtain ⟨hpos, hle, hfirst⟩ := h first mem_cons_self
    have hidx : Serialize.raggedIdxOf (first :: rest) =
        ((range first.shape.length).find? fun dim =>
          (rest.map Tensor.shape).any fun s => s[dim]? != first.shape[dim]?).getD 0 + 1 := rfl
    rw [hidx]
    cases hfind : (range first.shape.length).find? fun dim =>
        (rest.map Tensor.shape).any fun s => s[dim]? != first.shape[dim]? with
    | some dim =>
      have hany := find?_some hfind
      obtain ⟨s, hs, hne⟩ := any_eq_true.1 hany
      obtain ⟨t, ht, rfl⟩ := mem_map.1 hs
      have herase := (hfirst t (mem_cons_of_mem _ ht)).2.2
      have hdim : dim = raggedIdx - 1 := by
        by_contra hother
        rw [bne_iff_ne, getElem?_of_eraseIdx herase hother] at hne
        exact hne rfl
      rw [Option.getD_some, hdim, Nat.sub_add_cancel hpos]
      exact h
    | none =>
      rw [find?_eq_none] at hfind
      have hshape : ∀ t ∈ first :: rest, t.shape = first.shape := by
        intro t ht
        rcases mem_cons.1 ht with rfl | ht'
        · rfl
        · apply ext_getElem?
          intro dim
          by_cases hdim : dim < first.shape.length
          · have hsame := hfind dim (mem_range.2 hdim)
            rw [any_eq_true, not_exists] at hsame
            have heq := hsame t.shape
            rw [not_and, bne_iff_ne, not_not] at heq
            exact heq (mem_map_of_mem ht')
          · grind
      rw [Option.getD_none]
      intro t ht
      refine ⟨Nat.le_refl 1, by rw [hshape t ht]; omega, fun t' ht' => ?_⟩
      obtain ⟨-, -, hothers⟩ := h t ht
      rw [hshape t ht, hshape t' ht']
      exact ⟨(hothers t' ht').1, rfl, rfl⟩

theorem cpuTorch_lawful : cpuTorch.Lawful where
  frombuffer buffer h := if_neg h
  frombuffer_nil := ⟨_, rfl⟩
  nested raggedIdx tensors hne h := by simp [cpuTorch, if_neg hne, dif_pos h.raggedIdxOf]
  nested_nil := ⟨_, rfl⟩

/-- A row of bytes. -/
def byteRow (data : List Nat) (fits : ∀ x ∈ data, x < 256) : Tensor where
  dtype := .uint8
  device := "cpu"
  shape := [data.length]
  data := data
  numel := (Nat.mul_one _).symm
  fits := fits

/-- Two rows under one key, jagged. -/
def twoRows (first second : Tensor) (h : Regular 1 [first, second]) : TensorDict where
  batchSize := [2]
  device := none
  items :=
    { items := [("responses", .nested ⟨.jagged, 1, [first, second], fun _ => h⟩)]
      nodup := nodup_singleton _ }
  sizes := by
    intro p hp
    rw [mem_singleton.1 hp]
    exact ⟨_, rfl⟩
  onDevice d hd := by cases hd

def filledRows : TensorDict :=
  twoRows (byteRow [1, 2] (by decide)) (byteRow [3] (by decide)) (by decide)

/-- The second response is empty. -/
def emptyRow : TensorDict :=
  twoRows (byteRow [1, 2] (by decide)) (byteRow [] (by decide)) (by decide)

theorem jagged_twoRows {first second : Tensor} (h : Regular 1 [first, second]) :
    (twoRows first second h).Jagged := by
  intro p hp t ht
  rw [mem_singleton.1 hp] at ht
  cases ht
  rfl

theorem roundTrip_filledRows :
    (serializeTensordict filledRows >>= deserializeTensordict cpuTorch) = .ok filledRows := by
  refine (roundTrip_iff cpuTorch_lawful filledRows (jagged_twoRows _)).2 fun p hp => ?_
  rw [mem_singleton.1 hp]
  refine ⟨cons_ne_nil _ _, ?_, by decide⟩
  intro t ht
  rcases mem_cons.1 ht with rfl | ht
  · exact ⟨rfl, by decide⟩
  · rw [mem_singleton.1 ht]
    exact ⟨rfl, by decide⟩

/-- An empty row is not taken. -/
theorem roundTrip_emptyRow : (serializeTensordict emptyRow >>= deserializeTensordict cpuTorch) =
      .error (.valueError "both buffer length (0) and count (-1) must not be 0") := by
  rfl

end Concrete

end Verl.Serialize
