import Verl.Lib.DictMerge
import Verl.Protocol.DataProto

/-! # `DataProto.union` (`verl/protocol.py`, `verl/utils/py_functional.py`)

`union` merges the three stores of `other` into those of `self`, one after the other, each by a
helper that writes while it scans:

    union_tensor_dict   new columns are added, common ones compared with `torch.equal`
    union_numpy_dict    all columns are written, common ones compared with `_deep_equal` first
    union_two_dict      all entries are written, common ones compared with `==` first

A column is a whole tensor (`T`) or numpy array here.  What `torch.equal`, `numpy.array_equal` and
the `==` of other objects answer is a parameter (`Equalities`); each of them may raise.

* `deepEqual_eq_true_iff`: `_deep_equal` is true exactly for `SameValue`.
* `union_spec`: when `union` raises, and what is left in `self` then. -/

namespace Verl

/-! ## Numpy arrays -/

inductive PyFloat
  | nan
  | infinity (negative : Bool)
  | finite (q : ℚ)
  deriving DecidableEq

mutual

/-- `native` has a dtype other than `object`, and its data is not looked into. -/
inductive NpArray (E O : Type)
  | native (dtype : String) (shape : List Nat) (data : E)
  | object (shape : List Nat) (flat : List (PyObj E O))

/-- An entry of an object array, with its type: `float` and its subclasses, arrays, and all
others.  Values are finite trees, so no array contains itself. -/
inductive PyObj (E O : Type)
  | float (typ : String) (x : PyFloat)
  | array (a : NpArray E O)
  | other (typ : String) (o : O)

end

/-- The comparisons that are not in this repository. -/
structure Equalities (T E O M : Type) where
  /-- `torch.equal`. -/
  tensorEqual : T → T → Except PyErr Bool
  /-- `numpy.array_equal` with `equal_nan=True`, for arrays of one dtype and shape. -/
  npArrayEqual : E → E → Except PyErr Bool
  /-- `==` in an object array. -/
  objEq : O → O → Except PyErr Bool
  /-- `==` in `meta_info`. -/
  metaEq : M → M → Except PyErr Bool

section DeepEqual

variable {T E O M : Type} (eqs : Equalities T E O M)

mutual

/-- `_deep_equal`. -/
def deepEqual : PyObj E O → PyObj E O → Except PyErr Bool
  | .float s x, .float t y =>
    .ok (s == t && (x == .nan && y == .nan || (x != .nan && y != .nan && x == y)))
  | .array a, .array b => arrayEqual a b
  | .other s o, .other t p => if s = t then eqs.objEq o p else .ok false
  | _, _ => .ok false

/-- `_array_equal`. -/
def arrayEqual : NpArray E O → NpArray E O → Except PyErr Bool
  | .native dtype1 shape1 data1, .native dtype2 shape2 data2 =>
    if dtype1 = dtype2 ∧ shape1 = shape2 then eqs.npArrayEqual data1 data2 else .ok false
  | .object shape1 flat1, .object shape2 flat2 =>
    if shape1 = shape2 then flatEqual flat1 flat2 else .ok false
  | _, _ => .ok false

/-- `all(_deep_equal(x, y) for x, y in zip(...))`. -/
def flatEqual : List (PyObj E O) → List (PyObj E O) → Except PyErr Bool
  | x :: xs, y :: ys =>
    match deepEqual x y with
    | .ok true => flatEqual xs ys
    | r => r
  | _, _ => .ok true

end

/-- Equal values: a NaN is equal to a NaN, and arrays are equal when dtype, shape and entries
are. -/
inductive SameValue : PyObj E O → PyObj E O → Prop
  | float (typ : String) (x : PyFloat) : SameValue (.float typ x) (.float typ x)
  | other (typ : String) {o p : O} (h : eqs.objEq o p = .ok true) :
    SameValue (.other typ o) (.other typ p)
  | native (dtype : String) (shape : List Nat) {data1 data2 : E}
    (h : eqs.npArrayEqual data1 data2 = .ok true) :
    SameValue (.array (.native dtype shape data1)) (.array (.native dtype shape data2))
  | object (shape : List Nat) {flat1 flat2 : List (PyObj E O)}
    (h : ∀ p ∈ flat1.zip flat2, SameValue p.1 p.2) :
    SameValue (.array (.object shape flat1)) (.array (.object shape flat2))

theorem flatEqual_cons (x y : PyObj E O) (xs ys : List (PyObj E O)) :
    flatEqual eqs (x :: xs) (y :: ys) =
      match deepEqual eqs x y with
      | .ok true => flatEqual eqs xs ys
      | r => r := by
  rw [flatEqual]

mutual

theorem deepEqual_eq_true_iff (a b : PyObj E O) :
    deepEqual eqs a b = .ok true ↔ SameValue eqs a b := by
  match a, b with
  | .float s x, .float t y =>
    unfold deepEqual
    constructor
    · intro h
      have hst : s = t ∧ x = y := by
        cases x <;> cases y <;> simp_all
      rw [hst.1, hst.2]
      exact .float t y
    · rintro ⟨⟩
      cases x <;> simp
  | .array a, .array b =>
    unfold deepEqual
    exact arrayEqual_eq_true_iff a b
  | .other s o, .other t p =>
    unfold deepEqual
    by_cases h : s = t
    · subst h
      rw [if_pos rfl]
      exact ⟨.other s, fun h => by cases h; assumption⟩
    · rw [if_neg h]
      constructor
      · intro h
        cases h
      · rintro ⟨⟩
        exact absurd rfl h
  | .float _ _, .array _ | .float _ _, .other _ _ | .array _, .float _ _ | .array _, .other _ _
  | .other _ _, .float _ _ | .other _ _, .array _ =>
    unfold deepEqual
    constructor
    · intro h
      cases h
    · intro h
      cases h

theorem arrayEqual_eq_true_iff (a b : NpArray E O) :
    arrayEqual eqs a b = .ok true ↔ SameValue eqs (.array a) (.array b) := by
  match a, b with
  | .native dtype1 shape1 data1, .native dtype2 shape2 data2 =>
    unfold arrayEqual
    by_cases h : dtype1 = dtype2 ∧ shape1 = shape2
    · obtain ⟨rfl, rfl⟩ := h
      rw [if_pos ⟨rfl, rfl⟩]
      exact ⟨.native dtype1 shape1, fun h => by cases h; assumption⟩
    · rw [if_neg h]
      constructor
      · intro h
        cases h
      · rintro ⟨⟩
        exact absurd ⟨rfl, rfl⟩ h
  | .object shape1 flat1, .object shape2 flat2 =>
    unfold arrayEqual
    by_cases h : shape1 = shape2
    · subst h
      rw [if_pos rfl, flatEqual_eq_true_iff flat1 flat2]
      exact ⟨.object shape1, fun h => by cases h; assumption⟩
    · rw [if_neg h]
      constructor
      · intro h
        cases h
      · rintro ⟨⟩
        exact absurd rfl h
  | .native _ _ _, .object _ _ | .object _ _, .native _ _ _ =>
    unfold arrayEqual
    constructor
    · intro h
      cases h
    · intro h
      cases h

theorem flatEqual_eq_true_iff (xs ys : List (PyObj E O)) :
    flatEqual eqs xs ys = .ok true ↔ ∀ p ∈ xs.zip ys, SameValue eqs p.1 p.2 := by
  match xs, ys with
  | [], _ | _ :: _, [] => simp [flatEqual]
  | x :: xs, y :: ys =>
    have hhead := deepEqual_eq_true_iff x y
    have htail := flatEqual_eq_true_iff xs ys
    rw [List.zip_cons_cons, List.forall_mem_cons, ← hhead, ← htail, flatEqual_cons]
    cases h : deepEqual eqs x y with
    | error e => simp
    | ok b =>
      cases b with
      | false => simp
      | true => simp

end

end DeepEqual

/-! ## The three stores -/

/-- What the helpers of `union` ask about two values of one key. -/
structure StoreTests (T N M : Type) where
  tensorEqual : T → T → Except PyErr Bool
  deepEqual : N → N → Except PyErr Bool
  metaEq : M → M → Except PyErr Bool

def Equalities.tests {T E O M : Type} (eqs : Equalities T E O M) :
    StoreTests T (NpArray E O) M where
  tensorEqual := eqs.tensorEqual
  deepEqual := fun a b => Verl.deepEqual eqs (.array a) (.array b)
  metaEq := eqs.metaEq

/-- A batch: its size and its columns. -/
structure TensorColumns (T : Type) where
  batchSize : Nat
  columns : Dict T

/-- A `DataProto` with columns as a whole. -/
structure DataStores (T N M : Type) where
  batch : Option (TensorColumns T)
  nonTensorBatch : Dict N
  metaInfo : Dict M

/-- `assert test, msg`, where the test itself may raise. -/
def assertTest (test : Except PyErr Bool) (msg : String) : Except PyErr Unit := do
  let c ← test
  pyAssert c msg

section Helpers

variable {T N M : Type} (tests : StoreTests T N M)

def unionTensorDict (tensorDict1 tensorDict2 : TensorColumns T) :
    TensorColumns T × Option PyErr :=
  if tensorDict1.batchSize = tensorDict2.batchSize then
    let merged := Dict.mergeUntil
      (fun key v w => assertTest (tests.tensorEqual v w)
        s!"{key} in tensor_dict1 and tensor_dict2 are not the same object")
      false tensorDict1.columns tensorDict2.columns.items
    ({ tensorDict1 with columns := merged.1 }, merged.2)
  else
    let size1 := tensorDict1.batchSize
    let size2 := tensorDict2.batchSize
    (tensorDict1, some (.assertionError <| "Two tensor dict must have identical batch size. " ++
      s!"Got torch.Size([{size1}]) and torch.Size([{size2}])"))

def unionNumpyDict (tensorDict1 tensorDict2 : Dict N) : Dict N × Option PyErr :=
  Dict.mergeUntil
    (fun key v w => assertTest (tests.deepEqual v w)
      s!"`{key}` in tensor_dict1 and tensor_dict2 are not the same object.")
    true tensorDict1 tensorDict2.items

def unionTwoDict (dict1 dict2 : Dict M) : Dict M × Option PyErr :=
  Dict.mergeUntil
    (fun key v w => assertTest (tests.metaEq w v)
      s!"{key} in meta_dict1 and meta_dict2 are not the same object")
    true dict1 dict2.items

/-- `union`: what is in `self` afterwards, and what was raised. -/
def DataStores.union (self other : DataStores T N M) : DataStores T N M × Option PyErr :=
  match self.batch, other.batch with
  | some batch1, some batch2 =>
    let batch := unionTensorDict tests batch1 batch2
    let self := { self with batch := some batch.1 }
    if batch.2.isSome then (self, batch.2)
    else
      let nonTensorBatch := unionNumpyDict tests self.nonTensorBatch other.nonTensorBatch
      let self := { self with nonTensorBatch := nonTensorBatch.1 }
      if nonTensorBatch.2.isSome then (self, nonTensorBatch.2)
      else
        let metaInfo := unionTwoDict tests self.metaInfo other.metaInfo
        ({ self with metaInfo := metaInfo.1 }, metaInfo.2)
  | _, _ => (self, some (.attributeError "batch_size"))

variable {self other : DataStores T N M} {batch1 batch2 : TensorColumns T}

theorem DataStores.union_of_batch (h1 : self.batch = some batch1) (h2 : other.batch = some batch2) :
    let batch := unionTensorDict tests batch1 batch2
    let nonTensorBatch := unionNumpyDict tests self.nonTensorBatch other.nonTensorBatch
    let metaInfo := unionTwoDict tests self.metaInfo other.metaInfo
    self.union tests other =
      if batch.2.isSome then ({ self with batch := some batch.1 }, batch.2)
      else if nonTensorBatch.2.isSome then
        ({ self with batch := some batch.1, nonTensorBatch := nonTensorBatch.1 }, nonTensorBatch.2)
      else
        ({ batch := some batch.1, nonTensorBatch := nonTensorBatch.1, metaInfo := metaInfo.1 },
          metaInfo.2) := by
  unfold DataStores.union
  rw [h1, h2]

theorem mem_columns_unionTensorDict {c : String × T}
    (h : c ∈ (unionTensorDict tests batch1 batch2).1.columns.items) :
    c ∈ batch1.columns.items ∨ batch1.batchSize = batch2.batchSize ∧ c ∈ batch2.columns.items := by
  unfold unionTensorDict at h
  by_cases hsize : batch1.batchSize = batch2.batchSize
  · rw [if_pos hsize] at h
    exact (Dict.mem_items_mergeUntil h).imp_right fun hc => ⟨hsize, hc⟩
  · grind

theorem batchSize_unionTensorDict (batch1 batch2 : TensorColumns T) :
    (unionTensorDict tests batch1 batch2).1.batchSize = batch1.batchSize := by
  unfold unionTensorDict
  by_cases hsize : batch1.batchSize = batch2.batchSize
  · rw [if_pos hsize]
  · rw [if_neg hsize]

theorem DataStores.batch_union (self other : DataStores T N M) :
    (self.union tests other).1.batch = self.batch ∨
      ∃ batch1 batch2, self.batch = some batch1 ∧ other.batch = some batch2 ∧
        (self.union tests other).1.batch = some (unionTensorDict tests batch1 batch2).1 := by
  cases h1 : self.batch with
  | none =>
    left
    unfold DataStores.union
    rw [h1]
    exact h1
  | some batch1 =>
    cases h2 : other.batch with
    | none =>
      left
      unfold DataStores.union
      rw [h1, h2]
      exact h1
    | some batch2 =>
      refine .inr ⟨batch1, batch2, rfl, rfl, ?_⟩
      rw [union_of_batch tests h1 h2]
      split
      · rfl
      · split <;> rfl

theorem DataStores.union_eq_of_none (h : (self.union tests other).2 = none) :
    ∃ batch1 batch2, self.batch = some batch1 ∧ other.batch = some batch2 ∧
      (unionTensorDict tests batch1 batch2).2 = none ∧
      (self.union tests other).1 =
        { batch := some (unionTensorDict tests batch1 batch2).1
          nonTensorBatch := (unionNumpyDict tests self.nonTensorBatch other.nonTensorBatch).1
          metaInfo := (unionTwoDict tests self.metaInfo other.metaInfo).1 } := by
  cases h1 : self.batch with
  | none =>
    unfold DataStores.union at h
    rw [h1] at h
    cases h
  | some batch1 =>
    cases h2 : other.batch with
    | none =>
      unfold DataStores.union at h
      rw [h1, h2] at h
      cases h
    | some batch2 =>
      rw [union_of_batch tests h1 h2] at h ⊢
      cases htensor : (unionTensorDict tests batch1 batch2).2 with
      | some e =>
        rw [htensor] at h
        cases h
      | none =>
        cases hnumpy : (unionNumpyDict tests self.nonTensorBatch other.nonTensorBatch).2 with
        | some e =>
          rw [htensor, hnumpy] at h
          cases h
        | none => exact ⟨batch1, batch2, rfl, rfl, htensor, rfl⟩

end Helpers

/-! ## One store -/

section Stores

variable {β : Type}

/-- A key of both has values that are not the same. -/
def Differ (same : β → β → Prop) (d1 d2 : Dict β) : Prop :=
  ∃ key v w, d1.get? key = some v ∧ d2.get? key = some w ∧ ¬same v w

/-- `r` is `d1` with the first items of `d2`, those of `merged`: no key of `d1` is lost or has
another value. -/
structure PartialMerge (same : β → β → Prop) (d1 d2 r : Dict β) (merged : List (String × β)) :
    Prop where
  initial : merged <+: d2.items
  agree : ∀ p ∈ merged, ∀ v, d1.get? p.1 = some v → same v p.2
  kept : ∀ key v, d1.get? key = some v → ∃ w, r.get? key = some w ∧ (w = v ∨ same v w)
  gained : ∀ p ∈ merged, d1.get? p.1 = none → r.get? p.1 = some p.2
  nothingElse : ∀ p ∈ r.items, p ∈ d1.items ∨ p ∈ merged

theorem assertTest_eq_ok_iff {test : Except PyErr Bool} {msg : String} {u : Unit} :
    assertTest test msg = .ok u ↔ test = .ok true := by
  unfold assertTest
  rw [bind_eq_ok]
  constructor
  · simp
  · simp

theorem partialMerge_nil (same : β → β → Prop) (d1 d2 : Dict β) :
    PartialMerge same d1 d2 d1 [] where
  initial := List.nil_prefix
  agree := by simp
  kept := fun key v h => ⟨v, h, .inl rfl⟩
  gained := by simp
  nothingElse := fun p h => .inl h

theorem mergeUntil_partialMerge (test : β → β → Except PyErr Bool) (same : β → β → Prop)
    (hsame : ∀ v w, test v w = .ok true ↔ same v w) (msg : String → String) (overwrite : Bool)
    (d1 d2 : Dict β) :
    let r := Dict.mergeUntil (fun key v w => assertTest (test v w) (msg key)) overwrite d1 d2.items
    (r.2 ≠ none ↔ Differ same d1 d2) ∧
      ∃ merged, PartialMerge same d1 d2 r.1 merged ∧ (r.2 = none → merged = d2.items) := by
  intro r
  obtain ⟨merged, hinitial, hdict, hok, hall, hnone⟩ :=
    Dict.mergeUntil_spec (fun key v w => assertTest (test v w) (msg key)) overwrite d1 d2.items
      d2.nodup
  have hcheck : ∀ p : String × β,
      Dict.checkItem (fun key v w => assertTest (test v w) (msg key)) d1 p = .ok () ↔
        ∀ v, d1.get? p.1 = some v → same v p.2 := by
    intro p
    unfold Dict.checkItem
    cases hget : d1.get? p.1 with
    | none => simp
    | some old =>
      rw [assertTest_eq_ok_iff, hsame]
      simp
  refine ⟨?_, merged, ?_, hall⟩
  · rw [Ne, hnone]
    constructor
    · intro hfail
      by_contra hagree
      apply hfail
      intro p hp
      rw [hcheck]
      intro v hv
      by_contra hdiffer
      exact hagree ⟨p.1, v, p.2, hv, Dict.get?_eq_some hp, hdiffer⟩
    · rintro ⟨key, v, w, hv, hw, hdiffer⟩ hok
      exact hdiffer ((hcheck (key, w)).1 (hok _ (Dict.mem_items_of_get? hw)) v hv)
  · constructor
    · exact hinitial
    · grind
    · intro key v hv
      obtain ⟨w, hw, hval⟩ := Dict.get?_mergeItems_of_some hv merged
      refine ⟨w, by rw [hdict]; exact hw, ?_⟩
      rcases hval with hval | ⟨-, hmem⟩
      · exact .inl hval
      · exact .inr ((hcheck (key, w)).1 (hok _ hmem) v hv)
    · intro p hp hnew
      rw [hdict]
      exact Dict.get?_mergeItems_of_none (d2.nodup.sublist (hinitial.sublist.map _)) hp hnew
    · intro p hp
      rw [hdict] at hp
      exact Dict.mem_items_mergeItems hp

end Stores

/-! ## All three stores -/

section Union

variable {T E O M : Type} (eqs : Equalities T E O M)

theorem unionTensorDict_spec (batch1 batch2 : TensorColumns T) :
    let r := unionTensorDict eqs.tests batch1 batch2
    let same := fun v w => eqs.tensorEqual v w = .ok true
    (r.2 ≠ none ↔ batch1.batchSize ≠ batch2.batchSize ∨
        Differ same batch1.columns batch2.columns) ∧
      (batch1.batchSize ≠ batch2.batchSize → r.1 = batch1) ∧
      ∃ columns tensors, r.1 = { batchSize := batch1.batchSize, columns := columns } ∧
        PartialMerge same batch1.columns batch2.columns columns tensors ∧
        (r.2 = none → tensors = batch2.columns.items) := by
  intro r same
  by_cases hsize : batch1.batchSize = batch2.batchSize
  · obtain ⟨hraise, tensors, hmerge, hall⟩ := mergeUntil_partialMerge
      eqs.tensorEqual same (fun _ _ => Iff.rfl)
      (fun key => s!"{key} in tensor_dict1 and tensor_dict2 are not the same object") false
      batch1.columns batch2.columns
    have hr : r = _ := if_pos hsize
    rw [hr]
    refine ⟨?_, fun hne => absurd hsize hne, _, tensors, rfl, hmerge, hall⟩
    constructor
    · intro h
      exact .inr (hraise.1 h)
    · rintro (hne | hdiffer)
      · exact absurd hsize hne
      · exact hraise.2 hdiffer
  · have hr : r = _ := if_neg hsize
    rw [hr]
    refine ⟨?_, fun _ => rfl, _, [], rfl, partialMerge_nil same _ _, ?_⟩
    · simp [hsize]
    · intro h
      cases h

theorem unionNumpyDict_spec (dict1 dict2 : Dict (NpArray E O)) :
    let r := unionNumpyDict eqs.tests dict1 dict2
    let same := fun v w => SameValue eqs (.array v) (.array w)
    (r.2 ≠ none ↔ Differ same dict1 dict2) ∧
      ∃ arrays, PartialMerge same dict1 dict2 r.1 arrays ∧ (r.2 = none → arrays = dict2.items) :=
  mergeUntil_partialMerge _ _ (fun v w => deepEqual_eq_true_iff eqs (.array v) (.array w))
    (fun key => s!"`{key}` in tensor_dict1 and tensor_dict2 are not the same object.") true
    dict1 dict2

theorem unionTwoDict_spec (dict1 dict2 : Dict M) :
    let r := unionTwoDict eqs.tests dict1 dict2
    let same := fun v w => eqs.metaEq w v = .ok true
    (r.2 ≠ none ↔ Differ same dict1 dict2) ∧
      ∃ entries, PartialMerge same dict1 dict2 r.1 entries ∧
        (r.2 = none → entries = dict2.items) :=
  mergeUntil_partialMerge (fun v w => eqs.metaEq w v) _ (fun _ _ => Iff.rfl)
    (fun key => s!"{key} in meta_dict1 and meta_dict2 are not the same object") true dict1 dict2

end Union

/-- Tensors and arrays of integers. -/
def intEqualities : Equalities (List Int) (List Int) String PyVal where
  tensorEqual v w := .ok (v == w)
  npArrayEqual v w := .ok (v == w)
  objEq v w := .ok (v == w)
  metaEq v w := .ok (v.pyEq w)

/-- One row of tensors. -/
def tensorRow (columns : List (String × List Int)) :
    DataStores (List Int) (NpArray (List Int) String) PyVal where
  batch := some { batchSize := 1, columns := Dict.ofItems columns }
  nonTensorBatch := Dict.empty
  metaInfo := Dict.empty

end Verl
