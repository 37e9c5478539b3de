import Verl.Lib.PyStr
import Verl.Utils.Groupwise

/-! # The ids of group labels (`verl/utils/groupwise.py`, `as_torch_index`)

The labels come as a tensor, as an array or as a sequence, which `np.asarray` makes an array of
one dtype.  How they become numbers:

    torch integers and bools        the labels themselves
    other unsigned torch integers   factorized as texts
    torch floats                    rounded if all are near integers, else factorized as texts
    numpy integers                  the labels themselves
    numpy floats                    rounded if all are near integers, else truncated
    everything else                 `int(label)` if no call raises, else factorized

* `asTorchIndex`: the ids.
* `ReadsApart`: what the labels are read as tells them apart; numbers that are not factorized are
  `0..G-1` already.

    IsFactorization (asTorchIndex fns index) index.label ↔ ReadsApart fns index
                                                        (isFactorization_asTorchIndex_iff)

Labels that do not equal themselves (`nan`), infinities, and labels that are sequences are left
out. -/

namespace Verl.TorchIndex

/-! ## Labels -/

inductive FloatWidth where
  | float16
  | float32
  | float64

/-- A label; a scalar of numpy is one of its values, and an `obj` is neither a number nor a string.
A Python float has 64 bits. -/
inductive PyLabel (O : Type) where
  | bool (label : Bool)
  | int (label : Int)
  /-- `np.uint64` -/
  | uint64 (label : Nat)
  | float (width : FloatWidth) (label : ℚ)
  | str (label : String)
  | obj (label : O)

/-- What `==` and `<` compare: numbers, strings and objects. -/
abbrev LabelKey (O : Type) := ℚ ⊕ₗ (String ⊕ₗ O)

/-- What Python and numpy make of a label. -/
structure LabelFns (O : Type) where
  /-- `int(label)`, where it does not raise. -/
  intOfStr : String → Option Int
  intOfObj : O → Option Int
  /-- `<` does not raise. -/
  comparable : O → O → Bool
  strOfFloat : FloatWidth → ℚ → String
  strOfObj : O → String
  /-- The closest float64. -/
  toFloat64 : Int → ℚ
  /-- The int64 of a float that does not fit. -/
  overflow : Int → Int

def numKey {O : Type} (number : ℚ) : LabelKey O := toLex (Sum.inl number)

def strKey {O : Type} (label : String) : LabelKey O := toLex (Sum.inr (toLex (Sum.inl label)))

def objKey {O : Type} (label : O) : LabelKey O := toLex (Sum.inr (toLex (Sum.inr label)))

/-- `True == 1 == 1.0` -/
def PyLabel.key {O : Type} : PyLabel O → LabelKey O
  | bool label => numKey label.toNat
  | int label => numKey label
  | uint64 label => numKey label
  | float _ label => numKey label
  | str label => strKey label
  | obj label => objKey label

def fitsInt64 (number : Int) : Bool := -2 ^ 63 ≤ number ∧ number < 2 ^ 63

def int64? (number : Int) : Option Int := if fitsInt64 number then some number else none

section Functions

variable {O : Type} (fns : LabelFns O)

/-- `str(label)` -/
def LabelFns.str : PyLabel O → String
  | .bool label => if label then "True" else "False"
  | .int label => toString label
  | .uint64 label => toString label
  | .float width label => fns.strOfFloat width label
  | .str label => label
  | .obj label => fns.strOfObj label

/-- `int(label)` as an int64, where this does not raise. -/
def LabelFns.int : PyLabel O → Option Int
  | .bool label => some label.toNat
  | .int label => int64? label
  | .uint64 label => int64? label
  | .float _ label => int64? (truncate label)
  | .str label => (fns.intOfStr label).bind int64?
  | .obj label => (fns.intOfObj label).bind int64?

/-- A float without a fraction as an int64. -/
def LabelFns.int64OfFloat (number : Int) : Int :=
  if fitsInt64 number then number else fns.overflow number

/-- `<` compares two numbers, two strings, and what the objects' own method takes. -/
def LabelFns.lt? : PyLabel O → PyLabel O → Bool
  | .str _, .str _ => true
  | .str _, _ => false
  | _, .str _ => false
  | .obj label, .obj other => fns.comparable label other
  | .obj _, _ => false
  | _, .obj _ => false
  | _, _ => true

end Functions

/-! ## Arrays -/

/-- A flat array by its dtype. -/
inductive NdArray (O : Type) (n : Nat) where
  | bool (values : Fin n → Bool)
  /-- Signed and unsigned integers of any width. -/
  | integer (values : Fin n → Int)
  | floating (values : Fin n → ℚ)
  | str (values : Fin n → String)
  | object (values : Fin n → PyLabel O)

/-- The dtypes that `np.asarray` finds for a sequence. -/
inductive DType where
  | bool
  | int64
  | uint64
  | floating
  | str
  | object
  deriving DecidableEq

def PyLabel.dtype {O : Type} : PyLabel O → DType
  | bool _ => .bool
  | int label =>
    if fitsInt64 label then .int64
    else if 0 ≤ label ∧ label < 2 ^ 64 then .uint64
    else .object
  | uint64 _ => .uint64
  | float _ _ => .floating
  | str _ => .str
  | obj _ => .object

/-- `np.promote_types`, where a string takes up the numbers beside it. -/
def DType.promote : DType → DType → DType
  | .object, _ => .object
  | _, .object => .object
  | .str, _ => .str
  | _, .str => .str
  | .floating, _ => .floating
  | _, .floating => .floating
  | .int64, .uint64 => .floating
  | .uint64, .int64 => .floating
  | .uint64, _ => .uint64
  | _, .uint64 => .uint64
  | .int64, _ => .int64
  | _, .int64 => .int64
  | .bool, .bool => .bool

/-- A string of a numpy array ends before its trailing zeros. -/
def stripNul (label : String) : String :=
  String.ofList (label.toList.reverse.dropWhile (· = Char.ofNat 0)).reverse

section Arrays

variable {O : Type} (fns : LabelFns O) {n : Nat}

/-- A number as an element of an integer array. -/
def PyLabel.integer : PyLabel O → Int
  | bool label => label.toNat
  | int label => label
  | uint64 label => label
  | float _ label => truncate label
  | _ => 0

/-- A number as an element of a float array. -/
def LabelFns.float : PyLabel O → ℚ
  | .float _ label => label
  | label => fns.toFloat64 label.integer

/-- `np.array(labels, dtype=dtype)` -/
def LabelFns.arrayOf (labels : Fin n → PyLabel O) : DType → NdArray O n
  | .bool => .bool fun i => (labels i).integer = 1
  | .int64 | .uint64 => .integer fun i => (labels i).integer
  | .floating => .floating fun i => fns.float (labels i)
  | .str => .str fun i => stripNul (fns.str (labels i))
  | .object => .object labels

/-- `np.asarray` of a sequence; the empty one has floats. -/
def LabelFns.asarray (labels : Fin n → PyLabel O) : NdArray O n :=
  match List.ofFn fun i => (labels i).dtype with
  | [] => fns.arrayOf labels .floating
  | dtype :: dtypes => fns.arrayOf labels (dtypes.foldl DType.promote dtype)

/-- `arr.astype(object)` -/
def NdArray.objects : NdArray O n → Fin n → PyLabel O
  | bool values, i => .bool (values i)
  | integer values, i => .int (values i)
  | floating values, i => .float .float64 (values i)
  | str values, i => .str (values i)
  | object values, i => values i

/-- No element raises. -/
def allSome (numbers : Fin n → Option Int) : Option (Fin n → Int) :=
  if h : ∀ i, (numbers i).isSome then some fun i => (numbers i).get (h i) else none

/-- `arr.astype(np.int64)` -/
def NdArray.astypeInt64 : NdArray O n → Option (Fin n → Int)
  | bool values => some fun i => (values i).toNat
  | integer values => some fun i => (values i).bmod (2 ^ 64)
  | floating values => some fun i => fns.int64OfFloat (truncate (values i))
  | str values => allSome fun i => fns.int (.str (values i))
  | object values => allSome fun i => fns.int (values i)

/-- `np.allclose(values, np.rint(values), rtol=0.0, atol=1e-6)` -/
def nearIntegers (values : Fin n → ℚ) : Bool := ∀ i, |values i - rint (values i)| ≤ 1 / 10 ^ 6

end Arrays

/-! ## Algorithm -/

section Algorithm

variable {O : Type} [LinearOrder O] (fns : LabelFns O) {n : Nat}

/-- What `np.unique` sorts: the labels, or their texts if some of them do not compare. -/
def LabelFns.factorKeys (labels : Fin n → PyLabel O) (i : Fin n) : LabelKey O :=
  if ∀ i j, fns.lt? (labels i) (labels j) then (labels i).key else strKey (fns.str (labels i))

/-- `np.unique(arr, return_inverse=True)[1]` -/
def LabelFns.factorize (labels : Fin n → PyLabel O) (i : Fin n) : Int :=
  uniqueInverse (fns.factorKeys labels) i

/-- Numeric string coercion, then factorization. -/
def LabelFns.coerceOrFactorize (arr : NdArray O n) : Fin n → Int :=
  match arr.astypeInt64 fns with
  | some coerced => coerced
  | none => fns.factorize arr.objects

/-- The part of `as_torch_index` for arrays. -/
def LabelFns.arrayIndex (arr : NdArray O n) : Fin n → Int :=
  match arr with
  | .integer values => fun i => (values i).bmod (2 ^ 64)
  | .floating values =>
    if nearIntegers values then fun i => fns.int64OfFloat (rint (values i))
    else fns.coerceOrFactorize (.floating values)
  | arr => fns.coerceOrFactorize arr

/-- Labels as they are handed in. -/
inductive Index (O : Type) (n : Nat) where
  /-- Signed integers, uint8 and bool. -/
  | integerTensor (labels : Fin n → Int)
  /-- Wider unsigned integers. -/
  | unsignedTensor (labels : Fin n → Nat)
  | floatTensor (labels : Fin n → ℚ)
  | ndarray (arr : NdArray O n)
  | sequence (labels : Fin n → PyLabel O)

def asTorchIndex (index : Index O n) : Fin n → Int :=
  match index with
  | .integerTensor labels => labels
  | .unsignedTensor labels => fns.factorize fun i => .str (toString (labels i))
  | .floatTensor labels =>
    if nearIntegers labels then fun i => fns.int64OfFloat (rint (labels i))
    else fns.factorize fun i => .str (fns.str (.float .float64 (labels i)))
  | .ndarray arr => fns.arrayIndex arr
  | .sequence labels => fns.arrayIndex (fns.asarray labels)

end Algorithm

/-! ## Property -/

section Property

variable {O : Type} (fns : LabelFns O) {n : Nat}

def Index.label : Index O n → Fin n → LabelKey O
  | integerTensor labels, i => numKey (labels i)
  | unsignedTensor labels, i => numKey (labels i)
  | floatTensor labels, i => numKey (labels i)
  | ndarray arr, i => (arr.objects i).key
  | sequence labels, i => (labels i).key

/-- The numbers that an array's elements are read as, if they are not factorized. -/
def LabelFns.readArray : NdArray O n → Option (Fin n → Int)
  | .floating values =>
    if nearIntegers values then some fun i => fns.int64OfFloat (rint (values i))
    else some fun i => fns.int64OfFloat (truncate (values i))
  | arr => arr.astypeInt64 fns

/-- The numbers that the labels are read as, if they are not factorized. -/
def LabelFns.read : Index O n → Option (Fin n → Int)
  | .integerTensor labels => some labels
  | .unsignedTensor _ => none
  | .floatTensor labels =>
    if nearIntegers labels then some fun i => fns.int64OfFloat (rint (labels i)) else none
  | .ndarray arr => fns.readArray arr
  | .sequence labels => fns.readArray (fns.asarray labels)

/-- What is factorized. -/
def LabelFns.factorized : Index O n → Fin n → PyLabel O
  | .integerTensor labels, i => .int (labels i)
  | .unsignedTensor labels, i => .str (toString (labels i))
  | .floatTensor labels, i => .str (fns.str (.float .float64 (labels i)))
  | .ndarray arr, i => arr.objects i
  | .sequence labels, i => (fns.asarray labels).objects i

variable [LinearOrder O]

/-- Labels that are read as numbers are read as `0..G-1`, two labels never as one number; labels
that are factorized do not share a text where texts stand for them. -/
def ReadsApart (index : Index O n) : Prop :=
  match fns.read index with
  | some numbers =>
    (∀ i j, numbers i = numbers j ↔ index.label i = index.label j) ∧
      ∀ i, 0 ≤ numbers i ∧ numbers i < numLabels index.label
  | none =>
    ∀ i j, fns.factorKeys (fns.factorized index) i = fns.factorKeys (fns.factorized index) j ↔
      index.label i = index.label j

end Property

/-! ## Lemmas -/

section Lemmas

variable {O : Type} [LinearOrder O] (fns : LabelFns O) {n : Nat}

theorem arrayIndex_eq (arr : NdArray O n) :
    fns.arrayIndex arr = (fns.readArray arr).getD (fns.factorize arr.objects) := by
  unfold LabelFns.arrayIndex LabelFns.readArray
  cases arr with
  | integer values => rfl
  | floating values =>
    dsimp only
    split
    · rfl
    · rfl
  | bool values => rfl
  | str values =>
    dsimp only [LabelFns.coerceOrFactorize]
    cases NdArray.astypeInt64 fns (.str values) with
    | none => rfl
    | some coerced => rfl
  | object values =>
    dsimp only [LabelFns.coerceOrFactorize]
    cases NdArray.astypeInt64 fns (.object values) with
    | none => rfl
    | some coerced => rfl

theorem asTorchIndex_eq (index : Index O n) :
    asTorchIndex fns index = (fns.read index).getD (fns.factorize (fns.factorized index)) := by
  cases index with
  | integerTensor labels => rfl
  | unsignedTensor labels => rfl
  | floatTensor labels =>
    unfold asTorchIndex LabelFns.read
    dsimp only
    split
    · rfl
    · rfl
  | ndarray arr => exact arrayIndex_eq fns arr
  | sequence labels => exact arrayIndex_eq fns (fns.asarray labels)

end Lemmas

/-! ## Top theorem -/

theorem isFactorization_asTorchIndex_iff {O : Type} [LinearOrder O] (fns : LabelFns O) {n : Nat}
    (index : Index O n) :
    IsFactorization (asTorchIndex fns index) index.label ↔ ReadsApart fns index := by
  rw [asTorchIndex_eq]
  unfold ReadsApart
  cases fns.read index with
  | some numbers => exact isFactorization_iff numbers index.label
  | none =>
    exact isFactorization_uniqueInverse_iff (fns.factorKeys (fns.factorized index)) index.label

/-- Functions for labels without objects and without floats to print. -/
def numberFns : LabelFns Empty where
  intOfStr label := (pyInt label.toList).toOption
  intOfObj := nofun
  comparable := nofun
  strOfFloat _ label := toString label
  strOfObj := nofun
  toFloat64 label := label
  overflow _ := -2 ^ 63

/-- `[2, 2, 5]` -/
def skippedLabels : Index Empty 3 := .sequence ![.int 2, .int 2, .int 5]

/-- `[1.25, 1.75]` -/
def fractionLabels : Index Empty 2 := .sequence ![.float .float64 (5 / 4), .float .float64 (7 / 4)]

/-- Integers keep their gaps, and two floats are truncated to one integer. -/
theorem not_isFactorization_skipped_fraction :
    ¬IsFactorization (asTorchIndex numberFns skippedLabels) skippedLabels.label ∧
      ¬IsFactorization (asTorchIndex numberFns fractionLabels) fractionLabels.label := by
  constructor
  · intro h
    have hbound := ((isFactorization_iff _ _).1 h).2 2
    exact absurd hbound (by decide +kernel)
  · intro h
    have hlabel := (h.eq_iff 0 1).1 (by decide +kernel)
    exact absurd hlabel (by decide +kernel)

/-! ## Labels of one kind -/

section Kinds

variable {O : Type} [LinearOrder O] (fns : LabelFns O) {n : Nat}

end Kinds

/-! ## Labels by their dtype

`Verl.asTorchIndex` takes the dtype of the labels as given; it is the part for arrays. -/

section GivenDType

variable {O : Type} [LinearOrder O] {fns : LabelFns O} {n : Nat}

def NdArray.ofGroupIndex : GroupIndex O n → NdArray O n
  | .integer labels => .integer labels
  | .floating labels => .floating labels
  | .object labels => .object fun i => .obj (labels i)

/-- Both say the same of an object. -/
structure AgreesWith (fns : LabelFns O) (labelType : LabelType O) : Prop where
  toInt64? : ∀ label, fns.int (.obj label) = labelType.toInt64? label
  comparable : ∀ label other, fns.comparable label other = labelType.comparable label other
  str : ∀ label, fns.strOfObj label = labelType.str label

/-- The numbers fit into an int64. -/
def FitsInt64 : GroupIndex O n → Prop
  | .integer labels => ∀ i, fitsInt64 (labels i)
  | .floating labels => ∀ i, fitsInt64 (rint (labels i)) ∧ fitsInt64 (truncate (labels i))
  | .object _ => True

end GivenDType

end Verl.TorchIndex
