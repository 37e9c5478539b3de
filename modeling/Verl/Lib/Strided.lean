import Verl.Lib.Interleave

/-! # Strided tensors

A tensor is a view into its storage: an offset, and for each dimension its size and its stride.
`elems` are its elements, the last dimension running fastest.

`elems_contiguous`: read with the strides of its shape, a storage gives its own elements, so that a
copy can be given any shape of as many elements. -/

namespace Verl

variable {α : Type}

/-- The elements at an offset, for dimensions `(size, stride)`. -/
def readAt (data : List α) : List (Nat × Nat) → Nat → List α
  | [], offset => data[offset]?.toList
  | (size, stride) :: dims, offset =>
    (List.range size).flatMap fun i => readAt data dims (offset + i * stride)

structure Strided (α : Type) where
  data : List α
  offset : Nat
  dims : List (Nat × Nat)
  /-- Every element is in the storage. -/
  inStorage : (readAt data dims offset).length = (dims.map Prod.fst).prod

namespace Strided

def shape (t : Strided α) : List Nat := t.dims.map Prod.fst

def elems (t : Strided α) : List α := readAt t.data t.dims t.offset

theorem length_elems (t : Strided α) : t.elems.length = t.shape.prod := t.inStorage

end Strided

/-- The strides of a contiguous tensor. -/
def contiguousDims : List Nat → List (Nat × Nat)
  | [] => []
  | size :: shape => (size, shape.prod) :: contiguousDims shape

theorem map_fst_contiguousDims (shape : List Nat) :
    (contiguousDims shape).map Prod.fst = shape := by
  induction shape with
  | nil => rfl
  | cons size shape ih => exact congrArg (size :: ·) ih

theorem readAt_contiguousDims (data : List α) (shape : List Nat) (offset : Nat)
    (h : offset + shape.prod ≤ data.length) :
    readAt data (contiguousDims shape) offset = getSlice data offset shape.prod := by
  induction shape generalizing offset with
  | nil =>
    rw [List.prod_nil] at h
    show data[offset]?.toList = List.take 1 (List.drop offset data)
    rw [List.drop_eq_getElem_cons (by omega), List.getElem?_eq_getElem (by omega)]
    rfl
  | cons size shape ih =>
    rw [List.prod_cons] at h
    show (List.range size).flatMap (fun i => readAt data (contiguousDims shape)
      (offset + i * shape.prod)) = _
    have hpiece : (List.range size).map (fun i => readAt data (contiguousDims shape)
          (offset + i * shape.prod)) =
        (List.range size).map fun i => getSlice (data.drop offset) (i * shape.prod) shape.prod := by
      apply List.map_congr_left
      intro i hi
      have hle := mul_add_le (List.mem_range.1 hi) shape.prod
      rw [ih _ (by omega)]
      unfold getSlice
      rw [List.drop_drop]
    rw [List.flatMap_def, hpiece, flatten_getSlice]
    rfl

/-- The storage `elems`, read in a shape of as many elements. -/
def Strided.contiguous (elems : List α) (shape : List Nat) (h : elems.length = shape.prod) :
    Strided α where
  data := elems
  offset := 0
  dims := contiguousDims shape
  inStorage := by
    rw [readAt_contiguousDims _ _ _ (by omega), getSlice_zero _ (Nat.le_of_eq h), map_fst_contiguousDims, h]

theorem Strided.shape_contiguous (elems : List α) (shape : List Nat)
    (h : elems.length = shape.prod) : (Strided.contiguous elems shape h).shape = shape :=
  map_fst_contiguousDims shape

theorem Strided.elems_contiguous (elems : List α) (shape : List Nat)
    (h : elems.length = shape.prod) : (Strided.contiguous elems shape h).elems = elems := by
  show readAt elems (contiguousDims shape) 0 = elems
  rw [readAt_contiguousDims _ _ _ (by omega), getSlice_zero _ (Nat.le_of_eq h)]

end Verl
