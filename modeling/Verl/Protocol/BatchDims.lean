import Verl.Lib.Dict
import Verl.Lib.Interleave

/-!
# Batch dimensions of `DataProto` (`verl/protocol.py`)

`fold_batch_dim` views `[bsz, ..]` as `[m, bsz / m, ..]`, `unfold_batch_dim` views it back.  The
first writes the folded numpy columns into the dictionary of its argument, the second sets the
batch size of its argument's `TensorDict`.  `unfold_column_chunks` cuts the second dimension of
some columns into chunks, a row each, and repeats the rows of the others.

    unfold (fold d m) = d, and both leave their argument unchanged   ↔  d has no column
    unfold_column_chunks d s keys cuts and repeats, in one row order ↔
      keys is a list, or d has no numpy column; and the sizes of the cut columns allow it

A tensor or array is its shape and its entries in row-major order.
-/

namespace Verl

open List Dict

namespace BatchDims

@[ext]
structure Arr (α : Type) where
  shape : List Nat
  data : List α
  size_eq : data.length = shape.prod

structure TensorDict (α : Type) where
  batchSize : List Nat
  columns : Dict (Arr α)

@[ext]
structure DataProto (α ν : Type) where
  batch : Option (TensorDict α)
  nonTensorBatch : Dict (Arr ν)
  metaInfo : Dict PyVal

variable {α ν : Type}

/-! ## Algorithm -/

def Arr.reshape (a : Arr α) (shape : List Nat) : Except PyErr (Arr α) :=
  if h : a.data.length = shape.prod then .ok { a with shape := shape, size_eq := h }
  else .error (.valueError s!"cannot reshape array of size {a.data.length} into shape {shape}")

/-- `np.reshape(a, (m, -1, *rest))`. -/
def Arr.reshapeInfer (a : Arr α) (m : Nat) (rest : List Nat) : Except PyErr (Arr α) :=
  if m * rest.prod = 0 then
    .error (.valueError s!"cannot reshape array of size {a.data.length}")
  else a.reshape (m :: a.data.length / (m * rest.prod) :: rest)

/-- `td.view(*shape)`, of the batch dimensions. -/
def TensorDict.view (td : TensorDict α) (shape : List Nat) : Except PyErr (TensorDict α) := do
  let columns ← td.columns.mapValsM fun t => t.reshape (shape ++ t.shape.drop td.batchSize.length)
  return { batchSize := shape, columns }

/-- The leading dimensions that two shapes have in common. -/
def commonDims : List Nat → List Nat → List Nat
  | a :: as, b :: bs => if a = b then a :: commonDims as bs else []
  | _, _ => []

/-- `td.auto_batch_size_(batch_dims)`: as many dimensions as all tensors have in common. -/
def TensorDict.autoBatchSize (td : TensorDict α) (batchDims : Nat) : TensorDict α :=
  match td.columns.items with
  | [] => { td with batchSize := td.batchSize.take batchDims }
  | first :: rest =>
    let common := rest.foldl (fun dims c => commonDims dims c.2.shape)
    { td with batchSize := common (first.2.shape.take batchDims) }

def checkConsistency (d : DataProto α ν) : Except PyErr Unit :=
  match d.batch with
  | none => .ok ()
  | some td => do
    pyAssert (td.batchSize.length == 1) "only support num_batch_dims=1"
    d.nonTensorBatch.items.forM fun c => do
      let len ← pyGetItem c.2.shape 0
      pyAssert (td.batchSize == [len]) s!"key {c.1} length {len} is not equal to batch size"

/-- The constructor, which checks. -/
def DataProto.new (batch : Option (TensorDict α)) (nonTensorBatch : Dict (Arr ν))
    (metaInfo : Dict PyVal) : Except PyErr (DataProto α ν) := do
  checkConsistency { batch, nonTensorBatch, metaInfo }
  return { batch, nonTensorBatch, metaInfo }

/-- What is returned, and what `data` is afterwards: it has the dictionary of the result. -/
def foldBatchDim (data : DataProto α ν) (newBatchSize : Nat) :
    Except PyErr (DataProto α ν × DataProto α ν) :=
  match data.batch with
  | none => .error (.attributeError "batch_size")
  | some td => do
    let batchSize ← pyGetItem td.batchSize 0
    if newBatchSize = 0 then throw .zeroDivisionError
    pyAssert (batchSize % newBatchSize == 0) ""
    let tensor ← td.view [newBatchSize, td.batchSize.prod / newBatchSize]
    let nonTensor ← data.nonTensorBatch.mapValsM fun val =>
      val.reshapeInfer newBatchSize (val.shape.drop 1)
    let result ← DataProto.new (some (tensor.autoBatchSize 1)) nonTensor data.metaInfo
    return (result, { data with nonTensorBatch := nonTensor })

/-- What is returned, and what `data` is afterwards: `auto_batch_size_` is in place. -/
def unfoldBatchDim (data : DataProto α ν) (batchDims : Nat) :
    Except PyErr (DataProto α ν × DataProto α ν) :=
  match data.batch with
  | none => .error (.attributeError "auto_batch_size_")
  | some td => do
    let self := td.autoBatchSize batchDims
    let tensor ← self.view [self.batchSize.prod]
    let nonTensorNew ← data.nonTensorBatch.mapValsM fun val =>
      val.reshape (self.batchSize.prod :: val.shape.drop batchDims)
    let result ← DataProto.new (some tensor) nonTensorNew data.metaInfo
    return (result, { data with batch := some self })

/-! ## There and back -/

/-- A batch of `n` rows, as the constructors of `TensorDict` and of `DataProto` leave it. -/
structure WellFormed (d : DataProto α ν) (n : Nat) : Prop where
  batch : ∀ td, d.batch = some td → td.batchSize = [n] ∧
    ∀ c ∈ td.columns.items, c.2.shape.head? = some n
  nonTensor : ∀ c ∈ d.nonTensorBatch.items, c.2.shape.head? = some n

variable {d : DataProto α ν} {td : TensorDict α} {m n k s : Nat} {a b : Arr α}

theorem reshape_eq_ok {shape : List Nat} :
    a.reshape shape = .ok b ↔ b.shape = shape ∧ b.data = a.data := by
  unfold Arr.reshape
  constructor
  · intro h
    split at h
    · cases h
      exact ⟨rfl, rfl⟩
    · cases h
  · rintro ⟨rfl, hdata⟩
    have hsize := b.size_eq
    rw [hdata] at hsize
    rw [dif_pos hsize]
    exact congrArg Except.ok (Arr.ext rfl hdata.symm)

theorem checkConsistency_ok (h : WellFormed d n) : checkConsistency d = .ok () := by
  unfold checkConsistency
  cases hb : d.batch with
  | none => rfl
  | some td =>
    obtain ⟨hsize, -⟩ := h.batch td hb
    have hcols : (d.nonTensorBatch.items.forM fun c => do
        let len ← pyGetItem c.2.shape 0
        pyAssert (td.batchSize == [len]) s!"key {c.1} length {len} is not equal to batch size") =
          .ok () := by
      apply forM_eq_ok
      intro c hc
      have hhead := h.nonTensor c hc
      rw [head?_eq_getElem?] at hhead
      rw [pyGetItem_eq_ok.2 hhead, hsize]
      simp
    dsimp only
    rw [hsize] at hcols ⊢
    exact hcols

theorem new_eq {batch : Option (TensorDict α)} {nonTensor : Dict (Arr ν)} {metaInfo : Dict PyVal}
    (h : WellFormed ⟨batch, nonTensor, metaInfo⟩ n) :
    DataProto.new batch nonTensor metaInfo = .ok ⟨batch, nonTensor, metaInfo⟩ := by
  unfold DataProto.new
  rw [checkConsistency_ok h]
  rfl

theorem autoBatchSize_eq (dims : List Nat) (hne : td.columns.items ≠ [])
    (h : ∀ c ∈ td.columns.items, c.2.shape.take dims.length = dims) :
    td.autoBatchSize dims.length = { td with batchSize := dims } := by
  have hcommon : ∀ dims rest : List Nat, commonDims dims (dims ++ rest) = dims := by
    intro dims rest
    induction dims with
    | nil => simp [commonDims]
    | cons dim dims ih => simp [commonDims, ih]
  unfold TensorDict.autoBatchSize
  split
  · next hnil => exact absurd hnil hne
  · next first rest hitems =>
    rw [hitems, forall_mem_cons] at h
    have hfold : rest.foldl (fun dims c => commonDims dims c.2.shape) dims = dims := by
      clear hitems
      induction rest with
      | nil => rfl
      | cons c rest ih =>
        have hc := take_append_drop dims.length c.2.shape
        rw [h.2 c mem_cons_self] at hc
        rw [foldl_cons, ← hc, hcommon]
        exact ih ⟨h.1, fun c hc => h.2 c (mem_cons_of_mem _ hc)⟩
    rw [h.1]
    exact congrArg (fun b => { td with batchSize := b }) hfold

theorem shape_eq (h : a.shape.head? = some n) : a.shape = n :: a.shape.drop 1 := by
  cases hs : a.shape with
  | nil => simp [hs] at h
  | cons dim rest => simp_all

theorem autoBatchSize_folded {columns : Dict (Arr α)} (hne : columns.items ≠ [])
    (h : ∀ c ∈ columns.items, c.2.shape.take 2 = [m, k]) :
    (TensorDict.mk [m, k] columns).autoBatchSize 1 = ⟨[m], columns⟩ ∧
      (TensorDict.mk [m] columns).autoBatchSize 2 = ⟨[m, k], columns⟩ := by
  refine ⟨autoBatchSize_eq [m] hne fun c hc => ?_, autoBatchSize_eq [m, k] hne h⟩
  have htake := congrArg (List.take 1) (h c hc)
  rwa [take_take] at htake

theorem take_shape {columns columns' : Dict (Arr α)} {dims : List Nat} {i : Nat}
    (h : columns.mapValsM (fun t => t.reshape (dims ++ t.shape.drop i)) = .ok columns') :
    ∀ c ∈ columns'.items, c.2.shape.take dims.length = dims := by
  intro c hc
  obtain ⟨p, -, -, hp⟩ := exists_of_mem_mapValsM h hc
  rw [(reshape_eq_ok.1 hp).1, take_left]

theorem items_ne_nil {f : Arr α → Except PyErr (Arr α)} {columns columns' : Dict (Arr α)}
    (h : columns.mapValsM f = .ok columns') : columns'.items = [] ↔ columns.items = [] := by
  have hlen := (mapValsM_eq_ok h).length_eq
  rw [← length_eq_zero_iff, ← length_eq_zero_iff, hlen]

variable {columns : Dict (Arr α)} {nonTensor : Dict (Arr ν)}

theorem foldBatchDim_eq (hb : d.batch = some td) (hsize : td.batchSize = [m * k]) (hm : 0 < m)
    (hview : td.columns.mapValsM (fun t => t.reshape ([m, k] ++ t.shape.drop 1)) = .ok columns)
    (hfold : d.nonTensorBatch.mapValsM (fun val => val.reshapeInfer m (val.shape.drop 1)) =
      .ok nonTensor)
    (hwf : WellFormed ⟨some ((TensorDict.mk [m, k] columns).autoBatchSize 1), nonTensor,
      d.metaInfo⟩ n) :
    foldBatchDim d m = .ok (⟨some ((TensorDict.mk [m, k] columns).autoBatchSize 1), nonTensor,
      d.metaInfo⟩, { d with nonTensorBatch := nonTensor }) := by
  have hdiv : m * k / m = k := Nat.mul_div_cancel_left k hm
  have hassert : pyAssert (m * k % m == 0) "" = .ok () := by simp
  unfold foldBatchDim TensorDict.view
  simp only [hb, hsize, pyGetItem, prod_singleton, hdiv, length_singleton]
  simp only [getElem?_cons_zero, ok_bind, if_neg (Nat.ne_of_gt hm), hassert]
  rw [hview, hfold]
  simp only [pure_bind, ok_bind, new_eq hwf]
  rfl

theorem unfoldBatchDim_eq {folded : DataProto α ν} {i : Nat} (hb : folded.batch = some td)
    (hsize : (td.autoBatchSize i).batchSize.prod = n)
    (hview : (td.autoBatchSize i).columns.mapValsM (fun t => t.reshape ([n] ++ t.shape.drop (td.autoBatchSize i).batchSize.length)) = .ok columns)
    (hunfold : folded.nonTensorBatch.mapValsM (fun val => val.reshape (n :: val.shape.drop i)) = .ok nonTensor)
    (hwf : WellFormed ⟨some ⟨[n], columns⟩, nonTensor, folded.metaInfo⟩ n) :
    unfoldBatchDim folded i = .ok (⟨some ⟨[n], columns⟩, nonTensor, folded.metaInfo⟩,
      { folded with batch := some (td.autoBatchSize i) }) := by
  unfold unfoldBatchDim TensorDict.view
  simp only [hb, hsize]
  rw [hview, hunfold]
  simp only [pure_bind, ok_bind, new_eq hwf]
  rfl

/-- What is asked of the two functions: every column comes back, and `d'` and `folded'`, what
their arguments are afterwards, are what these were before. -/
def FoldsBack (d : DataProto α ν) (m : Nat) : Prop :=
  ∃ folded d' r folded', foldBatchDim d m = .ok (folded, d') ∧
    unfoldBatchDim folded 2 = .ok (r, folded') ∧
    (r.batch.map TensorDict.columns = d.batch.map TensorDict.columns ∧
      r.nonTensorBatch = d.nonTensorBatch) ∧ d' = d ∧ folded' = folded

theorem reshapeInfer_ne (hne : a.shape ≠ []) (m : Nat) :
    a.reshapeInfer m (a.shape.drop 1) ≠ .ok a := by
  intro h
  unfold Arr.reshapeInfer at h
  split at h
  · cases h
  · have hlen := congrArg length (reshape_eq_ok.1 h).1
    have hpos := length_pos_iff.2 hne
    rw [length_cons, length_cons, length_drop] at hlen
    omega

theorem foldBatchDim_ok {folded d' : DataProto α ν} (h : foldBatchDim d m = .ok (folded, d')) :
    0 < m ∧ ∃ td columns nonTensor k, d.batch = some td ∧
      td.columns.mapValsM (fun t => t.reshape ([m, k] ++ t.shape.drop td.batchSize.length)) =
        .ok columns ∧
      d.nonTensorBatch.mapValsM (fun val => val.reshapeInfer m (val.shape.drop 1)) = .ok nonTensor ∧
      folded.batch = some ((TensorDict.mk [m, k] columns).autoBatchSize 1) ∧
      d'.nonTensorBatch = nonTensor := by
  unfold foldBatchDim at h
  split at h
  · cases h
  · next td hb =>
    obtain ⟨_, -, h⟩ := bind_eq_ok.1 h
    split at h
    · cases h
    · next hm =>
      obtain ⟨_, -, h⟩ := bind_eq_ok.1 (show _ >>= _ = _ from h)
      obtain ⟨tensor, hview, h⟩ := bind_eq_ok.1 h
      obtain ⟨nonTensor, hfold, h⟩ := bind_eq_ok.1 h
      obtain ⟨columns, hcols, hview⟩ := bind_eq_ok.1 hview
      obtain ⟨result, hnew, h⟩ := bind_eq_ok.1 h
      obtain ⟨_, -, hnew⟩ := bind_eq_ok.1 hnew
      cases hview
      cases hnew
      cases h
      exact ⟨Nat.pos_of_ne_zero hm, td, columns, nonTensor, _, hb, hcols, hfold, rfl, rfl⟩

theorem unfoldBatchDim_ok {folded r folded' : DataProto α ν} {batchDims : Nat}
    (h : unfoldBatchDim folded batchDims = .ok (r, folded')) (hb : folded.batch = some td) :
    folded'.batch = some (td.autoBatchSize batchDims) := by
  unfold unfoldBatchDim at h
  rw [hb] at h
  obtain ⟨_, -, h⟩ := bind_eq_ok.1 h
  obtain ⟨_, -, h⟩ := bind_eq_ok.1 h
  obtain ⟨_, -, h⟩ := bind_eq_ok.1 h
  cases h
  rfl

theorem mapValsM_of_nil {f : Arr α → Except PyErr (Arr α)} (h : columns.items = []) :
    columns.mapValsM f = .ok columns := by
  have hmap := mapValsM_eq_ok_mapVals (f := f) (g := id) (d := columns) (by simp [h])
  rwa [mapVals_id fun _ _ => rfl] at hmap

/-- A column that is folded is changed in the argument, and so is the batch size of tensors that
are unfolded. -/
theorem FoldsBack.no_columns (hwf : WellFormed d n) (h : FoldsBack d m) :
    0 < m ∧ d.nonTensorBatch.items = [] ∧ ∃ td, d.batch = some td ∧ td.columns.items = [] := by
  obtain ⟨folded, d', r, folded', hfold, hunfold, -, rfl, rfl⟩ := h
  obtain ⟨hm, td, columns, nonTensor, k, hb, hview, hreshape, hfolded, rfl⟩ :=
    foldBatchDim_ok hfold
  refine ⟨hm, ?_, td, hb, ?_⟩
  · refine eq_nil_iff_forall_not_mem.2 fun c hc => ?_
    have hsame := forall₂_same.1 (mapValsM_eq_ok hreshape) c hc
    refine reshapeInfer_ne (fun hnil => ?_) m hsame.2
    have hhead := hwf.nonTensor c hc
    rw [hnil] at hhead
    cases hhead
  · by_contra hne
    have hne' := mt (items_ne_nil hview).1 hne
    obtain ⟨hfirst, hboth⟩ := autoBatchSize_folded hne' (take_shape hview)
    have hbatch := unfoldBatchDim_ok hunfold hfolded
    rw [hfolded, hfirst, hboth] at hbatch
    cases hbatch

/-- **Folding and unfolding.**  Only a batch without columns is left as it was. -/
theorem foldsBack_iff (hwf : WellFormed d n) (hdvd : m ∣ n) :
    FoldsBack d m ↔ 0 < m ∧ d.nonTensorBatch.items = [] ∧
      ∃ td, d.batch = some td ∧ td.columns.items = [] := by
  refine ⟨FoldsBack.no_columns hwf, ?_⟩
  rintro ⟨hm, hnil, td, hb, hcols⟩
  obtain ⟨k, rfl⟩ := hdvd
  obtain ⟨hsize, -⟩ := hwf.batch td hb
  have hauto : ∀ dims i, (TensorDict.mk dims td.columns).autoBatchSize i =
      ⟨dims.take i, td.columns⟩ := by simp [TensorDict.autoBatchSize, hcols]
  have hempty : ∀ n, WellFormed (DataProto.mk (some ⟨[n], td.columns⟩) d.nonTensorBatch
      d.metaInfo) n := by
    intro n
    refine ⟨?_, by simp [hnil]⟩
    rintro _ ⟨⟩
    simp [hcols]
  have hfold := foldBatchDim_eq hb hsize hm (mapValsM_of_nil hcols) (mapValsM_of_nil hnil)
    (by rw [hauto]; exact hempty m)
  rw [hauto] at hfold
  have hbatch : (DataProto.mk (some ⟨[m], td.columns⟩) d.nonTensorBatch d.metaInfo).batch =
    some ⟨[m], td.columns⟩ := rfl
  have hunfold := unfoldBatchDim_eq (n := m) (i := 2) hbatch (by rw [hauto]; simp)
    (by rw [hauto]; exact mapValsM_of_nil hcols) (mapValsM_of_nil hnil) (hempty m)
  rw [hauto] at hunfold
  exact ⟨_, _, _, _, hfold, hunfold, ⟨by rw [hb]; rfl, rfl⟩, rfl, rfl⟩

/-- Four rows and no column. -/
theorem foldsBack_empty :
    FoldsBack (⟨some ⟨[4], Dict.empty⟩, Dict.empty, Dict.empty⟩ : DataProto Nat Nat) 2 := by
  refine (foldsBack_iff (n := 4) ⟨?_, by simp [Dict.empty]⟩ (by decide)).2
    ⟨by decide, rfl, _, rfl, rfl⟩
  rintro _ ⟨⟩
  simp [Dict.empty]

/-- Two rows, one observation and one label each. -/
def observed : DataProto Nat Nat where
  batch := some ⟨[2], ⟨[("obs", ⟨[2], [5, 6], rfl⟩)], nodup_singleton _⟩⟩
  nonTensorBatch := ⟨[("labels", ⟨[2], [0, 1], rfl⟩)], nodup_singleton _⟩
  metaInfo := Dict.empty

theorem not_foldsBack_observed : ¬FoldsBack observed 1 := by
  intro h
  have hwf : WellFormed observed 2 := by
    refine ⟨?_, by simp [observed]⟩
    rintro _ ⟨⟩
    simp
  cases (h.no_columns hwf).2.1

/-! ## Chunks of columns -/

/-- The entries of row `i`. -/
def Arr.row (a : Arr α) (i : Nat) : List α :=
  getSlice a.data (i * (a.shape.drop 1).prod) (a.shape.drop 1).prod

theorem length_row {i : Nat} (h : a.shape.head? = some n) (hi : i < n) :
    (a.row i).length = (a.shape.drop 1).prod := by
  have hle : (i + 1) * (a.shape.drop 1).prod ≤ n * (a.shape.drop 1).prod :=
    Nat.mul_le_mul_right _ hi
  apply length_getSlice
  rw [a.size_eq, ← Nat.succ_mul]
  conv_rhs => rw [shape_eq h]
  exact hle

/-- `torch.repeat_interleave(a, s, dim=0)`, `np.repeat(a, s, axis=0)`. -/
def Arr.repeatInterleave (a : Arr α) (s : Nat) : Arr α where
  shape := a.shape.headD 0 * s :: a.shape.drop 1
  data := ((List.range (a.shape.headD 0 * s)).map fun q => a.row (q / s)).flatten
  size_eq := by
    rw [prod_cons]
    refine length_flatten_map_range fun q hq => ?_
    cases hs : a.shape with
    | nil => simp [hs] at hq
    | cons n rest =>
      rw [hs, headD_cons, Nat.mul_comm] at hq
      rw [length_row (n := n) (by rw [hs]; rfl) (Nat.div_lt_of_lt_mul hq), hs]

/-- The `n_split` chunks of the second dimension, a row each. -/
def Arr.splitRows (a : Arr α) (nSplit : Nat) : Except PyErr (Arr α) := do
  let rows ← pyGetItem a.shape 0
  let len ← pyGetItem a.shape 1
  let chunk ← floorDiv len nSplit
  a.reshape (rows * nSplit :: chunk :: a.shape.drop 2)

def unfoldColumn (nSplit : Nat) (splitKeys : List String) (c : String × Arr α) :
    Except PyErr (Arr α) :=
  if splitKeys.contains c.1 then c.2.splitRows nSplit else .ok (c.2.repeatInterleave nSplit)

/-- `key in split_keys if split_keys is not None else False` for the tensors. -/
def unfoldTensors (nSplit : Nat) (splitKeys : Option (List String)) (td : TensorDict α) :
    Except PyErr (TensorDict α) := do
  let columns ← (td.columns.mapVals Prod.mk).mapValsM (unfoldColumn nSplit (splitKeys.getD []))
  let batchSize ← pyGetItem td.batchSize 0
  if columns.items.all fun c => c.2.shape.head? == some (batchSize * nSplit) then
    return { batchSize := [batchSize * nSplit], columns }
  else throw (.runtimeError "the batch dimension of a tensor differs from the batch size")

def unfoldBatch (nSplit : Nat) (splitKeys : Option (List String)) :
    Option (TensorDict α) → Except PyErr (Option (TensorDict α))
  | none => .ok none
  | some td => (unfoldTensors nSplit splitKeys td).map some

/-- `key in split_keys` for the numpy arrays. -/
def unfoldArray (nSplit : Nat) (splitKeys : Option (List String)) (c : String × Arr ν) :
    Except PyErr (Arr ν) :=
  match splitKeys with
  | none => .error (.typeError "argument of type 'NoneType' is not iterable")
  | some keys => unfoldColumn nSplit keys c

def unfoldColumnChunks (d : DataProto α ν) (nSplit : Nat) (splitKeys : Option (List String)) :
    Except PyErr (DataProto α ν) := do
  let unfoldedBatch ← unfoldBatch nSplit splitKeys d.batch
  let repeatedNonTensorBatch ←
    (d.nonTensorBatch.mapVals Prod.mk).mapValsM (unfoldArray nSplit splitKeys)
  DataProto.new unfoldedBatch repeatedNonTensorBatch d.metaInfo

/-- Row `i * s + j` is chunk `j` of row `i`. -/
def ChunksOf (s : Nat) (a b : Arr α) : Prop :=
  ∃ n len, a.shape = n :: len :: a.shape.drop 2 ∧ b.shape = n * s :: len / s :: a.shape.drop 2 ∧
    ∀ i < n, ∀ j < s, b.row (i * s + j) =
      getSlice (a.row i) (j * (b.shape.drop 1).prod) (b.shape.drop 1).prod

/-- Row `i * s + j` is row `i`. -/
def CopiesOf (s : Nat) (a b : Arr α) : Prop :=
  ∃ n, a.shape = n :: a.shape.drop 1 ∧ b.shape = n * s :: a.shape.drop 1 ∧
    ∀ i < n, ∀ j < s, b.row (i * s + j) = a.row i

def ColumnRel (s : Nat) (keys : List String) (c r : String × Arr α) : Prop :=
  r.1 = c.1 ∧ if c.1 ∈ keys then ChunksOf s c.2 r.2 else CopiesOf s c.2 r.2

/-- What is asked of `unfold_column_chunks` for a batch of `n` rows. -/
def Unfolds (d : DataProto α ν) (n nSplit : Nat) (splitKeys : Option (List String)) : Prop :=
  ∃ r, unfoldColumnChunks d nSplit splitKeys = .ok r ∧ WellFormed r (n * nSplit) ∧
    Option.Rel (fun td td' => List.Forall₂ (ColumnRel nSplit (splitKeys.getD []))
      td.columns.items td'.columns.items) d.batch r.batch ∧
    List.Forall₂ (ColumnRel nSplit (splitKeys.getD [])) d.nonTensorBatch.items
      r.nonTensorBatch.items

/-- The second dimension can be cut: the chunks have all the entries. -/
def Splits (s : Nat) (a : Arr α) : Prop :=
  0 < s ∧ ∃ n len, a.shape = n :: len :: a.shape.drop 2 ∧
    a.data.length = n * s * (len / s * (a.shape.drop 2).prod)

theorem splitRows_eq_ok : a.splitRows s = .ok b ↔ 0 < s ∧ ∃ n len,
    a.shape = n :: len :: a.shape.drop 2 ∧ b.shape = n * s :: len / s :: a.shape.drop 2 ∧
      b.data = a.data := by
  constructor
  · intro h
    obtain ⟨n, hn, h⟩ := bind_eq_ok.1 h
    obtain ⟨len, hlen, h⟩ := bind_eq_ok.1 h
    obtain ⟨chunk, hchunk, h⟩ := bind_eq_ok.1 h
    rw [pyGetItem_eq_ok] at hn hlen
    unfold floorDiv at hchunk
    split at hchunk
    · cases hchunk
    · next hs =>
      cases hchunk
      refine ⟨Nat.pos_of_ne_zero hs, n, len, ?_, reshape_eq_ok.1 h⟩
      match hshape : a.shape with
      | [] => simp [hshape] at hn
      | [_] => simp [hshape] at hlen
      | _ :: _ :: _ => simp_all
  · rintro ⟨hs, n, len, hshape, hb⟩
    have hn : pyGetItem a.shape 0 = .ok n := pyGetItem_eq_ok.2 (by rw [hshape]; rfl)
    have hlen : pyGetItem a.shape 1 = .ok len := pyGetItem_eq_ok.2 (by rw [hshape]; rfl)
    unfold Arr.splitRows
    rw [hn, ok_bind, hlen, ok_bind, floorDiv_of_pos _ hs]
    exact reshape_eq_ok.2 hb

theorem splitRows_ok_iff : (∃ b, a.splitRows s = .ok b) ↔ Splits s a := by
  constructor
  · rintro ⟨b, h⟩
    obtain ⟨hs, n, len, hshape, hb, hdata⟩ := splitRows_eq_ok.1 h
    have hsize := b.size_eq
    rw [hb, hdata] at hsize
    exact ⟨hs, n, len, hshape, hsize⟩
  · rintro ⟨hs, n, len, hshape, hsize⟩
    exact ⟨⟨n * s :: len / s :: a.shape.drop 2, a.data, by rw [hsize]; rfl⟩,
      splitRows_eq_ok.2 ⟨hs, n, len, hshape, rfl, rfl⟩⟩

/-- Chunks are read off the entries, which a reshape leaves where they are. -/
theorem splitRows_chunks (h : a.splitRows s = .ok b) : ChunksOf s a b := by
  obtain ⟨-, n, len, hshape, hb, hdata⟩ := splitRows_eq_ok.1 h
  refine ⟨n, len, hshape, hb, fun i hi j hj => ?_⟩
  have hwidth : (a.shape.drop 1).prod = s * (b.shape.drop 1).prod := by
    have hsize := b.size_eq
    rw [hdata, a.size_eq, hshape, hb, prod_cons (a := n * s),
      Nat.mul_assoc] at hsize
    rw [hshape, hb]
    exact Nat.eq_of_mul_eq_mul_left (Nat.zero_lt_of_lt hi) hsize
  have hchunk : (j + 1) * (b.shape.drop 1).prod ≤ s * (b.shape.drop 1).prod :=
    Nat.mul_le_mul_right _ hj
  unfold Arr.row
  rw [hwidth, getSlice_getSlice _ (by rwa [← Nat.succ_mul]), hdata, Nat.add_mul, Nat.mul_assoc]

theorem repeatInterleave_copies (h : a.shape.head? = some n) :
    CopiesOf s a (a.repeatInterleave s) := by
  have hhead : a.shape.headD 0 = n := by rw [headD_eq_head?_getD, h]; rfl
  refine ⟨n, shape_eq h, by rw [← hhead]; rfl, fun i hi j hj => ?_⟩
  have hlt : i * s + j < n * s := by
    have hle : (i + 1) * s ≤ n * s := Nat.mul_le_mul_right s hi
    rw [Nat.succ_mul] at hle
    omega
  have hdiv : (i * s + j) / s = i := by
    rw [Nat.add_comm, Nat.add_mul_div_right _ _ (by omega), Nat.div_eq_of_lt hj, Nat.zero_add]
  have hpiece : getSlice ((range (n * s)).map fun q => a.row (q / s)).flatten
      ((i * s + j) * (a.shape.drop 1).prod) (a.shape.drop 1).prod = a.row ((i * s + j) / s) :=
    getSlice_flatten_map_range
      (fun q hq => length_row h (Nat.div_lt_of_lt_mul (Nat.mul_comm n s ▸ hq))) hlt
  rw [hdiv] at hpiece
  rw [← hpiece, ← hhead]
  rfl

variable {keys : List String} {splitKeys : Option (List String)}

theorem exists_unfoldColumn_iff {c : String × Arr α} :
    (∃ b, unfoldColumn s keys c = .ok b) ↔ (c.1 ∈ keys → Splits s c.2) := by
  unfold unfoldColumn
  by_cases hkey : c.1 ∈ keys
  · simp [hkey, splitRows_ok_iff]
  · simp [hkey]

theorem unfoldColumn_rel {c : String × Arr α} (hc : c.2.shape.head? = some n)
    (h : unfoldColumn s keys c = .ok b) : ColumnRel s keys c (c.1, b) := by
  unfold unfoldColumn at h
  refine ⟨rfl, ?_⟩
  split at h
  · next hkey =>
    rw [if_pos (contains_iff_mem.1 hkey)]
    exact splitRows_chunks h
  · next hkey =>
    rw [if_neg (mt contains_iff_mem.2 hkey)]
    cases h
    exact repeatInterleave_copies hc

theorem ColumnRel.head? {c r : String × Arr α} (h : ColumnRel s keys c r)
    (hc : c.2.shape.head? = some n) : r.2.shape.head? = some (n * s) := by
  obtain ⟨-, h⟩ := h
  split at h
  · obtain ⟨n', len, hshape, hr, -⟩ := h
    rw [hshape] at hc
    cases hc
    rw [hr]
    rfl
  · obtain ⟨n', hshape, hr, -⟩ := h
    rw [hshape] at hc
    cases hc
    rw [hr]
    rfl

theorem unfoldColumns_rel {columns columns' : Dict (Arr α)}
    (hcols : ∀ c ∈ columns.items, c.2.shape.head? = some n)
    (h : (columns.mapVals Prod.mk).mapValsM (unfoldColumn s keys) = .ok columns') :
    Forall₂ (ColumnRel s keys) columns.items columns'.items ∧
      ∀ c ∈ columns'.items, c.2.shape.head? = some (n * s) := by
  have hrel : Forall₂ (ColumnRel s keys) columns.items columns'.items := by
    have hall := forall₂_map_left_iff.1 (mapValsM_eq_ok h)
    refine ((forall₂_and_left _ _).2 ⟨hcols, hall⟩).imp fun c r hr => ?_
    obtain ⟨hc, hkey, hr⟩ := hr
    have hcolumn := unfoldColumn_rel hc hr
    rwa [← show r.1 = c.1 from hkey] at hcolumn
  refine ⟨hrel, fun r hr => ?_⟩
  obtain ⟨c, hc, hcr⟩ := exists_of_forall₂ hrel hr
  exact hcr.head? (hcols c hc)

theorem exists_unfoldColumns_iff {columns : Dict (Arr α)} :
    (∃ columns', (columns.mapVals Prod.mk).mapValsM (unfoldColumn s keys) = .ok columns') ↔
      ∀ c ∈ columns.items, c.1 ∈ keys → Splits s c.2 := by
  rw [exists_mapValsM_iff, items_mapVals, forall_mem_map]
  exact forall₂_congr fun c _ => exists_unfoldColumn_iff

/-- Without `split_keys` there must be no numpy column. -/
theorem exists_unfoldArrays_iff :
    (∃ nonTensor', (nonTensor.mapVals Prod.mk).mapValsM (unfoldArray s splitKeys) = .ok nonTensor') ↔
      (splitKeys = none → nonTensor.items = []) ∧
        ∀ c ∈ nonTensor.items, c.1 ∈ splitKeys.getD [] → Splits s c.2 := by
  cases splitKeys with
  | some keys =>
    show (∃ columns', (nonTensor.mapVals Prod.mk).mapValsM (unfoldColumn s keys) = .ok columns') ↔ _
    rw [exists_unfoldColumns_iff]
    simp
  | none =>
    rw [exists_mapValsM_iff, items_mapVals, forall_mem_map]
    simp [unfoldArray, eq_nil_iff_forall_not_mem]

theorem unfoldArrays_rel (hcols : ∀ c ∈ nonTensor.items, c.2.shape.head? = some n)
    {nonTensor' : Dict (Arr ν)}
    (h : (nonTensor.mapVals Prod.mk).mapValsM (unfoldArray s splitKeys) = .ok nonTensor') :
    Forall₂ (ColumnRel s (splitKeys.getD [])) nonTensor.items nonTensor'.items ∧
      ∀ c ∈ nonTensor'.items, c.2.shape.head? = some (n * s) := by
  cases splitKeys with
  | some keys => exact unfoldColumns_rel hcols h
  | none =>
    have hnil := (exists_unfoldArrays_iff.1 ⟨nonTensor', h⟩).1 rfl
    have hlen := (mapValsM_eq_ok h).length_eq
    rw [items_mapVals, hnil] at hlen
    have hnil' := eq_nil_of_length_eq_zero hlen.symm
    rw [hnil, hnil']
    exact ⟨.nil, nofun⟩

theorem unfoldTensors_eq (hsize : td.batchSize = [n])
    (hcols : ∀ c ∈ td.columns.items, c.2.shape.head? = some n)
    (h : (td.columns.mapVals Prod.mk).mapValsM (unfoldColumn s (splitKeys.getD [])) = .ok columns) :
    unfoldTensors s splitKeys td = .ok ⟨[n * s], columns⟩ := by
  have hall := (unfoldColumns_rel hcols h).2
  unfold unfoldTensors
  rw [h, hsize]
  show (if _ then _ else _ : Except PyErr (TensorDict α)) = _
  rw [if_pos (by simpa using hall)]
  rfl

/-- **Chunks of columns.**  The call returns rows in one order exactly when `split_keys` is a list
or there is no numpy column, and the columns that are split can be cut. -/
theorem unfolds_iff (hwf : WellFormed d n) :
    Unfolds d n s splitKeys ↔ (splitKeys = none → d.nonTensorBatch.items = []) ∧
      (∀ td, d.batch = some td → ∀ c ∈ td.columns.items, c.1 ∈ splitKeys.getD [] → Splits s c.2) ∧
      ∀ c ∈ d.nonTensorBatch.items, c.1 ∈ splitKeys.getD [] → Splits s c.2 := by
  constructor
  · rintro ⟨r, hok, -⟩
    obtain ⟨batch, hbatch, hok⟩ := bind_eq_ok.1 hok
    obtain ⟨nonTensor, hnonTensor, -⟩ := bind_eq_ok.1 hok
    obtain ⟨hnone, hsplits⟩ := exists_unfoldArrays_iff.1 ⟨nonTensor, hnonTensor⟩
    refine ⟨hnone, fun td hb => ?_, hsplits⟩
    rw [hb] at hbatch
    obtain ⟨td', htd', -⟩ := except_map_eq_ok.1 hbatch
    obtain ⟨columns, hcolumns, -⟩ := bind_eq_ok.1 htd'
    exact exists_unfoldColumns_iff.1 ⟨columns, hcolumns⟩
  · rintro ⟨hnone, htensors, harrays⟩
    obtain ⟨nonTensor, hnonTensor⟩ := exists_unfoldArrays_iff.2 ⟨hnone, harrays⟩
    obtain ⟨hrel, hheads⟩ := unfoldArrays_rel hwf.nonTensor hnonTensor
    cases hb : d.batch with
    | none =>
      have hwf' : WellFormed (DataProto.mk (none : Option (TensorDict α)) nonTensor d.metaInfo)
        (n * s) := ⟨nofun, hheads⟩
      refine ⟨_, ?_, hwf', by rw [hb]; exact .none, hrel⟩
      unfold unfoldColumnChunks
      rw [hb, hnonTensor]
      exact new_eq hwf'
    | some td =>
      obtain ⟨hsize, hcols⟩ := hwf.batch td hb
      obtain ⟨columns, hcolumns⟩ := exists_unfoldColumns_iff.2 (htensors td hb)
      obtain ⟨hcrel, hcheads⟩ := unfoldColumns_rel hcols hcolumns
      have hwf' : WellFormed (DataProto.mk (some ⟨[n * s], columns⟩) nonTensor d.metaInfo)
          (n * s) := by
        refine ⟨?_, hheads⟩
        rintro _ ⟨⟩
        exact ⟨rfl, hcheads⟩
      refine ⟨_, ?_, hwf', by rw [hb]; exact .some hcrel, hrel⟩
      unfold unfoldColumnChunks
      rw [hb, hnonTensor]
      unfold unfoldBatch
      dsimp only
      rw [unfoldTensors_eq hsize hcols hcolumns]
      exact new_eq hwf'

/-- With a numpy column and without `split_keys`. -/
theorem not_unfolds_observed : ¬Unfolds observed 2 2 none := by
  rintro ⟨r, hok, -⟩
  cases hok

/-- Four entries in the second dimension, two for each chunk. -/
theorem unfolds_pairs : Unfolds
    (⟨some ⟨[1], ⟨[("obs", ⟨[1, 4], [1, 2, 3, 4], rfl⟩)], nodup_singleton _⟩⟩, Dict.empty,
      Dict.empty⟩ : DataProto Nat Nat) 1 2 (some ["obs"]) := by
  refine (unfolds_iff ⟨?_, by simp [Dict.empty]⟩).2 ⟨nofun, ?_, by simp [Dict.empty]⟩
  · rintro _ ⟨⟩
    simp
  · rintro _ ⟨⟩ c hc -
    cases mem_singleton.1 hc
    exact ⟨by decide, 1, 4, rfl, rfl⟩

end BatchDims

end Verl
