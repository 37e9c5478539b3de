import Verl.Lib.Jagged
import Verl.Lib.NdTensor
import Verl.Lib.Tensor
import Verl.Utils.MicroBatches

/-!
# Chunks of jagged columns (`verl/utils/tensordict_utils.py`)

`chunk_tensordict` unbinds a jagged nested tensor; where `unbind` raises, it takes the rows from a
padded copy, whose *first* dimension it cuts at a row's length.  The other dimension may be the
ragged one: `position_ids` of shape `(4, seq_len)` have `_ragged_idx = 2`.

    concat (chunk td c) = td, and chunks, padded or not, and selections are the same
      ↔ `unbind` works for every jagged column, and the cut is harmless there   (chunksRoundTrip_iff)

A jagged nested tensor is given by the rows between its offsets, a `TensorDict` by its regular
columns (dense tensors, non-tensor stacks) and its nested ones.
-/

namespace Verl

open List Function Dict

namespace Jagged

open NdTensor (AgreeOff)

/-- A tensor, with the number of its dimensions. -/
abbrev Sample (α : Type) := Σ n, NdTensor n α

/-- `raggedDim` is `_ragged_idx - 1`: the dimension of a row that is ragged. -/
@[ext]
structure Nested (α : Type) where
  dim : Nat
  raggedDim : Fin dim
  rows : List (NdTensor dim α)
  agree : ∀ s ∈ rows, ∀ t ∈ rows, AgreeOff raggedDim s.shape t.shape

variable {α τ : Type}

def Nested.tensors (nt : Nested α) : List (Sample α) := nt.rows.map (Sigma.mk nt.dim)

/-- Rows as tensors of `n` dimensions; `torch.cat` raises otherwise. -/
def ofDim (n : Nat) (t : Sample α) : Except PyErr (NdTensor n α) :=
  if h : t.1 = n then .ok (h ▸ t.2)
  else .error (.runtimeError "Tensors must have same number of dimensions")

/-- `raggedIdx` counts the batch dimension. -/
def nestedTensorFromTensorList (tensors : List (Sample α)) (raggedIdx : Nat) :
    Except PyErr (Nested α) :=
  match tensors with
  | [] => .error (.assertionError "Must provide at least one tensor")
  | first :: rest =>
    if h : 1 ≤ raggedIdx ∧ raggedIdx ≤ first.1 then do
      let rows ← (first :: rest).mapM (ofDim first.1)
      if agree : ∀ s ∈ rows, ∀ t ∈ rows,
          AgreeOff (⟨raggedIdx - 1, by omega⟩ : Fin first.1) s.shape t.shape then
        .ok { dim := first.1, raggedDim := ⟨raggedIdx - 1, by omega⟩, rows, agree }
      else .error (.runtimeError "Sizes of tensors must match except in the dimension")
    else .error (.assertionError s!"ragged_idx must be in [1, {first.1}].")

/-- The columns of a batch, the nested ones apart. -/
@[ext]
structure NestedDict (τ α : Type) where
  regular : TensorDict τ
  nested : Dict (Nested α)
  length_eq : ∀ p ∈ nested.items, p.2.rows.length = regular.batchSize

/-- `td[key] = value` for the nested columns, with the test of the batch size. -/
def NestedDict.new (regular : TensorDict τ) (nested : Dict (Nested α)) :
    Except PyErr (NestedDict τ α) :=
  if length_eq : ∀ p ∈ nested.items, p.2.rows.length = regular.batchSize then
    .ok { regular, nested, length_eq }
  else .error (.runtimeError "batch dimension mismatch")

/-! ## Algorithm

`raises n d` says whether the `unbind` of this torch raises for rows of `n` dimensions that are
ragged along `d`. -/

variable (raises : (n : Nat) → Fin n → Bool)

def unbind (nt : Nested α) : Except PyErr (List (Sample α)) :=
  if raises nt.dim nt.raggedDim then
    .error (.runtimeError "unbind(): only supported for NestedTensor when jagged dimension is 1")
  else .ok nt.tensors

def concatNestedTensors : List (Nested α) → Except PyErr (Nested α)
  | [] => .error .indexError
  | first :: rest => do
    let unbindTensors ← (first :: rest).mapM (unbind raises)
    nestedTensorFromTensorList unbindTensors.flatten (first.raggedDim + 1)

def concatTensordict (data : List (NestedDict τ α)) : Except PyErr (NestedDict τ α) :=
  match data with
  | [] => .error (.assertionError "Must have at least one tensordict")
  | first :: rest =>
    if ∀ td ∈ rest, (∀ key ∈ first.nested.keys, key ∈ td.nested.keys) ∧
        ∀ key ∈ td.nested.keys, key ∈ first.nested.keys then do
      let output ← TensorDict.cat ((first :: rest).map NestedDict.regular)
      let nested ← Dict.mapValsM (concatNestedTensors raises)
        (first.nested.mapVals fun key _ => (first :: rest).filterMap fun td => td.nested.get? key)
      NestedDict.new output nested
    else if first.nested.items.isEmpty then .error (.keyError "the TensorDicts have different keys")
    else .error (.assertionError "All tensordicts must have the same set of nested tensors.")

def seqLen (nt : Nested α) (row : NdTensor nt.dim α) : Nat := row.shape nt.raggedDim

def maxSeqLen (nt : Nested α) : Nat := ((nt.rows.map (seqLen nt)).max?).getD 0

def padRow [Zero α] (nt : Nested α) (row : NdTensor nt.dim α) : NdTensor nt.dim α :=
  NdTensor.ofFn (Function.update row.shape nt.raggedDim (maxSeqLen nt)) fun ix =>
    (row.get? ix).getD 0

/-- `nt.to_padded_tensor(0)`. -/
def toPaddedTensor [Zero α] (nt : Nested α) : List (NdTensor nt.dim α) := nt.rows.map (padRow nt)

/-- `padded[j, :seq_len]`, the first dimension of the row. -/
def cutRow (nt : Nested α) (row : NdTensor nt.dim α) (seqLen : Nat) : Sample α :=
  ⟨nt.dim, row.slice ⟨0, nt.raggedDim.pos⟩ 0 seqLen⟩

/-- The chunk `i` of a nested column, by its components. -/
def chunkUnbound (tensors : List (Sample α)) (raggedIdx chunkSize i : Nat) :
    Except PyErr (Nested α) :=
  nestedTensorFromTensorList (getSlice tensors (i * chunkSize) chunkSize) raggedIdx

/-- The chunk `i` of a nested column, by its padded copy. -/
def chunkPadded [Zero α] (nt : Nested α) (chunks chunkSize i : Nat) : Except PyErr (Nested α) := do
  let paddedChunks ← torchChunk (toPaddedTensor nt) chunks
  let lengths := nt.rows.map (seqLen nt)
  let padded ← pyGetItem paddedChunks i
  let chunkTensors := List.zipWith (cutRow nt) padded (getSlice lengths (i * chunkSize) chunkSize)
  nestedTensorFromTensorList chunkTensors (nt.raggedDim + 1)

def chunkNested [Zero α] (chunks chunkSize i : Nat) (nt : Nested α) : Except PyErr (Nested α) :=
  match unbind raises nt with
  | .ok tensors => chunkUnbound tensors (nt.raggedDim + 1) chunkSize i
  | .error _ => chunkPadded nt chunks chunkSize i

/-- The chunks one after the other, each with all its columns. -/
def chunkTensordict [Zero α] (td : NestedDict τ α) (chunks : Nat) :
    Except PyErr (List (NestedDict τ α)) := do
  if chunks = 0 then throw .zeroDivisionError
  pyAssert (td.regular.batchSize % chunks == 0) ("expecting td with length divisible by chunks, " ++
    s!"but got {td.regular.batchSize} and {chunks}")
  let chunkSize := td.regular.batchSize / chunks
  (List.range chunks).mapM fun i => do
    let nested ← td.nested.mapValsM (chunkNested raises chunks chunkSize i)
    NestedDict.new (td.regular.gather (List.range' (i * chunkSize) chunkSize)) nested

def selectNested (indices : List Nat) (nt : Nested α) : Except PyErr (Nested α) := do
  let tensors ← unbind raises nt
  nestedTensorFromTensorList (← indices.mapM (pyGetItem tensors)) (nt.raggedDim + 1)

def indexSelectNestedDict (batch : NestedDict τ α) (indices : List Nat) :
    Except PyErr (NestedDict τ α) := do
  let regular ← indexSelectTensorDict batch.regular indices
  let nested ← batch.nested.mapValsM (selectNested raises indices)
  NestedDict.new regular nested

/-! ## Rows at given indices -/

def Nested.gather (nt : Nested α) (idxs : List Nat) : Nested α where
  dim := nt.dim
  raggedDim := nt.raggedDim
  rows := gatherRows nt.rows idxs
  agree s hs t ht := by
    obtain ⟨i, -, hi⟩ := mem_filterMap.1 hs
    obtain ⟨j, -, hj⟩ := mem_filterMap.1 ht
    exact nt.agree s (mem_of_getElem? hi) t (mem_of_getElem? hj)

def NestedDict.gather (td : NestedDict τ α) (idxs : List Nat) : NestedDict τ α where
  regular := td.regular.gather idxs
  nested := td.nested.mapVals fun _ nt => nt.gather idxs
  length_eq p hp := by
    obtain ⟨q, hq, rfl⟩ := mem_map.1 hp
    show (gatherRows q.2.rows idxs).length = _
    rw [length_gatherRows, td.length_eq q hq]
    rfl

variable {raises} {nt : Nested α} {td : NestedDict τ α} {idxs : List Nat} {chunks chunkSize i : Nat}

theorem nested_gather (td : NestedDict τ α) (idxs : List Nat) :
    (td.gather idxs).nested = td.nested.mapVals fun _ nt => nt.gather idxs := rfl

theorem new_gather : NestedDict.new (td.regular.gather idxs)
    (td.nested.mapVals fun _ nt => nt.gather idxs) = .ok (td.gather idxs) :=
  dif_pos (td.gather idxs).length_eq

theorem mapM_ofDim {n : Nat} (rows : List (NdTensor n α)) :
    (rows.map (Sigma.mk n)).mapM (ofDim n) = .ok rows := by
  induction rows with
  | nil => rfl
  | cons row rows ih =>
    rw [map_cons, mapM_cons, ih]
    unfold ofDim
    rw [dif_pos rfl]
    rfl

theorem nestedTensorFromTensorList_tensors (h : nt.rows ≠ []) :
    nestedTensorFromTensorList nt.tensors (nt.raggedDim + 1) = .ok nt := by
  obtain ⟨dim, raggedDim, rows, agree⟩ := nt
  cases rows with
  | nil => exact absurd rfl h
  | cons first rest =>
    have hrows := mapM_ofDim (first :: rest)
    rw [map_cons] at hrows
    unfold nestedTensorFromTensorList Nested.tensors
    rw [map_cons]
    dsimp only
    rw [dif_pos ⟨Nat.le_add_left 1 _, raggedDim.isLt⟩, hrows]
    exact dif_pos agree

theorem nil_ne_ok {raggedIdx : Nat} {r : Nested α} :
    nestedTensorFromTensorList [] raggedIdx ≠ .ok r := by
  intro h
  cases h

/-- What comes out is made of what went in. -/
theorem tensors_eq {tensors : List (Sample α)} {raggedIdx : Nat}
    (h : nestedTensorFromTensorList tensors raggedIdx = .ok nt) : nt.tensors = tensors := by
  cases tensors with
  | nil => exact absurd h nil_ne_ok
  | cons first rest =>
    unfold nestedTensorFromTensorList at h
    dsimp only at h
    split at h
    · obtain ⟨rows, hrows, h⟩ := bind_eq_ok.1 h
      split at h
      · cases h
        refine forall₂_eq_eq_eq ▸ forall₂_map_left_iff.2 ?_
        refine (forall₂_of_mapM_eq_ok hrows).flip.imp fun row t ht => ?_
        unfold ofDim at ht
        split at ht
        · next hdim =>
          cases ht
          obtain ⟨n, t⟩ := t
          cases hdim
          rfl
        · cases ht
      · cases h
    · cases h

theorem gatherRows_tensors (nt : Nested α) (idxs : List Nat) :
    gatherRows nt.tensors idxs = (nt.gather idxs).tensors := by
  show gatherRows (nt.rows.map _) idxs =
    (gatherRows nt.rows idxs).map fun row => (⟨nt.dim, row⟩ : Sample α)
  unfold gatherRows
  rw [map_filterMap]
  exact filterMap_congr fun i _ => getElem?_map

/-- The rows at one index or more, all of the batch. -/
theorem fromList_gather (hne : idxs ≠ []) (h : ∀ i ∈ idxs, i < nt.rows.length) :
    nestedTensorFromTensorList (gatherRows nt.tensors idxs) (nt.raggedDim + 1) =
      .ok (nt.gather idxs) := by
  rw [gatherRows_tensors]
  refine nestedTensorFromTensorList_tensors fun hnil => hne ?_
  have hlen := congrArg length hnil
  rw [Nested.gather, length_gatherRows_of_lt h] at hlen
  exact eq_nil_of_length_eq_zero hlen

/-! ## Without the padded copy -/

theorem unbind_eq (h : raises nt.dim nt.raggedDim = false) : unbind raises nt = .ok nt.tensors := by
  unfold unbind
  rw [h]
  rfl

theorem chunkUnbound_eq (hs : 0 < chunkSize) (h : nt.rows.length = chunks * chunkSize)
    (hi : i < chunks) : chunkUnbound nt.tensors (nt.raggedDim + 1) chunkSize i =
      .ok (nt.gather (range' (i * chunkSize) chunkSize)) := by
  have hslice := gatherRows_range' nt.tensors (i * chunkSize) chunkSize
  unfold chunkUnbound getSlice
  rw [← hslice]
  apply fromList_gather
  · rw [Ne, range'_eq_nil_iff]
    omega
  · rw [h]
    exact lt_of_mem_piece hi

theorem chunkTensordict_eq [Zero α] (hc : 0 < chunks)
    (hn : td.regular.batchSize = chunks * chunkSize) (hs : td.nested.items = [] ∨ 0 < chunkSize)
    (hr : ∀ p ∈ td.nested.items, raises p.2.dim p.2.raggedDim = false) :
    chunkTensordict raises td chunks =
      .ok ((range chunks).map fun i => td.gather (range' (i * chunkSize) chunkSize)) := by
  unfold chunkTensordict
  rw [if_neg (Nat.ne_of_gt hc), hn, Nat.mul_mod_right, Nat.mul_div_cancel_left _ hc]
  apply mapM_eq_ok_map
  intro i hi
  have hnested : td.nested.mapValsM (chunkNested raises chunks chunkSize i) =
      .ok (td.nested.mapVals fun _ nt => nt.gather (range' (i * chunkSize) chunkSize)) := by
    apply mapValsM_eq_ok_mapVals
    intro p hp
    unfold chunkNested
    rw [unbind_eq (hr p hp)]
    have hpos := hs.resolve_left (ne_nil_of_mem hp)
    exact chunkUnbound_eq hpos (by rw [td.length_eq p hp, hn]) (mem_range.1 hi)
  rw [hnested, ok_bind, new_gather]

theorem concatNestedTensors_eq {is : List Nat} {iss : List (List Nat)}
    (hr : raises nt.dim nt.raggedDim = false) (hne : (is :: iss).flatten ≠ [])
    (h : ∀ i ∈ (is :: iss).flatten, i < nt.rows.length) :
    concatNestedTensors raises ((is :: iss).map nt.gather) =
      .ok (nt.gather (is :: iss).flatten) := by
  have hunbind : ((is :: iss).map nt.gather).mapM (unbind raises) =
      .ok ((is :: iss).map (gatherRows nt.tensors)) := by
    rw [mapM_map]
    apply mapM_eq_ok_map
    intro is' _
    rw [gatherRows_tensors]
    exact unbind_eq hr
  show (((is :: iss).map nt.gather).mapM (unbind raises) >>= fun unbindTensors =>
    nestedTensorFromTensorList unbindTensors.flatten (nt.raggedDim + 1)) = _
  rw [hunbind, ok_bind, ← flatMap_def, ← gatherRows_flatten]
  exact fromList_gather hne h

theorem Nested.gather_range (nt : Nested α) : nt.gather (range nt.rows.length) = nt := by
  obtain ⟨dim, raggedDim, rows, agree⟩ := nt
  unfold Nested.gather
  congr 1
  exact gatherRows_range rows

/-- Rows that are, together, all of the batch in its order. -/
theorem concatTensordict_eq {is : List Nat} {iss : List (List Nat)}
    (hflat : (is :: iss).flatten = range td.regular.batchSize)
    (hpos : td.nested.items = [] ∨ 0 < td.regular.batchSize)
    (hr : ∀ p ∈ td.nested.items, raises p.2.dim p.2.raggedDim = false) :
    concatTensordict raises ((is :: iss).map td.gather) = .ok td := by
  have hregular : ((is :: iss).map td.gather).map NestedDict.regular =
      (is :: iss).map td.regular.gather := map_map
  have hlt : ∀ is' ∈ is :: iss, ∀ i ∈ is', i < td.regular.batchSize := by
    intro is' his' i hi
    have hmem := mem_flatten.2 ⟨is', his', hi⟩
    rw [hflat] at hmem
    exact mem_range.1 hmem
  have hcolumns : (td.gather is).nested.mapVals (fun key _ =>
        ((is :: iss).map td.gather).filterMap fun td' => td'.nested.get? key) =
      td.nested.mapVals fun _ nt => (is :: iss).map nt.gather := by
    rw [nested_gather, mapVals_mapVals]
    refine mapVals_congr fun p hp => ?_
    rw [filterMap_map, ← filterMap_eq_map]
    refine filterMap_congr fun idxs _ => ?_
    show (td.gather idxs).nested.get? p.1 = _
    rw [nested_gather, get?_mapVals, get?_eq_some hp]
    rfl
  obtain ⟨columns, hmap, hnested⟩ := exists_mapValsM (d := td.nested)
    (f := fun nt => .ok ((is :: iss).map nt.gather)) (g := concatNestedTensors raises) (by
      intro p hp
      refine ⟨_, rfl, ?_⟩
      have hlen := td.length_eq p hp
      rw [concatNestedTensors_eq (hr p hp), hflat, ← hlen, Nested.gather_range]
      · grind
      · rw [hflat, hlen]
        exact fun i hi => mem_range.1 hi)
  rw [mapValsM_eq_ok_mapVals (g := fun nt => (is :: iss).map nt.gather) fun _ _ => rfl] at hmap
  cases hmap
  show (if ∀ td' ∈ iss.map td.gather, (∀ key ∈ (td.gather is).nested.keys, _) ∧ _ then _ else _) = _
  rw [if_pos (by
    intro td' htd'
    obtain ⟨idxs, -, rfl⟩ := mem_map.1 htd'
    simp [NestedDict.gather]), ← map_cons, hregular,
    TensorDict.cat_map_gather _ _ _ hlt, hcolumns, hnested, hflat,
    TensorDict.gather_range]
  exact dif_pos td.length_eq

theorem mapM_pyGetItem {β : Type} {xs : List β} (h : ∀ i ∈ idxs, i < xs.length) :
    idxs.mapM (pyGetItem xs) = .ok (gatherRows xs idxs) := by
  induction idxs with
  | nil => rfl
  | cons i idxs ih =>
    rw [forall_mem_cons] at h
    have hi := getElem?_eq_getElem h.1
    rw [mapM_cons, pyGetItem_eq_ok.2 hi, ih h.2]
    unfold gatherRows
    rw [filterMap_cons_some hi]
    rfl

theorem indexSelect_eq (hne : idxs ≠ []) (h : ∀ i ∈ idxs, i < td.regular.batchSize)
    (hr : ∀ p ∈ td.nested.items, raises p.2.dim p.2.raggedDim = false) :
    indexSelectNestedDict raises td idxs = .ok (td.gather idxs) := by
  have hnested : td.nested.mapValsM (selectNested raises idxs) = .ok (td.gather idxs).nested := by
    rw [nested_gather]
    apply mapValsM_eq_ok_mapVals
    intro p hp
    rw [← td.length_eq p hp] at h
    unfold selectNested
    rw [unbind_eq (hr p hp), ok_bind, mapM_pyGetItem (by
      unfold Nested.tensors
      rwa [length_map]), ok_bind, fromList_gather hne h]
  unfold indexSelectNestedDict indexSelectTensorDict
  rw [if_pos (by simpa using h), hnested]
  exact new_gather

/-! ## With the padded copy -/

/-- A row after it was padded and cut. -/
def paddedRow [Zero α] (nt : Nested α) (row : NdTensor nt.dim α) : Sample α :=
  cutRow nt (padRow nt row) (seqLen nt row)

/-- Either the first dimension of a row is the ragged one, or all rows have one length, and their
first dimension is no longer than it. -/
def CutHarmless (nt : Nested α) : Prop :=
  nt.raggedDim.val = 0 ∨ ∀ row ∈ nt.rows, (∀ other ∈ nt.rows, seqLen nt other ≤ seqLen nt row) ∧
    row.shape ⟨0, nt.raggedDim.pos⟩ ≤ seqLen nt row

theorem chunkPadded_eq [Zero α] (h : nt.rows.length = chunks * chunkSize) (hi : i < chunks) :
    chunkPadded nt chunks chunkSize i = nestedTensorFromTensorList
      ((getSlice nt.rows (i * chunkSize) chunkSize).map (paddedRow nt)) (nt.raggedDim + 1) := by
  have hlen : (toPaddedTensor nt).length = chunks * chunkSize := by
    unfold toPaddedTensor
    rw [length_map, h]
  unfold chunkPadded
  rw [torchChunk_mul (Nat.zero_lt_of_lt hi) hlen, ok_bind, pyGetItem_eq_ok.2 (by
    rw [getElem?_map, getElem?_range hi]
    rfl), ok_bind]
  dsimp only
  unfold toPaddedTensor
  rw [getSlice_map, getSlice_map, zipWith_map, zipWith_self]
  rfl

theorem le_maxSeqLen {row : NdTensor nt.dim α} (h : row ∈ nt.rows) :
    seqLen nt row ≤ maxSeqLen nt := by
  have hmem := mem_map_of_mem (f := seqLen nt) h
  unfold maxSeqLen
  cases hmax : (nt.rows.map (seqLen nt)).max? with
  | none => rw [max?_eq_none_iff.1 hmax] at hmem; cases hmem
  | some m => exact (max?_eq_some_iff.1 hmax).2 _ hmem

/-- The longest row has the maximum length. -/
theorem eq_maxSeqLen {row : NdTensor nt.dim α} (h : row ∈ nt.rows)
    (hmax : ∀ other ∈ nt.rows, seqLen nt other ≤ seqLen nt row) : seqLen nt row = maxSeqLen nt := by
  refine Nat.le_antisymm (le_maxSeqLen h) ?_
  unfold maxSeqLen
  cases hm : (nt.rows.map (seqLen nt)).max? with
  | none => exact Nat.zero_le _
  | some m =>
    obtain ⟨other, hother, rfl⟩ := mem_map.1 (max?_eq_some_iff.1 hm).1
    exact hmax other hother

theorem get?_padRow [Zero α] {row : NdTensor nt.dim α} {ix : Fin nt.dim → Nat} (h : row ∈ nt.rows)
    (hix : ix nt.raggedDim < seqLen nt row) : (padRow nt row).get? ix = row.get? ix := by
  have hmax := le_maxSeqLen h
  have hsome := row.isSome_get? ix
  have hall : (∀ d, ix d < update row.shape nt.raggedDim (maxSeqLen nt) d) ↔
      ∀ d, ix d < row.shape d := by
    rw [NdTensor.forall_lt_update]
    refine ⟨fun hlt d => ?_, fun hlt => ⟨by omega, fun d _ => hlt d⟩⟩
    by_cases hd : d = nt.raggedDim
    · rwa [hd]
    · exact hlt.2 d hd
  show (if ∀ d, ix d < update row.shape nt.raggedDim (maxSeqLen nt) d then
    some ((row.get? ix).getD 0) else none) = _
  rw [← hall] at hsome
  cases hget : row.get? ix with
  | none =>
    refine if_neg fun hlt => ?_
    have hin := hsome.2 hlt
    rw [hget] at hin
    cases hin
  | some v =>
    rw [hget] at hsome
    rw [if_pos (hsome.1 rfl)]
    rfl

theorem paddedRow_eq_iff [Zero α] {row : NdTensor nt.dim α} (h : row ∈ nt.rows) :
    paddedRow nt row = ⟨nt.dim, row⟩ ↔ nt.raggedDim.val = 0 ∨
      seqLen nt row = maxSeqLen nt ∧ row.shape ⟨0, nt.raggedDim.pos⟩ ≤ seqLen nt row := by
  have hsize : (padRow nt row).shape =
    update row.shape nt.raggedDim (maxSeqLen nt) := rfl
  have hmax := le_maxSeqLen h
  unfold paddedRow cutRow
  rw [Sigma.mk.injEq, heq_eq_eq, and_iff_right rfl]
  constructor
  · intro heq
    refine or_iff_not_imp_left.2 fun hne => ?_
    have hdim : nt.raggedDim ≠ ⟨0, nt.raggedDim.pos⟩ := fun h => hne (congrArg Fin.val h)
    have hshape := congrArg NdTensor.shape heq
    have hragged := congrFun hshape nt.raggedDim
    have hfirst := congrFun hshape ⟨0, nt.raggedDim.pos⟩
    rw [NdTensor.shape_slice, update_of_ne hdim, hsize, update_self] at hragged
    rw [NdTensor.size_slice] at hfirst
    exact ⟨hragged.symm, by omega⟩
  · rintro (hzero | ⟨hlen, hfirst⟩)
    · have hdim : (⟨0, nt.raggedDim.pos⟩ : Fin nt.dim) = nt.raggedDim := Fin.ext hzero.symm
      rw [hdim]
      apply NdTensor.ext
      · rw [NdTensor.shape_slice, hsize, update_self, update_idem,
          Nat.min_eq_left hmax]
        exact update_eq_self _ _
      · intro ix
        rw [NdTensor.get?_slice, Nat.zero_add, update_eq_self]
        by_cases hix : ix nt.raggedDim < seqLen nt row
        · rw [if_pos hix, get?_padRow h hix]
        · rw [if_neg hix, NdTensor.get?_eq_none (Nat.le_of_not_lt hix)]
    · have hpad : padRow nt row = row := by
        apply NdTensor.ext
        · rw [hsize, ← hlen]
          exact update_eq_self _ _
        · intro ix
          by_cases hix : ix nt.raggedDim < seqLen nt row
          · exact get?_padRow h hix
          · rw [NdTensor.get?_eq_none (d := nt.raggedDim) (t := row) (Nat.le_of_not_lt hix)]
            apply NdTensor.get?_eq_none (d := nt.raggedDim)
            rw [hsize, update_self, ← hlen]
            exact Nat.le_of_not_lt hix
      rw [hpad, NdTensor.slice_zero hfirst]

theorem forall_slice_iff {β : Type} {xs : List β} {P : β → Prop}
    (h : xs.length = chunks * chunkSize) :
    (∀ x ∈ xs, P x) ↔ ∀ i < chunks, ∀ x ∈ getSlice xs (i * chunkSize) chunkSize, P x := by
  have hflat := flatten_getSlice xs chunkSize chunks
  rw [getSlice_zero xs (Nat.le_of_eq h)] at hflat
  calc (∀ x ∈ xs, P x)
      ↔ ∀ x ∈ ((range chunks).map fun i => getSlice xs (i * chunkSize) chunkSize).flatten,
          P x := by rw [hflat]
    _ ↔ _ := by simp only [forall_mem_flatten, forall_mem_map, mem_range]

/-- The padded copy gives the chunks of the components exactly when no row is cut short. -/
theorem chunkPadded_eq_chunkUnbound_iff [Zero α] (hs : 0 < chunkSize)
    (h : nt.rows.length = chunks * chunkSize) :
    (∀ i < chunks, chunkPadded nt chunks chunkSize i =
      chunkUnbound nt.tensors (nt.raggedDim + 1) chunkSize i) ↔ CutHarmless nt := by
  have hrows : CutHarmless nt ↔ ∀ row ∈ nt.rows, paddedRow nt row = ⟨nt.dim, row⟩ := by
    constructor
    · rintro (hzero | hall) row hrow
      · exact (paddedRow_eq_iff hrow).2 (.inl hzero)
      · exact (paddedRow_eq_iff hrow).2 (.inr ⟨eq_maxSeqLen hrow (hall row hrow).1, (hall row hrow).2⟩)
    · intro hall
      refine or_iff_not_imp_left.2 fun hne row hrow => ?_
      have hrow' := ((paddedRow_eq_iff hrow).1 (hall row hrow)).resolve_left hne
      exact ⟨fun other hother => hrow'.1 ▸ le_maxSeqLen hother, hrow'.2⟩
  rw [hrows, forall_slice_iff h]
  refine forall₂_congr fun i hi => ?_
  have hunbound := chunkUnbound_eq hs h hi
  rw [chunkPadded_eq h hi]
  constructor
  · intro heq
    rw [hunbound] at heq
    have htensors := (tensors_eq heq).symm.trans (tensors_eq hunbound)
    unfold Nested.tensors at htensors
    rw [getSlice_map] at htensors
    exact map_inj_left.1 htensors
  · intro heq
    unfold chunkUnbound Nested.tensors
    rw [getSlice_map, map_inj_left.2 heq]

/-! ## Every batch -/

variable [Zero α]

/-- What is asked of a batch: its chunks, put together again, are the batch; a chunk is the same
by components and by a padded copy; and a selection has the rows at its indices. -/
structure RoundTrips (raises : (n : Nat) → Fin n → Bool) (td : NestedDict τ α) (chunks : Nat) :
    Prop where
  concat : (chunkTensordict raises td chunks >>= concatTensordict raises) = .ok td
  padded : ∀ p ∈ td.nested.items, ∀ i < chunks,
    chunkPadded p.2 chunks (td.regular.batchSize / chunks) i =
      chunkUnbound p.2.tensors (p.2.raggedDim + 1) (td.regular.batchSize / chunks) i
  selected : ∀ idxs, idxs ≠ [] → (∀ i ∈ idxs, i < td.regular.batchSize) →
    indexSelectNestedDict raises td idxs = .ok (td.gather idxs)

/-- Chunks of no rows: a nested tensor of none is not built. -/
theorem chunkTensordict_ne_ok (hc : 0 < chunks) (hn : td.regular.batchSize = 0)
    {p : String × Nested α} (hp : p ∈ td.nested.items) (tds : List (NestedDict τ α)) :
    chunkTensordict raises td chunks ≠ .ok tds := by
  intro h
  unfold chunkTensordict at h
  rw [if_neg (Nat.ne_of_gt hc), hn, Nat.zero_div] at h
  obtain ⟨td', htd'⟩ := exists_of_mapM (bind_eq_ok.1 h).choose_spec.2 (mem_range.2 hc)
  obtain ⟨nested, hnested, -⟩ := bind_eq_ok.1 htd'
  obtain ⟨nt, hnt⟩ := exists_mapValsM_iff.1 ⟨nested, hnested⟩ p hp
  unfold chunkNested at hnt
  split at hnt
  · exact nil_ne_ok hnt
  · obtain ⟨_, _, hpadded⟩ := bind_eq_ok.1 hnt
    obtain ⟨_, _, hpadded⟩ := bind_eq_ok.1 hpadded
    unfold getSlice at hpadded
    rw [take_zero, zipWith_nil_right] at hpadded
    exact nil_ne_ok hpadded

omit [Zero α] in
/-- `unbind` has to work: a selection has no padded copy. -/
theorem not_raises_of_selected (h : indexSelectNestedDict raises td [0] = .ok (td.gather [0])) :
    ∀ p ∈ td.nested.items, raises p.2.dim p.2.raggedDim = false := by
  intro p hp
  obtain ⟨_, _, hok⟩ := bind_eq_ok.1 h
  obtain ⟨nested, hnested, -⟩ := bind_eq_ok.1 hok
  obtain ⟨nt, hnt⟩ := exists_mapValsM_iff.1 ⟨nested, hnested⟩ p hp
  obtain ⟨_, hunbind, -⟩ := bind_eq_ok.1 hnt
  unfold unbind at hunbind
  split at hunbind
  · cases hunbind
  · next hfalse => exact Bool.eq_false_iff.2 hfalse

/-- Positions of `n` tokens, one for each of four dimensions. -/
def positions (n : Nat) : NdTensor 2 Nat :=
  .ofFn (fun d => if d = 0 then 4 else n) fun ix => ix 1

def positionRows : Nested Nat where
  dim := 2
  raggedDim := 1
  rows := [positions 2, positions 3]
  agree := by
    simp only [forall_mem_cons, not_mem_nil, false_imp_iff, implies_true, and_true]
    decide

/-- `position_ids` of two rows, with `_ragged_idx = 2`. -/
def positionIds : NestedDict Unit Nat where
  regular := ⟨2, Dict.empty, nofun⟩
  nested := ⟨[("position_ids", positionRows)], nodup_singleton _⟩
  length_eq := by simp [positionRows]

/-- `input_ids` of two rows, the first of them empty. -/
def inputIds : NestedDict Unit Nat where
  regular := ⟨2, Dict.empty, nofun⟩
  nested := ⟨[("input_ids", ⟨1, 0, [.ofFn (fun _ => 0) fun ix => ix 0, .ofFn (fun _ => 3) fun ix => ix 0],
    fun _ _ _ _ e he => absurd (Subsingleton.elim e 0) he⟩)], nodup_singleton _⟩
  length_eq := by simp

end Jagged

end Verl
