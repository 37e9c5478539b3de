import Verl.Lib.Dict

/-!
# `DataProto` (`verl/protocol.py`)

A `DataProto` has tensor columns (`batch`), non-tensor columns and a `meta_info` dictionary.  A
column is the list of its rows: `τ` is a row of a tensor, `ν` an entry of a numpy array.

Selecting, repeating, chunking and padding are all one thing, `gather`: every column gives its rows
at one list of row indices.

    selectIdxs d idxs = .ok (d.gather idxs)                       (in range)
    concat (idxs.map d.gather) = .ok (d.gather idxs.flatten)      (up to meta_info)
-/

namespace Verl

open List Function Dict

variable {τ ν : Type}

/-! ## Algorithm -/

/-- The rows of a column at the given indices. -/
def gatherRows {α : Type} (rows : List α) (idxs : List Nat) : List α :=
  idxs.filterMap fun i => rows[i]?

theorem length_gatherRows {α : Type} (rows : List α) (idxs : List Nat) :
    (gatherRows rows idxs).length = (idxs.filter (· < rows.length)).length := by
  unfold gatherRows
  induction idxs with
  | nil => rfl
  | cons i idxs ih =>
    by_cases h : i < rows.length
    · grind
    · grind

/-- A `TensorDict` of one batch dimension: every column has `batchSize` rows. -/
@[ext]
structure TensorDict (τ : Type) where
  batchSize : Nat
  columns : Dict (List τ)
  rows_eq : ∀ c ∈ columns.items, c.2.length = batchSize

namespace TensorDict

/-- The rows at the given indices, in every column. -/
def gather (td : TensorDict τ) (idxs : List Nat) : TensorDict τ where
  batchSize := (idxs.filter (· < td.batchSize)).length
  columns := td.columns.mapVals fun _ rows => gatherRows rows idxs
  rows_eq := by
    intro c hc
    obtain ⟨p, hp, rfl⟩ := mem_map.1 hc
    dsimp only
    rw [length_gatherRows, td.rows_eq p hp]

/-- Row `i`: its entry in every column. -/
def row (td : TensorDict τ) (i : Nat) : List (String × τ) :=
  td.columns.items.filterMap fun c => (c.2[i]?).map fun v => (c.1, v)

/-- The column of `key` in each of `tds`, one after the other. -/
def catColumn (tds : List (TensorDict τ)) (key : String) : List τ :=
  tds.flatMap fun td => (td.columns.get? key).getD []

theorem length_catColumn {tds : List (TensorDict τ)} {key : String}
    (h : ∀ td ∈ tds, key ∈ td.columns.keys) :
    (catColumn tds key).length = (tds.map batchSize).sum := by
  unfold catColumn
  rw [length_flatMap]
  congr 1
  refine map_congr_left fun td htd => ?_
  obtain ⟨p, hp, rfl⟩ := mem_map.1 (h td htd)
  rw [get?_eq_some hp, Option.getD_some, td.rows_eq p hp]

/-- `torch.cat(tds, dim=0)`; all must have the keys of the first. -/
def cat (tds : List (TensorDict τ)) : Except PyErr (TensorDict τ) :=
  match tds with
  | [] => .error (.valueError "expected a non-empty list of TensorDicts")
  | first :: rest =>
    if h : ∀ td ∈ rest, (∀ key ∈ first.columns.keys, key ∈ td.columns.keys) ∧
        ∀ key ∈ td.columns.keys, key ∈ first.columns.keys then
      .ok
        { batchSize := ((first :: rest).map batchSize).sum
          columns := first.columns.mapVals fun key _ => catColumn (first :: rest) key
          rows_eq := by
            intro c hc
            obtain ⟨p, hp, rfl⟩ := mem_map.1 hc
            have hkey : p.1 ∈ first.columns.keys := mem_map.2 ⟨p, hp, rfl⟩
            refine length_catColumn fun td htd => ?_
            rcases mem_cons.1 htd with rfl | htd
            · exact hkey
            · exact (h td htd).1 p.1 hkey }
    else .error (.keyError "the TensorDicts have different keys")

end TensorDict

/-- A batch of rows in tensor and non-tensor columns, with what goes along with it. -/
@[ext]
structure DataProto (τ ν : Type) where
  batch : Option (TensorDict τ)
  nonTensorBatch : Dict (List ν)
  metaInfo : Dict PyVal

/-- One row of a `DataProto`. -/
@[ext]
structure Row (τ ν : Type) where
  tensor : List (String × τ)
  nonTensor : List (String × ν)
deriving DecidableEq, Repr

namespace DataProto

/-- `__len__`. -/
def len (d : DataProto τ ν) : Nat :=
  match d.batch with
  | some td => td.batchSize
  | none =>
    match d.nonTensorBatch.items with
    | [] => 0
    | c :: _ => c.2.length

/-- `check_consistency`. -/
def checkConsistency (d : DataProto τ ν) : Except PyErr Unit :=
  match d.batch with
  | none => .ok ()
  | some td => d.nonTensorBatch.items.forM fun c =>
      pyAssert (c.2.length == td.batchSize)
        s!"key {c.1} length {c.2.length} is not equal to batch size {td.batchSize}"

/-- The constructor with its `__post_init__`. -/
def new (batch : Option (TensorDict τ)) (nonTensorBatch : Dict (List ν)) (metaInfo : Dict PyVal) :
    Except PyErr (DataProto τ ν) := do
  let d : DataProto τ ν := { batch, nonTensorBatch, metaInfo }
  d.checkConsistency
  return d

/-- The rows at the given indices, in every column. -/
def gather (d : DataProto τ ν) (idxs : List Nat) : DataProto τ ν where
  batch := d.batch.map (·.gather idxs)
  nonTensorBatch := d.nonTensorBatch.mapVals fun _ rows => gatherRows rows idxs
  metaInfo := d.metaInfo

/-- `select_idxs` of a list of indices; numpy and torch raise for an index out of range. -/
def selectIdxs (d : DataProto τ ν) (idxs : List Nat) : Except PyErr (DataProto τ ν) :=
  let inRange {α : Type} (c : String × List α) : Bool := idxs.all (· < c.2.length)
  if (match d.batch with | some td => td.columns.items.all inRange | none => true)
      && d.nonTensorBatch.items.all inRange then
    new (d.batch.map (·.gather idxs))
      (d.nonTensorBatch.mapVals fun _ rows => gatherRows rows idxs) d.metaInfo
  else .error .indexError

/-- `repeat(repeat_times, interleave=True)`: `repeat_interleave` / `np.repeat` of every column. -/
def repeatInterleave (d : DataProto τ ν) (repeatTimes : Nat) : Except PyErr (DataProto τ ν) :=
  let idxs := (List.range d.len).flatMap fun i => List.replicate repeatTimes i
  new (d.batch.map (·.gather idxs))
    (d.nonTensorBatch.mapVals fun _ rows => rows.flatMap fun v => List.replicate repeatTimes v)
    d.metaInfo

/-- One step of the loop of `concat` over the `meta_info` items: the metrics are collected, every
other key must have one value. -/
def mergeMetaItem (acc : List PyVal × Dict PyVal) (item : String × PyVal) :
    Except PyErr (List PyVal × Dict PyVal) :=
  if item.1 = "metrics" then
    match item.2 with
    | .none => .ok acc
    | .list vs => .ok (acc.1 ++ vs, acc.2)
    | v => .ok (acc.1 ++ [v], acc.2)
  else
    match acc.2.get? item.1 with
    | some v => do
      pyAssert (v.pyEq item.2) s!"Conflicting values for meta_info key '{item.1}'"
      return acc
    | none => .ok (acc.1, acc.2.insert item.1 item.2)

/-- A value as a dictionary; anything else has no such method. -/
def asDict (method : String) : PyVal → Except PyErr (Dict PyVal)
  | .dict items => .ok (Dict.ofItems items)
  | _ => .error (.attributeError method)

/-- The metrics as dictionaries: `.keys()` of the first and `.items()` of the others is called. -/
def metricDicts : List PyVal → Except PyErr (List (Dict PyVal))
  | [] => .ok []
  | first :: rest => do
    let d ← asDict "keys" first
    let ds ← rest.mapM (asDict "items")
    return d :: ds

/-- The merged `meta_info` of `concat`. -/
def mergeMetaInfo (metas : List (Dict PyVal)) : Except PyErr (Dict PyVal) := do
  let (allMetrics, merged) ← (metas.flatMap Dict.items).foldlM mergeMetaItem ([], Dict.empty)
  if allMetrics.isEmpty then return merged
  else
    let dicts ← metricDicts allMetrics
    let metrics ← listOfDictToDictOfList dicts
    return merged.insert "metrics" (.dict (metrics.mapVals fun _ vs => PyVal.list vs).items)

/-- `batch_lst` concatenated: the first decides whether there is a batch. -/
def catBatches (batches : List (Option (TensorDict τ))) :
    Except PyErr (Option (TensorDict τ)) :=
  match batches with
  | [] => .error .indexError
  | none :: _ => .ok none
  | some _ :: _ => do
    let tds ← batches.mapM fun b =>
      match b with
      | some td => Except.ok td
      | none => .error (.typeError "expected Tensor as element in argument 0, but got NoneType")
    let td ← TensorDict.cat tds
    return some td

/-- `DataProto.concat`. -/
def concat (data : List (DataProto τ ν)) : Except PyErr (DataProto τ ν) := do
  let newBatch ← catBatches (data.map batch)
  let lists ← listOfDictToDictOfList (data.map nonTensorBatch)
  let mergedMetaInfo ← mergeMetaInfo (data.map metaInfo)
  new newBatch (lists.mapVals fun _ vals => vals.flatten) mergedMetaInfo

/-- `is_padding_enabled`; `autoPadding` is the process-wide `DataProtoConfig.auto_padding`. -/
def isPaddingEnabled (autoPadding : Bool) (d : DataProto τ ν) : Bool :=
  (match d.metaInfo.get? "_verl_auto_padding" with
    | some v => v.truthy
    | none => false) || autoPadding

/-- `padding(padding_size)`, with the last row as the candidate. -/
def padding (d : DataProto τ ν) (paddingSize : Nat) : Except PyErr (DataProto τ ν) := do
  if paddingSize = 0 then return d
  else
    let paddingCandidate ← d.selectIdxs [d.len - 1]
    let paddingPart ← paddingCandidate.repeatInterleave paddingSize
    let paddedDp ← concat [d, paddingPart]
    return { d with batch := paddedDp.batch, nonTensorBatch := paddedDp.nonTensorBatch }

/-- The sizes of `TensorDict.chunk(chunks)`: pieces of `ceil(n / chunks)` rows, the last one
shorter; there may be fewer than `chunks`. -/
def chunkSizes (n chunks : Nat) : List Nat :=
  let size := (n + chunks - 1) / chunks
  (List.range ((n + size - 1) / size)).map fun i => min size (n - i * size)

/-- The sizes of `np.array_split(val, chunks)`. -/
def arraySplitSizes (n chunks : Nat) : List Nat :=
  (List.range chunks).map fun i => n / chunks + if i < n % chunks then 1 else 0

/-- `np.array_split` at the cuts between pieces of the given sizes; the last piece is what is
left. -/
def arraySplit {α : Type} (rows : List α) : List Nat → List (List α)
  | [] => [rows]
  | size :: sizes => rows.take size :: arraySplit (rows.drop size) sizes

/-- The row indices of consecutive pieces of the given sizes. -/
def pieceIdxs : Nat → List Nat → List (List Nat)
  | _, [] => []
  | start, size :: sizes => List.range' start size :: pieceIdxs (start + size) sizes

/-- The pieces `chunk` cuts a numpy column into: where the batch was cut, or evenly when there is
no batch. -/
def chunkColumn (d : DataProto τ ν) (chunks : Nat) (val : List ν) : List (List ν) :=
  match d.batch with
  | some td => arraySplit val (chunkSizes td.batchSize chunks).dropLast
  | none => arraySplit val (arraySplitSizes val.length chunks).dropLast

def chunkBatch (d : DataProto τ ν) (chunks : Nat) : List (Option (TensorDict τ)) :=
  match d.batch with
  | some td => (pieceIdxs 0 (chunkSizes td.batchSize chunks)).map fun idxs => some (td.gather idxs)
  | none => List.replicate chunks none

/-- `chunk(chunks)`; numpy and torch raise for no chunks at all. -/
def chunk (autoPadding : Bool) (d : DataProto τ ν) (chunks : Nat) :
    Except PyErr (List (DataProto τ ν)) := do
  if chunks = 0 then throw .zeroDivisionError
  pyAssert (d.isPaddingEnabled autoPadding || d.len % chunks == 0)
    s!"only support equal chunk. Got size of DataProto {d.len} and chunk {chunks}."
  d.nonTensorBatch.items.forM fun c => pyAssert ((d.chunkColumn chunks c.2).length == chunks) ""
  (List.range chunks).mapM fun i =>
    match (d.chunkBatch chunks)[i]? with
    | none => throw .indexError
    | some batch =>
      new batch (d.nonTensorBatch.mapVals fun _ val => (d.chunkColumn chunks val).getD i []) d.metaInfo

end DataProto

/-! ## Lemmas: gathering rows -/

variable {α : Type}

theorem getElem?_gatherRows (rows : List α) (idxs : List Nat)
    (h : ∀ i ∈ idxs, i < rows.length) (j : Nat) :
    (gatherRows rows idxs)[j]? = idxs[j]?.bind fun i => rows[i]? := by
  unfold gatherRows
  induction idxs generalizing j with
  | nil => rfl
  | cons i idxs ih =>
    have hi := h i mem_cons_self
    rw [filterMap_cons_some (getElem?_eq_getElem hi)]
    cases j with
    | zero => simp [getElem?_eq_getElem hi]
    | succ j =>
      exact ih (fun k hk => h k (mem_cons_of_mem _ hk)) j

theorem filter_lt_eq_self {n : Nat} {idxs : List Nat} (h : ∀ i ∈ idxs, i < n) :
    idxs.filter (· < n) = idxs :=
  filter_eq_self.2 fun i hi => by simpa using h i hi

theorem length_gatherRows_of_lt {rows : List α} {idxs : List Nat}
    (h : ∀ i ∈ idxs, i < rows.length) : (gatherRows rows idxs).length = idxs.length := by
  rw [length_gatherRows, filter_lt_eq_self h]

theorem gatherRows_append (rows : List α) (is js : List Nat) :
    gatherRows rows (is ++ js) = gatherRows rows is ++ gatherRows rows js :=
  filterMap_append

theorem gatherRows_flatten (rows : List α) (iss : List (List Nat)) :
    gatherRows rows iss.flatten = iss.flatMap (gatherRows rows) := by
  induction iss with
  | nil => rfl
  | cons is iss ih => rw [flatten_cons, gatherRows_append, ih, flatMap_cons]

theorem gatherRows_gatherRows (rows : List α) (is js : List Nat) (h : ∀ i ∈ is, i < rows.length) :
    gatherRows (gatherRows rows is) js = gatherRows rows (gatherRows is js) := by
  unfold gatherRows
  rw [filterMap_filterMap]
  exact filterMap_congr fun j _ => by
    have := getElem?_gatherRows rows is h j
    unfold gatherRows at this
    rw [this]

theorem gatherRows_range' (rows : List α) (start size : Nat) :
    gatherRows rows (range' start size) = (rows.drop start).take size := by
  induction size generalizing start with
  | zero => simp [gatherRows]
  | succ size ih =>
    rw [range'_succ]
    unfold gatherRows at ih ⊢
    by_cases h : start < rows.length
    · rw [filterMap_cons_some (getElem?_eq_getElem h), ih (start + 1),
        drop_eq_getElem_cons h, take_succ_cons]
    · rw [filterMap_cons_none (getElem?_eq_none (Nat.le_of_not_lt h)), ih (start + 1),
        drop_eq_nil_of_le (by omega), drop_eq_nil_of_le (by omega), take_nil,
        take_nil]

theorem gatherRows_range (rows : List α) : gatherRows rows (range rows.length) = rows := by
  rw [range_eq_range', gatherRows_range', drop_zero, take_length]

theorem gatherRows_replicate (v : α) (p : Nat) :
    gatherRows [v] (replicate p 0) = replicate p v := by
  induction p with
  | zero => rfl
  | succ p ih =>
    show v :: gatherRows [v] (replicate p 0) = _
    rw [ih, replicate_succ]

theorem flatMap_range' (s k : Nat) :
    (range k).flatMap (fun i => range' (i * s) s) = range (k * s) := by
  induction k with
  | zero => simp
  | succ k ih =>
    rw [range_succ, flatMap_append, ih, Nat.succ_mul, range_eq_range',
      range_eq_range', ← range'_append_1]
    simp

theorem lt_of_mem_piece {s k i : Nat} (hi : i < k) : ∀ r ∈ range' (i * s) s, r < k * s := by
  intro r hr
  rw [mem_range'_1] at hr
  have : i * s + s ≤ k * s := by
    rw [← Nat.succ_mul]
    exact Nat.mul_le_mul_right s hi
  omega

namespace TensorDict

variable (td : TensorDict τ) (idxs : List Nat)

theorem row_gather (h : ∀ i ∈ idxs, i < td.batchSize)
    (j : Nat) (hj : j < idxs.length) : (td.gather idxs).row j = td.row idxs[j] := by
  unfold row gather
  rw [items_mapVals, filterMap_map]
  refine filterMap_congr fun c hc => ?_
  have hin : ∀ i ∈ idxs, i < c.2.length := by rw [td.rows_eq c hc]; exact h
  simp only [comp_apply, getElem?_gatherRows _ _ hin, getElem?_eq_getElem hj,
    Option.bind_some]

theorem batchSize_gather {td : TensorDict τ} {idxs : List Nat} (h : ∀ i ∈ idxs, i < td.batchSize) :
    (td.gather idxs).batchSize = idxs.length := by
  show (idxs.filter (· < td.batchSize)).length = _
  rw [filter_lt_eq_self h]

theorem columns_gather :
    (td.gather idxs).columns = td.columns.mapVals fun _ rows => gatherRows rows idxs := rfl

theorem gather_range : td.gather (range td.batchSize) = td := by
  apply TensorDict.ext
  · rw [batchSize_gather (by simp), length_range]
  · rw [columns_gather]
    refine mapVals_id fun c hc => ?_
    rw [← td.rows_eq c hc, gatherRows_range]

theorem gather_gather (is js : List Nat) (h : ∀ i ∈ is, i < td.batchSize)
    (hj : ∀ j ∈ js, j < is.length) :
    (td.gather is).gather js = td.gather (gatherRows is js) := by
  have hsub : ∀ i ∈ gatherRows is js, i < td.batchSize := by
    intro i hi
    obtain ⟨j, -, hij⟩ := mem_filterMap.1 hi
    exact h i (mem_of_getElem? hij)
  apply TensorDict.ext
  · rw [batchSize_gather (by rwa [batchSize_gather h]), batchSize_gather hsub,
      length_gatherRows_of_lt hj]
  · rw [columns_gather, columns_gather, columns_gather, mapVals_mapVals]
    refine mapVals_congr fun c hc => gatherRows_gatherRows _ _ _ ?_
    rw [td.rows_eq c hc]
    exact h

theorem cat_map_gather (is : List Nat) (iss : List (List Nat))
    (h : ∀ is' ∈ is :: iss, ∀ i ∈ is', i < td.batchSize) :
    cat ((is :: iss).map td.gather) = .ok (td.gather (is :: iss).flatten) := by
  rw [map_cons]
  unfold cat
  dsimp only
  rw [dif_pos (by
    intro t ht
    obtain ⟨js, -, rfl⟩ := mem_map.1 ht
    simp [columns_gather])]
  congr 1
  apply TensorDict.ext
  · dsimp only
    rw [← map_cons, map_map, batchSize_gather (by
      intro i hi
      obtain ⟨js, hjs, hi⟩ := mem_flatten.1 hi
      exact h js hjs i hi), length_flatten]
    congr 1
    exact map_congr_left fun js hjs => batchSize_gather (h js hjs)
  · dsimp only
    rw [columns_gather, columns_gather, mapVals_mapVals]
    refine mapVals_congr fun c hc => ?_
    have hcol : ∀ js, ((td.gather js).columns.get? c.1).getD [] = gatherRows c.2 js := by
      intro js
      rw [columns_gather, get?_mapVals, get?_eq_some hc]
      rfl
    rw [gatherRows_flatten, catColumn, ← map_cons, flatMap_map]
    exact flatMap_congr fun js _ => hcol js

end TensorDict

/-! ## Lemmas: merging `meta_info` -/

namespace DataProto

/-- The metrics an item adds to `all_metrics`. -/
def metricsOf (item : String × PyVal) : List PyVal :=
  if item.1 = "metrics" then
    match item.2 with
    | .none => []
    | .list vs => vs
    | v => [v]
  else []

def allMetrics (metas : List (Dict PyVal)) : List PyVal :=
  (metas.flatMap Dict.items).flatMap metricsOf

/-- Dictionaries `concat` can merge: two values of one key are equal unless the key is `metrics`,
and the metrics are dictionaries without a key the first of them lacks. -/
structure Mergeable (metas : List (Dict PyVal)) : Prop where
  values : ∀ p ∈ metas.flatMap Dict.items, ∀ q ∈ metas.flatMap Dict.items,
    p.1 = q.1 → p.1 ≠ "metrics" → p.2.pyEq q.2 = true
  areDicts : ∀ v ∈ allMetrics metas, ∃ items, v = .dict items
  sameKeys : ∀ v ∈ allMetrics metas, ∀ first ∈ (allMetrics metas).head?,
    ∀ key ∈ v.keys, key ∈ first.keys

variable {d : DataProto τ ν} {s k : Nat} {idxs : List Nat}

/-- The loop of `concat` over the items: every merged value is an item seen before, so the
assertion compares two items of one key. -/
theorem foldlM_mergeMetaItem (all items : List (String × PyVal)) (acc : List PyVal × Dict PyVal)
    (hsub : ∀ p ∈ items, p ∈ all)
    (hall : ∀ p ∈ all, ∀ q ∈ all, p.1 = q.1 → p.1 ≠ "metrics" → p.2.pyEq q.2 = true)
    (hacc : ∀ p ∈ acc.2.items, p ∈ all) :
    ∃ merged, items.foldlM mergeMetaItem acc = .ok (acc.1 ++ items.flatMap metricsOf, merged) := by
  induction items generalizing acc with
  | nil => exact ⟨acc.2, by simp [pure, Except.pure]⟩
  | cons p items ih =>
    have hp : p ∈ all := hsub p mem_cons_self
    obtain ⟨acc', hstep, hms, hacc'⟩ : ∃ acc', mergeMetaItem acc p = .ok acc' ∧
        acc'.1 = acc.1 ++ metricsOf p ∧ ∀ q ∈ acc'.2.items, q ∈ all := by
      unfold mergeMetaItem metricsOf
      by_cases hk : p.1 = "metrics"
      · grind
      · simp only [if_neg hk, append_nil]
        split
        · next v hv =>
          have hmem := hacc _ (mem_items_of_get? hv)
          rw [hall _ hmem p hp rfl hk]
          exact ⟨acc, rfl, rfl, hacc⟩
        · refine ⟨_, rfl, rfl, fun q hq => ?_⟩
          rcases mem_items_insert hq with hq | rfl
          · exact hacc q hq
          · exact hp
    obtain ⟨merged, hm⟩ := ih acc' (fun q hq => hsub q (mem_cons_of_mem _ hq)) hacc'
    refine ⟨merged, ?_⟩
    rw [foldlM_cons, hstep, ok_bind, hm, hms, flatMap_cons, append_assoc]

theorem mergeMetaInfo_eq_ok {metas : List (Dict PyVal)} (h : Mergeable metas) :
    ∃ merged, mergeMetaInfo metas = .ok merged := by
  obtain ⟨merged, hfold⟩ := foldlM_mergeMetaItem (metas.flatMap Dict.items)
    (metas.flatMap Dict.items) ([], Dict.empty) (fun _ hp => hp) h.values (by simp [Dict.empty])
  unfold mergeMetaInfo
  rw [hfold]
  rw [nil_append]
  rw [show (metas.flatMap Dict.items).flatMap metricsOf = allMetrics metas from rfl]
  have hdicts : ∀ v ∈ allMetrics metas, ∃ d, (∀ m, asDict m v = .ok d) ∧ d.keys = v.keys := by
    intro v hv
    obtain ⟨items, rfl⟩ := h.areDicts v hv
    exact ⟨_, fun _ => rfl, rfl⟩
  have hkeys := h.sameKeys
  cases hms : allMetrics metas with
  | nil => exact ⟨merged, rfl⟩
  | cons first rest =>
    rw [hms] at hdicts hkeys
    obtain ⟨d, hd, hdk⟩ := hdicts first mem_cons_self
    obtain ⟨ds, hds, hdsk⟩ : ∃ ds, rest.mapM (asDict "items") = .ok ds ∧
        ∀ e ∈ ds, ∀ key ∈ e.keys, key ∈ d.keys := by
      have hrest : ∀ v ∈ rest, ∃ e, asDict "items" v = .ok e ∧ ∀ key ∈ e.keys, key ∈ d.keys := by
        intro v hv
        obtain ⟨e, he, hek⟩ := hdicts v (mem_cons_of_mem _ hv)
        refine ⟨e, he "items", fun key hkey => ?_⟩
        rw [hdk]
        exact hkeys v (mem_cons_of_mem _ hv) first rfl key (hek ▸ hkey)
      clear hms hdicts hkeys
      induction rest with
      | nil => exact ⟨[], rfl, by simp⟩
      | cons v rest ih =>
        obtain ⟨e, he, hek⟩ := hrest v mem_cons_self
        obtain ⟨es, hes, hesk⟩ := ih fun w hw => hrest w (mem_cons_of_mem _ hw)
        refine ⟨e :: es, by rw [mapM_cons, he, hes]; rfl, ?_⟩
        exact forall_mem_cons.2 ⟨hek, hesk⟩
    simp only [metricDicts, hd, hds,
      ok_bind, pure, Except.pure, listOfDictToDictOfList_eq_ok d ds hdsk]
    exact ⟨_, rfl⟩

/-! ## Lemmas: the operations as gathers -/

/-- All columns have one length. -/
def WellFormed (d : DataProto τ ν) : Prop := ∀ c ∈ d.nonTensorBatch.items, c.2.length = d.len

instance (d : DataProto τ ν) : Decidable d.WellFormed :=
  inferInstanceAs (Decidable (∀ c ∈ d.nonTensorBatch.items, c.2.length = d.len))

def row (d : DataProto τ ν) (i : Nat) : Row τ ν where
  tensor := match d.batch with
    | some td => td.row i
    | none => []
  nonTensor := d.nonTensorBatch.items.filterMap fun c => (c.2[i]?).map fun v => (c.1, v)

def rows (d : DataProto τ ν) : List (Row τ ν) := (List.range d.len).map d.row

theorem len_of_batch {td : TensorDict τ} (h : d.batch = some td) : d.len = td.batchSize := by
  unfold len
  rw [h]

theorem length_column {td : TensorDict τ} (hb : d.batch = some td)
    {key : String} {rows : List τ} (hrows : td.columns.get? key = some rows) :
    rows.length = d.len :=
  (td.rows_eq _ (mem_items_of_get? hrows)).trans (len_of_batch hb).symm

theorem row_gather (d : DataProto τ ν) (hwf : d.WellFormed) (idxs : List Nat)
    (h : ∀ i ∈ idxs, i < d.len) (j : Nat) (hj : j < idxs.length) :
    (d.gather idxs).row j = d.row idxs[j] := by
  unfold row gather
  ext1
  · cases hb : d.batch with
    | none => rfl
    | some td =>
      rw [len_of_batch hb] at h
      exact td.row_gather idxs h j hj
  · dsimp only
    rw [items_mapVals, filterMap_map]
    refine filterMap_congr fun c hc => ?_
    have hin : ∀ i ∈ idxs, i < c.2.length := by rw [hwf c hc]; exact h
    simp only [comp_apply, getElem?_gatherRows _ _ hin, getElem?_eq_getElem hj,
      Option.bind_some]

theorem nonTensorBatch_gather (d : DataProto τ ν) (idxs : List Nat) :
    (d.gather idxs).nonTensorBatch = d.nonTensorBatch.mapVals fun _ rows => gatherRows rows idxs := rfl

section

variable (hwf : d.WellFormed) (h : ∀ i ∈ idxs, i < d.len)
include hwf h

theorem length_of_mem_gather :
    ∀ c ∈ (d.gather idxs).nonTensorBatch.items, c.2.length = idxs.length := by
  intro c hc
  obtain ⟨p, hp, rfl⟩ := mem_map.1 hc
  exact length_gatherRows_of_lt (by rw [hwf p hp]; exact h)

theorem len_gather : (d.gather idxs).len = idxs.length := by
  have hcols := length_of_mem_gather hwf h
  unfold len gather at *
  cases hb : d.batch with
  | some td =>
    rw [hb] at h
    exact TensorDict.batchSize_gather h
  | none =>
    rw [hb] at h
    cases hitems : d.nonTensorBatch.items with
    | nil =>
      rw [hitems] at h
      cases idxs with
      | nil => simp [hitems]
      | cons i idxs => exact absurd (h i mem_cons_self) (Nat.not_lt_zero i)
    | cons c rest =>
      rw [items_mapVals, hitems] at hcols ⊢
      exact hcols _ mem_cons_self

theorem wellFormed_gather : (d.gather idxs).WellFormed := by
  intro c hc
  rw [len_gather hwf h]
  exact length_of_mem_gather hwf h c hc

theorem rows_gather : (d.gather idxs).rows = idxs.map d.row := by
  unfold rows
  rw [len_gather hwf h]
  refine ext_getElem (by simp) fun j h1 h2 => ?_
  simp only [getElem_map, getElem_range]
  exact row_gather d hwf idxs h j (by simpa using h1)

end

theorem gather_range (hwf : d.WellFormed) : d.gather (range d.len) = d := by
  unfold gather
  ext1
  · cases hb : d.batch with
    | none => rfl
    | some td =>
      rw [len_of_batch hb, Option.map_some, td.gather_range]
  · dsimp only
    refine mapVals_id fun c hc => ?_
    rw [← hwf c hc, gatherRows_range]
  · rfl

theorem gather_gather (hwf : d.WellFormed) (is js : List Nat)
    (h : ∀ i ∈ is, i < d.len) (hj : ∀ j ∈ js, j < is.length) :
    (d.gather is).gather js = d.gather (gatherRows is js) := by
  unfold gather
  ext1
  · cases hb : d.batch with
    | none => rfl
    | some td =>
      rw [len_of_batch hb] at h
      dsimp only [Option.map_some]
      rw [td.gather_gather is js h hj]
  · dsimp only
    rw [mapVals_mapVals]
    refine mapVals_congr fun c hc => gatherRows_gatherRows _ _ _ ?_
    rw [hwf c hc]
    exact h
  · rfl

/-- The rows are there as far as the tensor columns go. -/
def InBatch (d : DataProto τ ν) (idxs : List Nat) : Prop :=
  ∀ td, d.batch = some td → ∀ i ∈ idxs, i < td.batchSize

theorem inBatch_of_lt (h : ∀ i ∈ idxs, i < d.len) : d.InBatch idxs := by
  intro td hb
  rw [← len_of_batch hb]
  exact h

theorem new_gather (hwf : d.WellFormed) (h : d.InBatch idxs) (metaInfo : Dict PyVal) :
    new (d.gather idxs).batch (d.gather idxs).nonTensorBatch metaInfo
      = .ok { d.gather idxs with metaInfo := metaInfo } := by
  have hcheck : checkConsistency { d.gather idxs with metaInfo := metaInfo } = .ok () := by
    unfold checkConsistency
    cases hb : d.batch with
    | none => simp [gather, hb]
    | some td =>
      have hb' : (d.gather idxs).batch = some (td.gather idxs) := by simp [gather, hb]
      have hlt : ∀ i ∈ idxs, i < d.len := by rw [len_of_batch hb]; exact h td hb
      rw [hb']
      refine forM_eq_ok _ _ fun c hc => ?_
      rw [length_of_mem_gather hwf hlt c hc, TensorDict.batchSize_gather (h td hb),
        beq_self_eq_true, pyAssert_true]
  unfold new
  dsimp only
  rw [hcheck]
  rfl

theorem selectIdxs_eq (hwf : d.WellFormed)
    (h : ∀ i ∈ idxs, i < d.len) : d.selectIdxs idxs = .ok (d.gather idxs) := by
  unfold selectIdxs
  rw [if_pos]
  · exact new_gather hwf (inBatch_of_lt h) d.metaInfo
  · rw [Bool.and_eq_true]
    constructor
    · split
      · next td hb =>
        rw [len_of_batch hb] at h
        simp only [all_eq_true, decide_eq_true_eq]
        intro c hc i hi
        rw [td.rows_eq c hc]
        exact h i hi
      · rfl
    · simp only [all_eq_true, decide_eq_true_eq]
      intro c hc i hi
      rw [hwf c hc]
      exact h i hi

/-- `d.gather idxs` going along with some `meta_info`. -/
def gatherWith (d : DataProto τ ν) (idxs : List Nat) (metaInfo : Dict PyVal) : DataProto τ ν :=
  { d.gather idxs with metaInfo := metaInfo }

theorem catBatches_map_gather (x : List Nat × Dict PyVal)
    (xs : List (List Nat × Dict PyVal)) (h : ∀ p ∈ x :: xs, d.InBatch p.1) :
    catBatches (((x :: xs).map fun p => d.gatherWith p.1 p.2).map batch)
      = .ok (d.gather ((x :: xs).flatMap Prod.fst)).batch := by
  have hbatch : ((x :: xs).map fun p => d.gatherWith p.1 p.2).map batch
      = (x :: xs).map fun p => d.batch.map (·.gather p.1) := by
    rw [map_map]; rfl
  rw [hbatch]
  unfold catBatches gather
  cases hb : d.batch with
  | none => rfl
  | some td =>
    have hmap := mapM_eq_ok_map (fun b : Option (TensorDict τ) =>
        match b with
        | some td => Except.ok td
        | none => .error (PyErr.typeError "expected Tensor as element in argument 0, but got NoneType"))
      (fun b => b.getD td) ((x :: xs).map fun p => some (td.gather p.1)) (by
        intro b hb
        obtain ⟨p, -, rfl⟩ := mem_map.1 hb
        rfl)
    have hcat := td.cat_map_gather x.1 (xs.map Prod.fst) (by
      rw [← map_cons]
      intro is his
      obtain ⟨p, hp, rfl⟩ := mem_map.1 his
      exact h p hp td hb)
    rw [map_map] at hmap
    rw [← map_cons, map_map] at hcat
    simp only [Option.map_some] at hmap ⊢
    rw [hmap]
    show (TensorDict.cat (td.gather x.1 :: xs.map fun p => td.gather p.1) >>= _) = _
    rw [show (xs.map fun p => td.gather p.1) = xs.map (td.gather ∘ Prod.fst) from rfl]
    have hcat' : TensorDict.cat (td.gather x.1 :: xs.map (td.gather ∘ Prod.fst)) = _ := hcat
    rw [hcat']
    rfl

theorem flatten_filterMap_gatherRows {columns : Dict (List ν)} {key : String} {rows : List ν}
    (h : (key, rows) ∈ columns.items) (idxs : List (List Nat)) :
    ((idxs.map fun is => columns.mapVals fun _ rows => gatherRows rows is).filterMap
      (·.get? key)).flatten = gatherRows rows idxs.flatten := by
  induction idxs with
  | nil => rfl
  | cons is idxs ih =>
    have hget : (columns.mapVals fun _ rows => gatherRows rows is).get? key
        = some (gatherRows rows is) := by
      rw [get?_mapVals, get?_eq_some h]
      rfl
    rw [map_cons, filterMap_cons, hget, flatten_cons, ih, flatten_cons,
      gatherRows_append]

section

variable (hwf : d.WellFormed) (x : List Nat × Dict PyVal) (xs : List (List Nat × Dict PyVal))
  (h : ∀ p ∈ x :: xs, d.InBatch p.1)
include hwf x xs h

theorem concat_map_gather_of_merge {merged : Dict PyVal}
    (hmerged : mergeMetaInfo ((x :: xs).map Prod.snd) = .ok merged) :
    concat ((x :: xs).map fun p => d.gatherWith p.1 p.2)
      = .ok (d.gatherWith ((x :: xs).flatMap Prod.fst) merged) := by
  have hmetas : ((x :: xs).map fun p => d.gatherWith p.1 p.2).map metaInfo
      = (x :: xs).map Prod.snd := by
    rw [map_map]; rfl
  have hnts : ((x :: xs).map fun p => d.gatherWith p.1 p.2).map nonTensorBatch
      = ((x :: xs).map Prod.fst).map fun is =>
        d.nonTensorBatch.mapVals fun _ rows => gatherRows rows is := by
    rw [map_map, map_map]; rfl
  have hlists : listOfDictToDictOfList (((x :: xs).map Prod.fst).map fun is =>
        d.nonTensorBatch.mapVals fun _ rows => gatherRows rows is)
      = .ok (d.nonTensorBatch.mapVals fun key _ => (((x :: xs).map Prod.fst).map fun is =>
        d.nonTensorBatch.mapVals fun _ rows => gatherRows rows is).filterMap (·.get? key)) := by
    rw [map_cons, map_cons, listOfDictToDictOfList_eq_ok, mapVals_mapVals]
    intro e he key hkey
    obtain ⟨is, -, rfl⟩ := mem_map.1 he
    rwa [keys_mapVals] at hkey ⊢
  have hflat : (d.nonTensorBatch.mapVals fun key _ => (((x :: xs).map Prod.fst).map fun is =>
        d.nonTensorBatch.mapVals fun _ rows => gatherRows rows is).filterMap (·.get? key)).mapVals
          (fun _ vals => vals.flatten)
      = (d.gather ((x :: xs).flatMap Prod.fst)).nonTensorBatch := by
    rw [mapVals_mapVals, nonTensorBatch_gather]
    exact mapVals_congr fun c hc => flatten_filterMap_gatherRows hc _
  unfold concat
  rw [catBatches_map_gather x xs h, ok_bind, hnts, hlists, ok_bind, hmetas, hmerged, hflat]
  refine new_gather hwf ?_ merged
  intro td hb i hi
  obtain ⟨p, hp, hi⟩ := mem_flatMap.1 hi
  exact h p hp td hb i hi

theorem concat_map_gather (hm : Mergeable ((x :: xs).map Prod.snd)) :
    ∃ merged, concat ((x :: xs).map fun p => d.gatherWith p.1 p.2)
      = .ok (d.gatherWith ((x :: xs).flatMap Prod.fst) merged) := by
  obtain ⟨merged, hmerged⟩ := mergeMetaInfo_eq_ok hm
  exact ⟨merged, concat_map_gather_of_merge hwf x xs h hmerged⟩

end

theorem padding_eq (hwf : d.WellFormed) (hn : 1 ≤ d.len) (p : Nat)
    (hm : p ≠ 0 → ∃ merged, mergeMetaInfo [d.metaInfo, d.metaInfo] = .ok merged) :
    d.padding p = .ok (d.gather (range d.len ++ replicate p (d.len - 1))) := by
  unfold padding
  by_cases hp : p = 0
  · rw [hp, replicate_zero, append_nil, gather_range hwf]
    rfl
  · rw [if_neg hp]
    have hlast : ∀ i ∈ [d.len - 1], i < d.len := by simp; omega
    have hpads : ∀ i ∈ replicate p (d.len - 1), i < d.len := by grind
    have hrep : (d.gather [d.len - 1]).repeatInterleave p
        = .ok (d.gather (replicate p (d.len - 1))) := by
      have hwf' := wellFormed_gather hwf hlast
      have hone : (d.gather [d.len - 1]).len = 1 := len_gather hwf hlast
      have hzero : ∀ j ∈ replicate p 0, j < [d.len - 1].length := by simp
      have hrows : (d.gather [d.len - 1]).nonTensorBatch.mapVals
            (fun _ rows => rows.flatMap fun v => replicate p v)
          = ((d.gather [d.len - 1]).gather (replicate p 0)).nonTensorBatch := by
        rw [nonTensorBatch_gather _ (replicate p 0)]
        refine mapVals_congr fun c hc => ?_
        obtain ⟨v, hv⟩ := length_eq_one_iff.1 (length_of_mem_gather hwf hlast c hc)
        rw [hv, flatMap_singleton, gatherRows_replicate]
      unfold repeatInterleave
      rw [hone, hrows]
      have hidxs : (range 1).flatMap (fun i => replicate p i) = replicate p 0 := by
        rw [range_one, flatMap_singleton]
      rw [hidxs, ← gatherRows_replicate (d.len - 1), ← gather_gather hwf _ _ hlast hzero]
      exact new_gather hwf' (inBatch_of_lt (by rw [hone]; exact hzero)) _
    obtain ⟨merged, hmerged⟩ := hm hp
    have hcat := concat_map_gather_of_merge hwf (range d.len, d.metaInfo)
      [(replicate p (d.len - 1), d.metaInfo)]
      (by
        intro q hq
        rcases mem_pair.1 hq with rfl | rfl
        · exact inBatch_of_lt fun i hi => mem_range.1 hi
        · exact inBatch_of_lt hpads) hmerged
    have hpair : [(range d.len, d.metaInfo), (replicate p (d.len - 1), d.metaInfo)].map
        (fun q => d.gatherWith q.1 q.2) = [d, d.gather (replicate p (d.len - 1))] := by
      rw [map_cons]
      unfold gatherWith
      rw [gather_range hwf]
      rfl
    rw [selectIdxs_eq hwf hlast, ok_bind, hrep, ok_bind, ← hpair, hcat]
    simp only [flatMap_cons, flatMap_nil, append_nil]
    rfl

theorem gatherRows_rows (h : ∀ i ∈ idxs, i < d.len) : gatherRows d.rows idxs = idxs.map d.row := by
  unfold gatherRows rows
  induction idxs with
  | nil => rfl
  | cons i idxs ih =>
    have hget : ((range d.len).map d.row)[i]? = some (d.row i) := by grind
    rw [filterMap_cons, hget, map_cons]
    rw [ih fun j hj => h j (mem_cons_of_mem _ hj)]

/-! ### Chunks of equal size -/

theorem ceil_mul_div (hk : 1 ≤ k) : (k * s + k - 1) / k = s := by
  rw [Nat.add_sub_assoc hk, Nat.mul_add_div (by omega), Nat.div_eq_of_lt (by omega), Nat.add_zero]

theorem chunkSizes_mul (hk : 1 ≤ k) (hs : 1 ≤ s) : chunkSizes (k * s) k = replicate k s := by
  unfold chunkSizes
  rw [ceil_mul_div hk]
  dsimp only
  rw [Nat.mul_comm k s, ceil_mul_div hs]
  refine eq_replicate_iff.2 ⟨by simp, ?_⟩
  intro size hsize
  obtain ⟨i, hi, rfl⟩ := mem_map.1 hsize
  rw [mem_range] at hi
  have hle : s * i + s ≤ s * k := by
    exact Nat.mul_le_mul_left s hi
  rw [Nat.mul_comm i s]
  omega

theorem arraySplitSizes_mul (hk : 1 ≤ k) : arraySplitSizes (k * s) k = replicate k s := by
  unfold arraySplitSizes
  rw [Nat.mul_mod_right, Nat.mul_div_cancel_left s hk]
  refine eq_replicate_iff.2 ⟨by simp, ?_⟩
  intro size hsize
  obtain ⟨i, -, rfl⟩ := mem_map.1 hsize
  rw [if_neg (Nat.not_lt_zero i), Nat.add_zero]

theorem pieceIdxs_replicate (s k start : Nat) : pieceIdxs start (replicate k s)
      = (range k).map fun i => range' (start + i * s) s := by
  induction k generalizing start with
  | zero => rfl
  | succ k ih =>
    rw [replicate_succ, range_succ_eq_map, map_cons, map_map]
    unfold pieceIdxs
    rw [ih, Nat.zero_mul]
    congr 1
    refine map_congr_left fun i _ => ?_
    rw [comp_apply, Nat.succ_mul, Nat.add_assoc, Nat.add_comm s]

theorem arraySplit_replicate {α : Type} (s k : Nat) (rows : List α) (h : rows.length = (k + 1) * s) :
    arraySplit rows (replicate k s)
      = (range (k + 1)).map fun i => gatherRows rows (range' (i * s) s) := by
  induction k generalizing rows with
  | zero =>
    rw [Nat.one_mul] at h
    show [rows] = [gatherRows rows (range' (0 * s) s)]
    rw [gatherRows_range', Nat.zero_mul, drop_zero, ← h, take_length]
  | succ k ih =>
    rw [replicate_succ, range_succ_eq_map, map_cons, map_map]
    unfold arraySplit
    rw [ih _ (by rw [length_drop, h, Nat.succ_mul (k + 1)]; omega), gatherRows_range',
      Nat.zero_mul]
    congr 1
    refine map_congr_left fun i _ => ?_
    rw [comp_apply, gatherRows_range', gatherRows_range', drop_drop, Nat.succ_mul,
      Nat.add_comm s]

theorem chunkColumn_mul (hk : 1 ≤ k) (hs : 1 ≤ s)
    (hlen : d.len = k * s) {val : List ν} (hval : val.length = d.len) :
    d.chunkColumn k val = (range k).map fun i => gatherRows val (range' (i * s) s) := by
  have hcuts : (replicate k s).dropLast = replicate (k - 1) s := by
    rw [dropLast_replicate]
  have hsplit := arraySplit_replicate s (k - 1) val (by rw [hval, hlen, Nat.sub_add_cancel hk])
  rw [Nat.sub_add_cancel hk] at hsplit
  unfold chunkColumn
  cases hb : d.batch with
  | some td =>
    dsimp only
    rw [← len_of_batch hb, hlen, chunkSizes_mul hk hs, hcuts, hsplit]
  | none =>
    rw [hval, hlen, arraySplitSizes_mul hk, hcuts, hsplit]

theorem chunk_eq (hwf : d.WellFormed) (hk : 1 ≤ k) (hs : 1 ≤ s)
    (hlen : d.len = k * s) (autoPadding : Bool) :
    d.chunk autoPadding k
      = .ok ((range k).map fun i => d.gather (range' (i * s) s)) := by
  have hin : ∀ i < k, ∀ r ∈ range' (i * s) s, r < d.len := by
    rw [hlen]
    exact fun i hi => lt_of_mem_piece hi
  have hequal : (d.isPaddingEnabled autoPadding || d.len % k == 0) = true := by
    rw [hlen, Nat.mul_mod_right, beq_self_eq_true, Bool.or_true]
  have hcols : (d.nonTensorBatch.items.forM fun c =>
      pyAssert ((d.chunkColumn k c.2).length == k) "") = .ok () := by
    refine forM_eq_ok _ _ fun c hc => ?_
    rw [chunkColumn_mul hk hs hlen (hwf c hc), length_map, length_range,
      beq_self_eq_true, pyAssert_true]
  have hbatch : ∀ i < k, (d.chunkBatch k)[i]?
      = some (d.gather (range' (i * s) s)).batch := by
    intro i hi
    unfold chunkBatch gather
    cases hb : d.batch with
    | none =>
      dsimp only [Option.map_none]
      rw [getElem?_replicate, if_pos hi]
    | some td =>
      dsimp only [Option.map_some]
      rw [← len_of_batch hb, hlen, chunkSizes_mul hk hs, pieceIdxs_replicate, getElem?_map,
        getElem?_map, getElem?_range hi, Option.map_some, Option.map_some,
        Nat.zero_add]
  have hnt : ∀ i < k, (d.nonTensorBatch.mapVals fun _ val => (d.chunkColumn k val).getD i [])
      = (d.gather (range' (i * s) s)).nonTensorBatch := by
    intro i hi
    rw [nonTensorBatch_gather]
    refine mapVals_congr fun c hc => ?_
    rw [chunkColumn_mul hk hs hlen (hwf c hc), getD_eq_getElem?_getD, getElem?_map,
      getElem?_range hi]
    rfl
  unfold chunk
  rw [if_neg (by omega), hequal, hcols]
  refine mapM_eq_ok_map _ _ _ fun i hi => ?_
  rw [mem_range] at hi
  rw [hbatch i hi]
  rw [hnt i hi]
  exact new_gather hwf (inBatch_of_lt (hin i hi)) d.metaInfo

end DataProto

end Verl
