import Verl.Protocol.DataProto

/-!
# Dispatch and collect (`verl/single_controller`)

A blocking call of a worker-group method: the arguments are cut into one piece per worker (or per
dp rank), every worker runs the method on its piece, and the results are concatenated.

    callDpComputeProto k (f row by row) data = .ok (f of the rows of data)
    collectNdComputeDataproto mask (map f (dispatchNdComputeDataproto mapping d data)) = …

With auto padding the batch first gets copies of its last row; the call drops as many rows from
the end of the result.
-/

namespace Verl

open List Dict

variable {τ ν τ' ν' : Type}

/-! ## Algorithm -/

/-- Arguments cut into pieces, and the padding size when one was padded. -/
structure SplitArgs (α : Type) where
  args : List (List α)
  kwargs : List (String × List α)
  paddingSize : Option Nat

/-- `_padding_and_split_data`; the state is `(data_proto_len, padding_size)`, set by the first
argument that is padded. -/
def paddingAndSplitData (autoPadding : Bool) (chunks : Nat) (state : Option (Nat × Nat))
    (obj : DataProto τ ν) : Except PyErr (Option (Nat × Nat) × List (DataProto τ ν)) := do
  if obj.isPaddingEnabled autoPadding then
    let (dataProtoLen, paddingSize) ←
      match state with
      | none =>
        if chunks = 0 then throw .zeroDivisionError
        else pure (obj.len, if obj.len % chunks > 0 then chunks - obj.len % chunks else 0)
      | some (dataProtoLen, paddingSize) => do
        pyAssert (dataProtoLen == obj.len)
          s!"expecting all arg share same length of {dataProtoLen}, but got {obj.len}"
        pure (dataProtoLen, paddingSize)
    let obj ← obj.padding paddingSize
    let pieces ← obj.chunk autoPadding chunks
    return (some (dataProtoLen, paddingSize), pieces)
  else
    let pieces ← obj.chunk autoPadding chunks
    return (state, pieces)

/-- The arguments one after the other, with the state handed on. -/
def paddingAndSplitAll (autoPadding : Bool) (chunks : Nat) :
    Option (Nat × Nat) → List (DataProto τ ν) →
      Except PyErr (Option (Nat × Nat) × List (List (DataProto τ ν)))
  | state, [] => .ok (state, [])
  | state, obj :: objs => do
    let (state, pieces) ← paddingAndSplitData autoPadding chunks state obj
    let (state, rest) ← paddingAndSplitAll autoPadding chunks state objs
    return (state, pieces :: rest)

/-- `_split_args_kwargs_data_proto_with_auto_padding`. -/
def splitArgsKwargsDataProtoWithAutoPadding (autoPadding : Bool) (chunks : Nat)
    (args : List (DataProto τ ν)) (kwargs : List (String × DataProto τ ν)) :
    Except PyErr (SplitArgs (DataProto τ ν)) := do
  let (state, splittedArgs) ← paddingAndSplitAll autoPadding chunks none args
  let (state, splittedVals) ← paddingAndSplitAll autoPadding chunks state (kwargs.map Prod.snd)
  return {
    args := splittedArgs
    kwargs := (kwargs.map Prod.fst).zip splittedVals
    paddingSize := state.map Prod.snd }

/-- `dispatch_dp_compute_data_proto`. -/
def dispatchDpComputeDataProto (autoPadding : Bool) (worldSize : Nat) (args : List (DataProto τ ν))
    (kwargs : List (String × DataProto τ ν)) : Except PyErr (SplitArgs (DataProto τ ν)) :=
  splitArgsKwargsDataProtoWithAutoPadding autoPadding worldSize args kwargs

/-- `_split_args_kwargs_data_proto`. -/
def splitArgsKwargsDataProto (autoPadding : Bool) (chunks : Nat) (args : List (DataProto τ ν))
    (kwargs : List (String × DataProto τ ν)) : Except PyErr (SplitArgs (DataProto τ ν)) := do
  let split (obj : DataProto τ ν) : Except PyErr (List (DataProto τ ν)) := do
    let pieces ← obj.chunk autoPadding chunks
    pyAssert (pieces.length == chunks) ""
    return pieces
  let splittedArgs ← args.mapM split
  let splittedVals ← (kwargs.map Prod.snd).mapM split
  return {
    args := splittedArgs
    kwargs := (kwargs.map Prod.fst).zip splittedVals
    paddingSize := none }

/-- The piece of worker `i`: `arg[dp_rank_mapping[i]]`. -/
def workerPiece {α : Type} (dpRankMapping : List Nat) (arg : List α) (i : Nat) : Except PyErr α :=
  match dpRankMapping[i]? with
  | none => .error .indexError
  | some localDpRank =>
    match arg[localDpRank]? with
    | none => .error .indexError
    | some piece => .ok piece

/-- The pieces of all workers. -/
def transformArg {α : Type} (dpRankMapping : List Nat) (dpSize worldSize : Nat) (arg : List α) :
    Except PyErr (List α) := do
  pyAssert (arg.length == dpSize) ""
  (List.range worldSize).mapM (workerPiece dpRankMapping arg)

/-- `dispatch_nd_compute`; it looks at `args[0]`. -/
def dispatchNdCompute {α : Type} (dpRankMapping : List Nat) (dpSize worldSize : Nat)
    (split : SplitArgs α) : Except PyErr (SplitArgs α) := do
  if split.args.isEmpty then throw .indexError
  let allArgs ← split.args.mapM (transformArg dpRankMapping dpSize worldSize)
  let allVals ← (split.kwargs.map Prod.snd).mapM (transformArg dpRankMapping dpSize worldSize)
  return {
    args := allArgs
    kwargs := (split.kwargs.map Prod.fst).zip allVals
    paddingSize := split.paddingSize }

/-- `dispatch_nd_compute_dataproto`. -/
def dispatchNdComputeDataproto (autoPadding : Bool) (dpRankMapping : List Nat)
    (dpSize worldSize : Nat) (args : List (DataProto τ ν)) (kwargs : List (String × DataProto τ ν)) :
    Except PyErr (SplitArgs (DataProto τ ν)) := do
  let split ← splitArgsKwargsDataProto autoPadding dpSize args kwargs
  dispatchNdCompute dpRankMapping dpSize worldSize split

/-- `execute_all` followed by `ray.get`: worker `i` gets piece `i` of every argument.  Arguments of
another length would go to every worker whole, which no method takes. -/
def executeAll {α β : Type} (worldSize : Nat)
    (method : Nat → List α → List (String × α) → Except PyErr β) (split : SplitArgs α) :
    Except PyErr (List β) :=
  if split.args.all (·.length == worldSize) && split.kwargs.all (·.2.length == worldSize) then
    (List.range worldSize).mapM fun i =>
      method i (split.args.filterMap (·[i]?))
        (split.kwargs.filterMap fun kwarg => (kwarg.2[i]?).map fun piece => (kwarg.1, piece))
  else .error (.typeError "a list instead of a piece")

/-- `collect_dp_compute_data_proto`. -/
def collectDpComputeDataProto (worldSize : Nat) (output : List (DataProto τ ν)) :
    Except PyErr (DataProto τ ν) := do
  pyAssert (!output.isEmpty) "expecting concatable output, but got element type empty"
  pyAssert (output.length == worldSize) ""
  DataProto.concat output

/-- The items of the workers the mask keeps. -/
def kept {α : Type} (collectMask : List Bool) (xs : List α) : List α :=
  ((xs.zip collectMask).filter (·.2)).map (·.1)

/-- `collect_nd_compute`: the outputs of the workers the mask keeps. -/
def collectNdCompute {α : Type} (collectMask : List Bool) (worldSize : Nat) (output : List α) :
    Except PyErr (List α) := do
  pyAssert (output.length == worldSize) ""
  if collectMask.length < worldSize then throw .indexError
  return kept collectMask output

/-- `collect_nd_compute_dataproto`. -/
def collectNdComputeDataproto (collectMask : List Bool) (worldSize : Nat)
    (output : List (DataProto τ ν)) : Except PyErr (DataProto τ ν) := do
  let output ← collectNdCompute collectMask worldSize output
  pyAssert (!output.isEmpty) "expecting concatable output, but got element type empty"
  DataProto.concat output

/-- `func_generator` of a blocking method with `Dispatch.DP_COMPUTE_PROTO`. -/
def callDpComputeProto (autoPadding : Bool) (worldSize : Nat)
    (method : Nat → List (DataProto τ ν) → List (String × DataProto τ ν) →
      Except PyErr (DataProto τ' ν'))
    (args : List (DataProto τ ν)) (kwargs : List (String × DataProto τ ν)) :
    Except PyErr (DataProto τ' ν') := do
  let split ← dispatchDpComputeDataProto autoPadding worldSize args kwargs
  let paddingCount := split.paddingSize.getD 0
  let output ← executeAll worldSize method split
  let output ← collectDpComputeDataProto worldSize output
  if paddingCount > 0 then
    output.selectIdxs ((List.range output.len).take (output.len - paddingCount))
  else return output

/-- The same for `make_nd_compute_dataproto_dispatch_fn`, with the mapping and the mask the workers
were registered with. -/
def callNdComputeDataproto (autoPadding : Bool) (dpRankMapping : List Nat) (dpSize : Nat)
    (collectMask : List Bool) (worldSize : Nat)
    (method : Nat → List (DataProto τ ν) → List (String × DataProto τ ν) →
      Except PyErr (DataProto τ' ν'))
    (args : List (DataProto τ ν)) (kwargs : List (String × DataProto τ ν)) :
    Except PyErr (DataProto τ' ν') := do
  let split ← dispatchNdComputeDataproto autoPadding dpRankMapping dpSize worldSize args kwargs
  let output ← executeAll worldSize method split
  collectNdComputeDataproto collectMask worldSize output

/-! ## Row-wise workers -/

/-- A function of one row: the tensor columns of the result, if it has any batch at all, and its
non-tensor columns. -/
structure RowFn (τ ν τ' ν' : Type) where
  tensor : Option (Dict (Row τ ν → τ'))
  nonTensor : Dict (Row τ ν → ν')

namespace RowFn

/-- The function on every one of `rows`. -/
def mapRows (f : RowFn τ ν τ' ν') (rows : List (Row τ ν)) (metaInfo : Dict PyVal) :
    DataProto τ' ν' where
  batch := f.tensor.map fun cols =>
    { batchSize := rows.length
      columns := cols.mapVals fun _ col => rows.map col
      rows_eq := by
        intro c hc
        obtain ⟨p, -, rfl⟩ := mem_map.1 hc
        exact length_map _ }
  nonTensorBatch := f.nonTensor.mapVals fun _ col => rows.map col
  metaInfo := metaInfo

/-- A worker method that is `f` on every row of its one argument; what else it returns
(`metaOf`) may depend on the worker and on its piece. -/
def worker (f : RowFn τ ν τ' ν') (metaOf : Nat → DataProto τ ν → Dict PyVal) (i : Nat)
    (args : List (DataProto τ ν)) (kwargs : List (String × DataProto τ ν)) :
    Except PyErr (DataProto τ' ν') :=
  match args, kwargs with
  | [d], [] => .ok (f.mapRows d.rows (metaOf i d))
  | _, _ => .error (.typeError "one argument expected")

end RowFn

/-! ## Lemmas: row-wise functions -/

namespace RowFn

variable (f : RowFn τ ν τ' ν') (rows : List (Row τ ν)) (metaInfo : Dict PyVal)

theorem length_of_mem_mapRows :
    ∀ c ∈ (f.mapRows rows metaInfo).nonTensorBatch.items, c.2.length = rows.length := by
  intro c hc
  obtain ⟨p, -, rfl⟩ := mem_map.1 hc
  exact length_map _

theorem len_mapRows (h : f.tensor ≠ none ∨ f.nonTensor.items ≠ []) :
    (f.mapRows rows metaInfo).len = rows.length := by
  have hcols := f.length_of_mem_mapRows rows metaInfo
  unfold mapRows DataProto.len at *
  cases ht : f.tensor with
  | some cols => rfl
  | none =>
    cases hnt : f.nonTensor.items with
    | nil => rcases h with h | h <;> contradiction
    | cons c rest =>
      rw [items_mapVals, hnt] at hcols ⊢
      exact hcols _ mem_cons_self

theorem wellFormed_mapRows : (f.mapRows rows metaInfo).WellFormed := by
  intro c hc
  rw [f.length_of_mem_mapRows rows metaInfo c hc, len_mapRows]
  right
  intro hnil
  rw [mapRows, items_mapVals, hnil] at hc
  cases hc

theorem inBatch_mapRows {idxs : List Nat} (h : ∀ i ∈ idxs, i < rows.length) :
    (f.mapRows rows metaInfo).InBatch idxs := by
  intro td hb
  obtain ⟨cols, -, rfl⟩ := Option.map_eq_some_iff.1 hb
  exact h

theorem gather_mapRows (idxs : List Nat) :
    (f.mapRows rows metaInfo).gather idxs = f.mapRows (gatherRows rows idxs) metaInfo := by
  have hcol : ∀ {α : Type} (col : Row τ ν → α),
      gatherRows (rows.map col) idxs = (gatherRows rows idxs).map col := by
    simp [gatherRows, map_filterMap]
  unfold mapRows DataProto.gather
  ext1
  · cases f.tensor with
    | none => rfl
    | some cols =>
      dsimp only [Option.map_some]
      congr 1
      apply TensorDict.ext
      · exact (length_gatherRows rows idxs).symm
      · rw [TensorDict.columns_gather]
        dsimp only
        rw [mapVals_mapVals]
        exact mapVals_congr fun c _ => hcol c.2
  · dsimp only
    rw [mapVals_mapVals]
    exact mapVals_congr fun c _ => hcol c.2
  · rfl

theorem mapRows_columnless (ht : f.tensor = none) (hnt : f.nonTensor.items = [])
    (rows' : List (Row τ ν)) : f.mapRows rows metaInfo = f.mapRows rows' metaInfo := by
  unfold mapRows
  rw [ht]
  ext1
  · rfl
  · apply Dict.ext
    rw [items_mapVals, items_mapVals, hnt]
    rfl
  · rfl

end RowFn

/-! ## Lemmas: pieces -/

variable (f : RowFn τ ν τ' ν') {d : DataProto τ ν} {n k : Nat} {data : DataProto τ ν}

theorem concat_mapRows_gather (hwf : d.WellFormed)
    (xs : List (List Nat × Dict PyVal)) (hne : xs ≠ []) (hin : ∀ p ∈ xs, ∀ i ∈ p.1, i < d.len)
    {merged : Dict PyVal} (hm : DataProto.mergeMetaInfo (xs.map Prod.snd) = .ok merged) :
    DataProto.concat (xs.map fun p => f.mapRows (d.gather p.1).rows p.2)
      = .ok (f.mapRows (gatherRows d.rows (xs.flatMap Prod.fst)) merged) := by
  have hlenrows : d.rows.length = d.len := by simp [DataProto.rows]
  -- every result is a gather of the result of all rows
  have hpiece : ∀ p ∈ xs, f.mapRows (d.gather p.1).rows p.2
      = (f.mapRows d.rows Dict.empty).gatherWith p.1 p.2 := by
    intro p hp
    rw [DataProto.rows_gather hwf (hin p hp), DataProto.gatherWith, f.gather_mapRows,
      DataProto.gatherRows_rows (hin p hp)]
    rfl
  have hinb : ∀ p ∈ xs, (f.mapRows d.rows Dict.empty).InBatch p.1 := by
    intro p hp
    exact f.inBatch_mapRows _ _ (by rw [hlenrows]; exact hin p hp)
  rw [map_congr_left hpiece]
  cases xs with
  | nil => exact absurd rfl hne
  | cons x xs =>
    rw [DataProto.concat_map_gather_of_merge (f.wellFormed_mapRows _ _) x xs hinb hm,
      DataProto.gatherWith, f.gather_mapRows]
    rfl

theorem concat_map_mapRows (hwf : d.WellFormed) {k s : Nat} (hk : 1 ≤ k) (hlen : d.len = k * s)
    (metas : Nat → Dict PyVal) {merged : Dict PyVal}
    (hm : DataProto.mergeMetaInfo ((range k).map metas) = .ok merged) :
    DataProto.concat ((range k).map fun i =>
        f.mapRows (d.gather (range' (i * s) s)).rows (metas i))
      = .ok (f.mapRows d.rows merged) := by
  have hlenrows : d.rows.length = d.len := by simp [DataProto.rows]
  have hmetas : ((range k).map fun i => (range' (i * s) s, metas i)).map Prod.snd
      = (range k).map metas := by
    rw [map_map]; rfl
  have hflat : ((range k).map fun i => (range' (i * s) s, metas i)).flatMap Prod.fst
      = range d.len := by
    rw [flatMap_map, hlen]
    exact flatMap_range' s k
  have hin : ∀ p ∈ (range k).map fun i => (range' (i * s) s, metas i),
      ∀ r ∈ p.1, r < d.len := by
    intro p hp
    obtain ⟨i, hi, rfl⟩ := mem_map.1 hp
    rw [hlen]
    exact lt_of_mem_piece (mem_range.1 hi)
  have hne : ((range k).map fun i => (range' (i * s) s, metas i)) ≠ [] := by
    rw [Ne, map_eq_nil_iff, range_eq_nil]
    omega
  have hcat := concat_mapRows_gather f hwf _ hne hin (hmetas ▸ hm)
  rw [hflat, ← hlenrows, gatherRows_range, map_map] at hcat
  exact hcat

theorem executeAll_worker (metaOf : Nat → DataProto τ ν → Dict PyVal)
    (pieces : List (DataProto τ ν)) (paddingSize : Option Nat) :
    executeAll pieces.length (f.worker metaOf)
        { args := [pieces], kwargs := [], paddingSize := paddingSize }
      = .ok (pieces.mapIdx fun i d => f.mapRows d.rows (metaOf i d)) := by
  have hworker : ∀ i ∈ range pieces.length,
      f.worker metaOf i ([pieces].filterMap (·[i]?)) []
        = .ok ((pieces[i]?.map fun d => f.mapRows d.rows (metaOf i d)).getD
          (f.mapRows [] Dict.empty)) := by
    intro i hi
    rw [mem_range] at hi
    rw [filterMap_cons, getElem?_eq_getElem hi]
    rfl
  have houtputs : (range pieces.length).map (fun i =>
        (pieces[i]?.map fun d => f.mapRows d.rows (metaOf i d)).getD (f.mapRows [] Dict.empty))
      = pieces.mapIdx fun i d => f.mapRows d.rows (metaOf i d) := by
    apply ext_getElem
    · simp
    · grind
  unfold executeAll
  rw [if_pos (by simp), ← houtputs]
  exact mapM_eq_ok_map _ _ _ hworker

/-! ## Lemmas: auto padding -/

/-- How many rows are added to `n` rows for `k` workers. -/
def paddingCount (n k : Nat) : Nat := if n % k > 0 then k - n % k else 0

theorem dvd_add_paddingCount (hk : 1 ≤ k) : k ∣ n + paddingCount n k := by
  unfold paddingCount
  have hdiv := Nat.div_add_mod n k
  have hlt := Nat.mod_lt n (show k > 0 by omega)
  split
  · refine ⟨n / k + 1, ?_⟩
    rw [Nat.mul_succ]
    omega
  · refine ⟨n / k, ?_⟩
    omega

theorem paddingCount_ne_zero (h : paddingCount n k ≠ 0) : ¬ k ∣ n := by
  intro hdvd
  rw [paddingCount, Nat.mod_eq_zero_of_dvd hdvd] at h
  exact h rfl

theorem dispatchDpComputeDataProto_eq (hwf : data.WellFormed)
    {autoPadding : Bool} (hpad : data.isPaddingEnabled autoPadding = true) {k : Nat} (hk : 1 ≤ k)
    (hn : 1 ≤ data.len)
    (hself : ¬ k ∣ data.len →
      ∃ merged, DataProto.mergeMetaInfo [data.metaInfo, data.metaInfo] = .ok merged) :
    ∃ (padded : DataProto τ ν) (s : Nat), padded.WellFormed ∧ padded.len = k * s ∧
      gatherRows padded.rows (range data.len) = data.rows ∧
      padded.len = data.len + paddingCount data.len k ∧
      dispatchDpComputeDataProto autoPadding k [data] []
        = .ok {
            args := [(range k).map fun i => padded.gather (range' (i * s) s)]
            kwargs := []
            paddingSize := some (paddingCount data.len k) } := by
  obtain ⟨s, hs⟩ := dvd_add_paddingCount (n := data.len) hk
  have hpadding := DataProto.padding_eq hwf hn (paddingCount data.len k)
    fun h => hself (paddingCount_ne_zero h)
  have hin : ∀ i ∈ range data.len ++ replicate (paddingCount data.len k) (data.len - 1),
      i < data.len := by grind
  generalize hidxs : range data.len
    ++ replicate (paddingCount data.len k) (data.len - 1) = idxs at hpadding hin
  have hlen : (data.gather idxs).len = data.len + paddingCount data.len k := by
    rw [DataProto.len_gather hwf hin, ← hidxs]
    simp
  refine ⟨data.gather idxs, s, DataProto.wellFormed_gather hwf hin, by rw [hlen, hs], ?_, hlen, ?_⟩
  · rw [DataProto.rows_gather hwf hin, ← hidxs, map_append, range_eq_range',
      gatherRows_range']
    refine (take_left' ?_).trans ?_
    · simp
    · rw [DataProto.rows, range_eq_range']
  · have hchunk : (data.gather idxs).chunk autoPadding k = .ok ((range k).map fun i =>
        (data.gather idxs).gather (range' (i * s) s)) := by
      by_cases hs0 : s = 0
      · subst hs0
        omega
      · exact DataProto.chunk_eq (DataProto.wellFormed_gather hwf hin) hk (by omega)
          (by rw [hlen, hs]) autoPadding
    have hsplit : paddingAndSplitData autoPadding k none data
        = .ok (some (data.len, paddingCount data.len k),
          (range k).map fun i => (data.gather idxs).gather (range' (i * s) s)) := by
      unfold paddingAndSplitData
      rw [if_pos hpad]
      dsimp only
      rw [if_neg (by omega)]
      show ((data.padding (paddingCount data.len k)) >>= _) = _
      rw [hpadding, ok_bind, hchunk]
      rfl
    unfold dispatchDpComputeDataProto splitArgsKwargsDataProtoWithAutoPadding
    simp only [paddingAndSplitAll, hsplit]
    rfl

/-! ## Lemmas: one piece per worker -/

theorem kept_map {α β : Type} (collectMask : List Bool) (xs : List α) (g : α → β) :
    kept collectMask (xs.map g) = (kept collectMask xs).map g := by
  unfold kept
  rw [zip_map_left, filter_map, map_map, map_map]
  rfl

theorem kept_eq_range {dpRankMapping : List Nat} {collectMask : List Bool} {d : Nat}
    (hincr : (kept collectMask dpRankMapping).Pairwise (· < ·))
    (hranks : ∀ r, r ∈ kept collectMask dpRankMapping ↔ r < d) :
    kept collectMask dpRankMapping = range d := by
  have hperm : (kept collectMask dpRankMapping).Perm (range d) := by
    refine (perm_ext_iff_of_nodup (hincr.imp fun h => Nat.ne_of_lt h) nodup_range).2 ?_
    intro r
    rw [hranks, mem_range]
  have hanti : ∀ a b : Nat, a ∈ kept collectMask dpRankMapping → b ∈ range d →
      a < b → b < a → a = b := by omega
  exact hperm.eq_of_pairwise hanti hincr pairwise_lt_range

theorem dispatchNdComputeDataproto_eq (hwf : data.WellFormed)
    {d s : Nat} (hd : 1 ≤ d) (hs : 1 ≤ s) (hlen : data.len = d * s) (autoPadding : Bool)
    (dpRankMapping : List Nat) (hmap : ∀ r ∈ dpRankMapping, r < d) :
    dispatchNdComputeDataproto autoPadding dpRankMapping d dpRankMapping.length [data] []
      = .ok {
          args := [dpRankMapping.map fun r => data.gather (range' (r * s) s)]
          kwargs := []
          paddingSize := none } := by
  have hchunk := DataProto.chunk_eq hwf hd hs hlen autoPadding
  have hrank : ∀ i ∈ range dpRankMapping.length,
      workerPiece dpRankMapping ((range d).map fun r => data.gather (range' (r * s) s)) i
        = .ok (data.gather (range' (dpRankMapping.getD i 0 * s) s)) := by
    intro i hi
    rw [mem_range] at hi
    have hlt := hmap _ (getElem_mem hi)
    unfold workerPiece
    rw [getElem?_eq_getElem hi]
    dsimp only
    rw [getElem?_map, getElem?_range hlt, getD_eq_getElem?_getD,
      getElem?_eq_getElem hi]
    rfl
  have hpieces : (range dpRankMapping.length).map (fun i =>
        data.gather (range' (dpRankMapping.getD i 0 * s) s))
      = dpRankMapping.map fun r => data.gather (range' (r * s) s) := by
    apply ext_getElem
    · simp
    · grind
  have htransform : transformArg dpRankMapping d dpRankMapping.length
        ((range d).map fun r => data.gather (range' (r * s) s))
      = .ok (dpRankMapping.map fun r => data.gather (range' (r * s) s)) := by
    unfold transformArg
    rw [length_map, length_range, beq_self_eq_true, pyAssert_true, ok_bind,
      mapM_eq_ok_map _ _ _ hrank, hpieces]
  unfold dispatchNdComputeDataproto splitArgsKwargsDataProto dispatchNdCompute
  simp only [map_nil, mapM_cons, mapM_nil, hchunk, ok_bind, length_map,
    length_range, beq_self_eq_true, pyAssert_true, pure, Except.pure, isEmpty_cons,
    Bool.false_eq_true, if_false, htransform, zip_nil_left]

theorem kept_outputs {α : Type} {dpRankMapping : List Nat} {collectMask : List Bool} {d : Nat}
    (hkept : kept collectMask dpRankMapping = range d) (piece : Nat → α) :
    ∃ worker : Nat → Nat, ∀ (β : Type) (g : Nat → α → β),
      kept collectMask ((dpRankMapping.map piece).mapIdx g)
        = (range d).map fun r => g (worker r) (piece r) := by
  -- the workers that are kept, and their ranks
  have hmapping : (range dpRankMapping.length).map (fun i => dpRankMapping.getD i 0)
      = dpRankMapping := by
    apply ext_getElem
    · simp
    · grind
  have hranks : (kept collectMask (range dpRankMapping.length)).map
      (fun i => dpRankMapping.getD i 0) = range d := by
    rw [← kept_map, hmapping, hkept]
  refine ⟨fun r => (kept collectMask (range dpRankMapping.length)).getD r 0, ?_⟩
  intro β g
  have houtputs : (dpRankMapping.map piece).mapIdx g
      = (range dpRankMapping.length).map fun i => g i (piece (dpRankMapping.getD i 0)) := by
    rw [← mapIdx_map_range (fun i => piece (dpRankMapping.getD i 0)) g]
    conv_lhs => rw [← hmapping]
    rw [map_map]
    rfl
  rw [houtputs, kept_map]
  apply ext_getElem
  · grind
  · grind

theorem selectIdxs_mapRows (rows : List (Row τ ν)) (metaInfo : Dict PyVal)
    {n p : Nat} (hlen : rows.length = n + p) :
    (f.mapRows rows metaInfo).selectIdxs ((range (f.mapRows rows metaInfo).len).take
        ((f.mapRows rows metaInfo).len - p))
      = .ok (f.mapRows (gatherRows rows (range n)) metaInfo) := by
  have hin : ∀ i ∈ (range (f.mapRows rows metaInfo).len).take
      ((f.mapRows rows metaInfo).len - p), i < (f.mapRows rows metaInfo).len := by grind
  rw [DataProto.selectIdxs_eq (f.wellFormed_mapRows _ _) hin, f.gather_mapRows]
  by_cases hcols : f.tensor ≠ none ∨ f.nonTensor.items ≠ []
  · rw [f.len_mapRows _ _ hcols, take_range, hlen, show min (n + p - p) (n + p) = n by omega]
  · rw [not_or, not_not, not_not] at hcols
    rw [f.mapRows_columnless _ _ hcols.1 hcols.2]

theorem mergeable_of_metrics (names : List String) {metas : List (Dict PyVal)}
    (h : ∀ m ∈ metas, ∃ v : PyVal, m.items = [("metrics", v)] ∧ (∃ items, v = .dict items) ∧
      v.keys = names) : DataProto.Mergeable metas := by
  have hitems : ∀ p ∈ metas.flatMap Dict.items, p.1 = "metrics" ∧ (∃ items, p.2 = .dict items) ∧
      p.2.keys = names := by grind
  have hall : ∀ v ∈ DataProto.allMetrics metas, (∃ items, v = .dict items) ∧ v.keys = names := by
    intro v hv
    obtain ⟨⟨key, w⟩, hp, hv⟩ := mem_flatMap.1 hv
    obtain ⟨hk, ⟨items, hd⟩, hkeys⟩ := hitems _ hp
    subst hk hd
    rw [show DataProto.metricsOf ("metrics", PyVal.dict items) = [PyVal.dict items] from rfl,
      mem_singleton] at hv
    subst hv
    exact ⟨⟨items, rfl⟩, hkeys⟩
  refine ⟨fun p hp _ _ _ hne => absurd (hitems p hp).1 hne, fun v hv => (hall v hv).1, ?_⟩
  intro v hv first hfirst key hkey
  rwa [(hall first (mem_of_mem_head? hfirst)).2, ← (hall v hv).2]

/-! ## Top theorem -/

/-- Dispatching a batch, running a row-wise function on every worker and collecting gives the
function on the rows of the batch, for `Dispatch.DP_COMPUTE_PROTO` with auto padding and for the
dispatch by dp rank, as long as `concat` can merge what the workers return along with the rows. -/
theorem dispatch_collect_mapRows (autoPadding : Bool) (f : RowFn τ ν τ' ν')
    (metaOf : Nat → DataProto τ ν → Dict PyVal) (data : DataProto τ ν) (hwf : data.WellFormed)
    (hn : 1 ≤ data.len) :
    (∀ k, 1 ≤ k → data.isPaddingEnabled autoPadding = true →
      (¬ k ∣ data.len → DataProto.Mergeable [data.metaInfo, data.metaInfo]) →
      (∀ split, dispatchDpComputeDataProto autoPadding k [data] [] = .ok split →
        ∀ pieces ∈ split.args, DataProto.Mergeable (pieces.mapIdx metaOf)) →
      ∃ merged, callDpComputeProto autoPadding k (f.worker metaOf) [data] []
        = .ok (f.mapRows data.rows merged)) ∧
    (∀ (dpRankMapping : List Nat) (d : Nat) (collectMask : List Bool), d ∣ data.len →
      (∀ r ∈ dpRankMapping, r < d) → collectMask.length = dpRankMapping.length →
      (kept collectMask dpRankMapping).Pairwise (· < ·) →
      (∀ r < d, r ∈ kept collectMask dpRankMapping) →
      (∀ split, dispatchNdComputeDataproto autoPadding dpRankMapping d dpRankMapping.length [data] []
          = .ok split →
        ∀ pieces ∈ split.args, DataProto.Mergeable (kept collectMask (pieces.mapIdx metaOf))) →
      ∃ merged, callNdComputeDataproto autoPadding dpRankMapping d collectMask dpRankMapping.length
          (f.worker metaOf) [data] [] = .ok (f.mapRows data.rows merged)) := by
  constructor
  · intro k hk hpad hself hmeta
    obtain ⟨padded, s, hpwf, hplen, hrows, hpn, hsplit⟩ :=
      dispatchDpComputeDataProto_eq hwf hpad hk hn fun h => DataProto.mergeMetaInfo_eq_ok (hself h)
    have hm := hmeta _ hsplit _ mem_cons_self
    rw [mapIdx_map_range] at hm
    obtain ⟨merged, hmerged⟩ := DataProto.mergeMetaInfo_eq_ok hm
    have hcat := concat_map_mapRows f hpwf hk hplen _ hmerged
    refine ⟨merged, ?_⟩
    unfold callDpComputeProto
    rw [hsplit, ok_bind]
    have hexec := executeAll_worker f metaOf
      ((List.range k).map fun i => padded.gather (List.range' (i * s) s))
      (some (paddingCount data.len k))
    rw [length_map, length_range, mapIdx_map_range] at hexec
    have hcollect : collectDpComputeDataProto k ((List.range k).map fun i =>
          f.mapRows (padded.gather (List.range' (i * s) s)).rows
            (metaOf i (padded.gather (List.range' (i * s) s))))
        = .ok (f.mapRows padded.rows merged) := by
      have hne : ((List.range k).map fun i =>
          f.mapRows (padded.gather (List.range' (i * s) s)).rows
            (metaOf i (padded.gather (List.range' (i * s) s)))).isEmpty = false := by
        rw [isEmpty_eq_false_iff, Ne, map_eq_nil_iff, range_eq_nil]
        omega
      unfold collectDpComputeDataProto
      rw [hne, length_map, length_range, beq_self_eq_true, Bool.not_false, pyAssert_true,
        ok_bind, pyAssert_true, ok_bind, hcat]
    rw [hexec, ok_bind, hcollect, ok_bind, Option.getD_some]
    have hlen : padded.rows.length = data.len + paddingCount data.len k := by
      rw [DataProto.rows, length_map, length_range, hpn]
    by_cases hp : paddingCount data.len k > 0
    · rw [if_pos hp, selectIdxs_mapRows f _ _ hlen, hrows]
    · rw [if_neg hp]
      have hall : gatherRows padded.rows (List.range data.len) = padded.rows := by
        rw [show data.len = padded.rows.length by omega, gatherRows_range]
      rw [← hrows, hall]
      rfl
  · intro dpRankMapping d collectMask hdvd hmap hmask hincr hranks hmeta
    obtain ⟨s, hs⟩ := hdvd
    have hd : 1 ≤ d := by grind
    have hs1 : 1 ≤ s := by grind
    have hkept : kept collectMask dpRankMapping = List.range d := by
      refine kept_eq_range hincr fun r => ⟨fun hr => ?_, hranks r⟩
      obtain ⟨x, hx, rfl⟩ := mem_map.1 hr
      exact hmap _ (of_mem_zip (mem_of_mem_filter hx)).1
    have hsplit := dispatchNdComputeDataproto_eq hwf hd hs1 hs autoPadding dpRankMapping hmap
    obtain ⟨worker, hworker⟩ := kept_outputs hkept fun r => data.gather (List.range' (r * s) s)
    have hm := hmeta _ hsplit _ mem_cons_self
    rw [hworker] at hm
    obtain ⟨merged, hmerged⟩ := DataProto.mergeMetaInfo_eq_ok hm
    have hcat := concat_map_mapRows f hwf hd hs _ hmerged
    refine ⟨merged, ?_⟩
    have hexec := executeAll_worker f metaOf
      (dpRankMapping.map fun r => data.gather (List.range' (r * s) s)) none
    rw [length_map] at hexec
    unfold callNdComputeDataproto
    rw [hsplit, ok_bind, hexec, ok_bind]
    unfold collectNdComputeDataproto collectNdCompute
    have hne : ((List.range d).map fun r =>
        f.mapRows (data.gather (List.range' (r * s) s)).rows
          (metaOf (worker r) (data.gather (List.range' (r * s) s)))).isEmpty = false := by
      rw [isEmpty_eq_false_iff, Ne, map_eq_nil_iff, range_eq_nil]
      omega
    rw [length_mapIdx, length_map, beq_self_eq_true,
      if_neg (by omega), hworker]
    show (pyAssert _ _ >>= fun _ => _) = _
    rw [hne, Bool.not_false, pyAssert_true, ok_bind, hcat]

/-- Three rows of one number each, with auto padding. -/
def threeRows : DataProto Nat Nat where
  batch := some
    { batchSize := 3
      columns := Dict.ofItems [("x", [5, 6, 7])]
      rows_eq := by decide }
  nonTensorBatch := Dict.ofItems [("uid", [1, 2, 3])]
  metaInfo := Dict.ofItems [("_verl_auto_padding", .bool true)]

/-- The number plus one, and the uid. -/
def plusOne : RowFn Nat Nat Nat Nat where
  tensor := some (Dict.ofItems [("y", fun row => (row.tensor.lookup "x").getD 0 + 1)])
  nonTensor := Dict.ofItems [("uid", fun row => (row.nonTensor.lookup "uid").getD 0)]

/-- The metrics of worker `i`, under a name. -/
def oneMetric (name : String) (i : Nat) : Dict PyVal :=
  Dict.ofItems [("metrics", .dict [(name, .int i)])]

theorem dispatch_collect_mapRows_three :
    (∃ merged, callDpComputeProto false 2 (plusOne.worker fun i _ => oneMetric "loss" i)
      [threeRows] [] = .ok (plusOne.mapRows threeRows.rows merged)) ∧
    (∃ merged, callNdComputeDataproto false [0, 0, 1, 1, 2, 2] 3
      [true, false, false, true, false, true] 6 (plusOne.worker fun i _ => oneMetric "loss" i)
      [threeRows] [] = .ok (plusOne.mapRows threeRows.rows merged)) := by
  have hboth := dispatch_collect_mapRows false plusOne (fun i _ => oneMetric "loss" i) threeRows
    (by decide) (by decide)
  have hmetrics : ∀ pieces : List (DataProto Nat Nat),
      ∀ m ∈ pieces.mapIdx (fun i _ => oneMetric "loss" i), ∃ v : PyVal,
        m.items = [("metrics", v)] ∧ (∃ items, v = .dict items) ∧ v.keys = ["loss"] := by
    intro pieces m hm
    obtain ⟨i, -, rfl⟩ := mem_mapIdx.1 hm
    exact ⟨_, rfl, ⟨_, rfl⟩, rfl⟩
  constructor
  · refine hboth.1 2 (by decide) rfl (fun _ => ?_) fun _ _ pieces _ =>
      mergeable_of_metrics ["loss"] (hmetrics pieces)
    constructor
    · decide
    · intro v hv; cases hv
    · intro v hv; cases hv
  · refine hboth.2 [0, 0, 1, 1, 2, 2] 3 [true, false, false, true, false, true] (by decide)
      (by decide) rfl (by decide) (by decide) fun _ _ pieces _ =>
        mergeable_of_metrics ["loss"] fun m hm => ?_
    obtain ⟨x, hx, rfl⟩ := mem_map.1 hm
    exact hmetrics pieces _ (of_mem_zip (mem_of_mem_filter hx)).1

/-- Two workers whose metrics have different names, and no other `meta_info`: `concat` raises. -/
theorem callDpComputeProto_metrics_names :
    1 ≤ threeRows.len ∧ threeRows.isPaddingEnabled false = true ∧ threeRows.WellFormed ∧
    (∀ i, (oneMetric (if i = 0 then "actor/loss" else "actor/kl") i).keys = ["metrics"]) ∧
    callDpComputeProto false 2
      (plusOne.worker fun i _ => oneMetric (if i = 0 then "actor/loss" else "actor/kl") i)
      [threeRows] [] = .error (.assertionError
        "Key 'actor/kl' is not present in the keys of the first dictionary in the list.") :=
  ⟨by decide, rfl, by decide, fun _ => rfl, rfl⟩

end Verl
