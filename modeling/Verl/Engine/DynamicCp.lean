import Verl.Lib.Interleave
import Verl.Lib.PySlice
import Verl.Trainer.AggLoss
import Verl.Utils.MicroBatches

/-! # Dynamic context parallelism (`utils/megatron_utils.py`, `workers/engine/megatron`)

Every data parallel rank receives the whole micro-batch.  `dynamicCpSplitBatch` gives each group of
`local_cp_size` ranks the same consecutive rows; `dynamicCpMergeOutput` puts the outputs of the
groups behind each other.

    ranks     0 1 | 2 3 | 4 5 | 6 7        local_cp_size = 2,  local_dp_size = 4
    rows      0 1 | 2 3 | 4 5 | 6          7 rows, 2 for each group

The number of rows of a group is rounded up, so that the last groups can be left with none
(5 rows: 0 1 | 2 3 | 4 | nothing), and ranks behind the last whole group have no rows either.

`groups_iff`: the rows are cut into groups and merged again exactly when neither happens.

`batch_num_tokens` is summed over the data parallel group, whose ranks then all count the same
rows, while `dp_size` is 1: `sumGroupLosses_eq_iff`. -/

namespace Verl.DynamicCp

open List Dict

variable {ρ β : Type}

/-! ## Algorithm -/

/-- `x.bit_length()`. -/
def bitLength (x : Int) : Nat := if x = 0 then 0 else x.natAbs.log2 + 1

def pyMax (xs : List Nat) : Except PyErr Nat :=
  match xs.max? with
  | some m => .ok m
  | none => .error (.valueError "max() iterable argument is empty")

/-- `math.ceil(max_seq_len / max_seqlen_per_dp_cp_rank)`, rounded up to a power of two. -/
def localCpSizeOf (maxSeqLen : Nat) (maxSeqlenPerDpCpRank : Option Int) : Except PyErr Nat :=
  match maxSeqlenPerDpCpRank with
  | some size => do
    let localCpSize ← ceildiv maxSeqLen size
    return 1 <<< bitLength (localCpSize - 1)
  | none => .error (.typeError "unsupported operand type(s) for /: 'Tensor' and 'NoneType'")

/-- `index_select_tensor_dict` of a batch of nested tensors, none of which has no rows. -/
def selectRows (batch : List ρ) (indices : List Nat) : Except PyErr (List ρ) :=
  if indices = [] then .error (.assertionError "Must provide at least one tensor")
  else if indices.all (· < batch.length) then .ok (gatherRows batch indices)
  else .error .indexError

/-- The rows of the group of a rank. -/
def selectLocal (batch : List ρ) (dpSize dpRank localCpSize : Nat) : Except PyErr (List ρ) :=
  if localCpSize < dpSize then
    let localDpRank := dpRank / localCpSize
    let localDpSize := dpSize / localCpSize
    let indices := List.range batch.length
    let numSeqPerLocalCp := (batch.length + localDpSize - 1) / localDpSize
    let startIdx := localDpRank * numSeqPerLocalCp
    let endIdx := min (startIdx + numSeqPerLocalCp) batch.length
    selectRows batch (getSlice indices startIdx (endIdx - startIdx))
  else .ok batch

/-- `dynamic_cp_split_batch`, with the `local_cp_size` it assigns.  A batch of fewer rows than
ranks is returned without one. -/
def dynamicCpSplitBatch (seqLen : ρ → Nat) (batch : List ρ) (maxSeqlenPerDpCpRank : Option Int)
    (dpSize dpRank : Nat) : Except PyErr (List ρ × Option Nat) := do
  let seqLenEffective := batch.map seqLen
  let maxSeqLen ← pyMax seqLenEffective
  if seqLenEffective.length < dpSize then return (batch, none)
  else
    let localCpSize ← localCpSizeOf maxSeqLen maxSeqlenPerDpCpRank
    pyAssert (localCpSize ≤ dpSize) ("local_cp_size must be less than or equal to dp_size, try to "
      ++ "increase max_seqlen_per_dp_cp_rank")
    let batch ← selectLocal batch dpSize dpRank localCpSize
    return (batch, some localCpSize)

/-- `outputs[k]`. -/
def outputRows (k : String) (outputs : Dict (List β)) : Except PyErr (List β) :=
  match outputs.get? k with
  | some rows => .ok rows
  | none => .error (.keyError k)

/-- An output of the whole group: `object_list`, then the ranks of one per local group. -/
def mergeKey (gathered : List (Dict (List β))) (dpSize dpRank localCpSize : Nat) (k : String) :
    Except PyErr (List β) := do
  let objectList ← gathered.mapM (outputRows k)
  let toMerge := gatherRows objectList
    (sliceIdxs dpSize (some (dpRank % localCpSize : Nat)) none localCpSize)
  return toMerge.flatten

/-- `dynamic_cp_merge_output`; `gathered` are the outputs of all ranks. -/
def dynamicCpMergeOutput (gathered : List (Dict (List β))) (outputs : Dict (List β))
    (dpSize dpRank localCpSize : Nat) : Except PyErr (Dict (List β)) :=
  if localCpSize = dpSize then .ok outputs
  else
    outputs.keys.foldlM (fun mergedOutput k => do
      let merged ← mergeKey gathered dpSize dpRank localCpSize k
      return mergedOutput.insert k merged) Dict.empty

/-- The model output of a rank, in `postprocess_micro_batch_func`. -/
def postprocessOutput (gathered : List (Dict (List β))) (outputs : Dict (List β))
    (dpSize dpRank : Nat) : Option Nat → Except PyErr (Dict (List β))
  | some localCpSize => dynamicCpMergeOutput gathered outputs dpSize dpRank localCpSize
  | none => .ok outputs

/-! ## Normalisation of the loss -/

/-- `get_data_parallel_size`. -/
def getDataParallelSize (dynamicContextParallel : Bool) (dpWorldSize : Nat) : Nat :=
  if dynamicContextParallel then 1 else dpWorldSize

section Loss

variable {K : Type} [Field K] [LinearOrder K] {w : Nat}

/-- `loss_mask.sum()`. -/
def numTokens (batch : List (LossRow K w)) : K := (batch.map LossRow.maskSum).sum

/-- `batch_num_tokens`, all-reduced over the data of the ranks of the data parallel group. -/
def batchNumTokens (data : List (List (LossRow K w))) : K := (data.map numTokens).sum

/-- The losses of the groups, with what `forward_backward_batch` assigns where every rank of the
data parallel group has the batch. -/
def sumGroupLosses (batch : List (LossRow K w)) (dpSize : Nat) (groups : List (List Nat))
    (globalBatchSize lossScaleFactor : Option K) : Except PyErr (Option K) := do
  let losses ← groups.mapM fun indices =>
    aggLoss (gatherRows batch indices) "token-mean" (getDataParallelSize true dpSize)
      (some (batchNumTokens (List.replicate dpSize batch))) globalBatchSize lossScaleFactor
  return numSum losses

end Loss

/-! ## Groups -/

/-- An output for each row. -/
def rowOutput (outputOf : Dict (ρ → β)) (rows : List ρ) : Dict (List β) :=
  outputOf.mapVals fun _ f => rows.map f

section Groups

variable (seqLen : ρ → Nat) (batch : List ρ) (maxSeqlenPerDpCpRank : Option Int) (dpSize : Nat)

/-- The sub-batches are the rows `indices r`, and their outputs can be merged. -/
structure Groups (indices : Nat → List Nat) (localCpSize : Option Nat) : Prop where
  split : ∀ r < dpSize, dynamicCpSplitBatch seqLen batch maxSeqlenPerDpCpRank dpSize r =
    .ok (gatherRows batch (indices r), localCpSize)
  nonempty : ∀ r < dpSize, indices r ≠ []
  one_group : ∀ i < batch.length, ∃! group, (∃ r < dpSize, indices r = group) ∧ i ∈ group
  once : ∀ r < dpSize, (indices r).Nodup
  lt : ∀ r < dpSize, ∀ i ∈ indices r, i < batch.length
  merge : ∀ (β : Type) (outputOf : Dict (ρ → β)), ∀ r < dpSize,
    postprocessOutput ((List.range dpSize).map fun r => rowOutput outputOf (gatherRows batch (indices r)))
      (rowOutput outputOf (gatherRows batch (indices r))) dpSize r localCpSize =
        .ok (rowOutput outputOf batch)

/-- The assertion is not reached, or holds. -/
def AssertHolds : Prop :=
  dpSize ≤ batch.length → ∃ maxSeqLen localCpSize, pyMax (batch.map seqLen) = .ok maxSeqLen ∧
    localCpSizeOf maxSeqLen maxSeqlenPerDpCpRank = .ok localCpSize ∧ localCpSize ≤ dpSize

/-- Whole groups of ranks, of which the last one is still left with rows. -/
def GroupsFilled : Prop :=
  batch.length < dpSize ∨ ∃ maxSeqLen localCpSize, pyMax (batch.map seqLen) = .ok maxSeqLen ∧
    localCpSizeOf maxSeqLen maxSeqlenPerDpCpRank = .ok localCpSize ∧ localCpSize ∣ dpSize ∧
    (dpSize / localCpSize - 1) *
      ((batch.length + dpSize / localCpSize - 1) / (dpSize / localCpSize)) < batch.length

end Groups

/-! ## Lemmas -/

variable {batch : List ρ} {n size j dpRank : Nat}

theorem localCpSizeOf_pos {maxSeqLen localCpSize : Nat} {maxSeqlenPerDpCpRank : Option Int}
    (h : localCpSizeOf maxSeqLen maxSeqlenPerDpCpRank = .ok localCpSize) : 0 < localCpSize := by
  cases maxSeqlenPerDpCpRank with
  | none => cases h
  | some size =>
    obtain ⟨count, -, h⟩ := bind_eq_ok.1 h
    cases h
    rw [Nat.shiftLeft_eq, Nat.one_mul]
    exact Nat.pow_pos (by omega)

theorem getSlice_range (n start size : Nat) :
    getSlice (range n) start size = range' start (min size (n - start)) := by
  unfold getSlice
  rw [range_eq_range']
  rcases Nat.le_total size (n - start) with h | h
  · grind
  · grind

theorem gatherRows_getSlice (batch : List ρ) (start size : Nat) :
    gatherRows batch (getSlice (range batch.length) start size) = getSlice batch start size := by
  rw [getSlice_range, gatherRows_range']
  unfold getSlice
  rw [← length_drop, ← take_take, take_length]

/-- The rows of group `j`, of `size` rows each. -/
def groupIndices (n size j : Nat) : List Nat := getSlice (List.range n) (j * size) size

theorem mem_groupIndices {i : Nat} :
    i ∈ groupIndices n size j ↔ i < n ∧ j * size ≤ i ∧ i < j * size + size := by
  unfold groupIndices
  rw [getSlice_range, mem_range'_1]
  omega

theorem selectLocal_eq (batch : List ρ) {dpSize localCpSize : Nat} (hlt : localCpSize < dpSize) :
    selectLocal batch dpSize dpRank localCpSize =
      selectRows batch (groupIndices batch.length
        ((batch.length + dpSize / localCpSize - 1) / (dpSize / localCpSize))
        (dpRank / localCpSize)) := by
  unfold selectLocal
  rw [if_pos hlt]
  dsimp only
  unfold groupIndices
  rw [getSlice_range, getSlice_range]
  have hmin : ∀ start size n : Nat, min (min (start + size) n - start) (n - start) =
      min size (n - start) := by
    intro start size n
    omega
  rw [hmin]

theorem selectRows_groupIndices (hsize : 0 < size) (hj : j * size < batch.length) :
    selectRows batch (groupIndices batch.length size j) =
      .ok (gatherRows batch (groupIndices batch.length size j)) := by
  have hmem : j * size ∈ groupIndices batch.length size j :=
    mem_groupIndices.2 ⟨hj, le_rfl, by omega⟩
  have hall : (groupIndices batch.length size j).all (· < batch.length) = true := by
    rw [all_eq_true]
    intro i hi
    exact decide_eq_true (mem_groupIndices.1 hi).1
  unfold selectRows
  rw [if_neg (ne_nil_of_mem hmem), if_pos hall]

theorem groupIndices_eq_nil (h : n ≤ j * size) : groupIndices n size j = [] := by
  rw [eq_nil_iff_forall_not_mem]
  intro i hi
  have hi := mem_groupIndices.1 hi
  omega

theorem groupIndices_ne_nil (hsize : 0 < size) (hj : j * size < n) : groupIndices n size j ≠ [] :=
  ne_nil_of_mem (mem_groupIndices.2 ⟨hj, le_rfl, by omega⟩)

theorem nodup_groupIndices (n size j : Nat) : (groupIndices n size j).Nodup := by
  unfold groupIndices
  rw [getSlice_range]
  exact nodup_range'

theorem eq_of_mem_groupIndices {i : Nat} (h : i ∈ groupIndices n size j) : j = i / size := by
  obtain ⟨-, hle, hlt⟩ := mem_groupIndices.1 h
  symm
  rw [Nat.div_eq_iff (by omega)]
  constructor
  · omega
  · omega

theorem le_mul_roundedUp (n : Nat) {groups : Nat} (h : 0 < groups) :
    n ≤ groups * ((n + groups - 1) / groups) := by
  have hlt := Nat.lt_div_mul_add (a := n + groups - 1) h
  rw [Nat.mul_comm] at hlt
  omega

theorem mergeKey_eq {L D : Nat} (hL : 0 < L) (outputOf : Dict (ρ → β))
    (hsize : batch.length ≤ D * size) {k : String} {f : ρ → β} (hk : outputOf.get? k = some f) :
    mergeKey ((range (D * L)).map fun r =>
        rowOutput outputOf (gatherRows batch (groupIndices batch.length size (r / L))))
      (D * L) dpRank L k = .ok (batch.map f) := by
  have hobjects : ((range (D * L)).map fun r =>
        rowOutput outputOf (gatherRows batch (groupIndices batch.length size (r / L)))).mapM
        (outputRows k) =
      .ok ((range (D * L)).map fun r => getSlice (batch.map f) (r / L * size) size) := by
    rw [mapM_map]
    apply mapM_eq_ok_map
    intro r _
    show outputRows k _ = _
    unfold outputRows rowOutput groupIndices
    rw [get?_mapVals, hk, gatherRows_getSlice]
    unfold getSlice
    show Except.ok (List.map f _) = _
    rw [map_take, map_drop]
  have hmod : dpRank % L < L := Nat.mod_lt _ hL
  have hpick : gatherRows
        ((range (D * L)).map fun r => getSlice (batch.map f) (r / L * size) size)
        ((range D).map fun j => dpRank % L + j * L) =
      (range D).map fun j => getSlice (batch.map f) (j * size) size := by
    unfold gatherRows
    rw [filterMap_map]
    have hmap : (range D).map (fun j => getSlice (batch.map f) (j * size) size) =
        (range D).filterMap fun j => some (getSlice (batch.map f) (j * size) size) :=
      (congrFun filterMap_eq_map' _).symm
    rw [hmap]
    refine filterMap_congr fun j hj => ?_
    have hj := mul_add_le (mem_range.1 hj) L
    have hdiv : (dpRank % L + j * L) / L = j := by
      rw [Nat.add_mul_div_right _ _ hL, Nat.div_eq_of_lt hmod, Nat.zero_add]
    show ((range (D * L)).map _)[dpRank % L + j * L]? = _
    rw [getElem?_map, getElem?_range (by omega), Option.map_some, hdiv]
  unfold mergeKey
  rw [hobjects, sliceIdxs_stride hmod]
  show Except.ok (gatherRows _ _).flatten = _
  rw [hpick, flatten_getSlice, getSlice_zero]
  rw [length_map]
  exact hsize

theorem dynamicCpMergeOutput_eq {gathered : List (Dict (List β))} {dpSize L : Nat}
    (hL : L ≠ dpSize) {outputOf : Dict (ρ → β)} {rows : List ρ}
    (h : ∀ p ∈ outputOf.items, mergeKey gathered dpSize dpRank L p.1 = .ok (batch.map p.2)) :
    dynamicCpMergeOutput gathered (rowOutput outputOf rows) dpSize dpRank L =
      .ok (rowOutput outputOf batch) := by
  unfold dynamicCpMergeOutput
  rw [if_neg hL]
  have hkeys : (rowOutput outputOf rows).keys = outputOf.items.map Prod.fst :=
    keys_mapVals _ _
  rw [hkeys, foldlM_map, foldlM_eq_ok_foldl _
    (fun (mergedOutput : Dict (List β)) p => mergedOutput.insert p.1 (batch.map p.2)) _ ?_ _]
  · have hfold : (rowOutput outputOf batch).items.foldl (fun d p => d.insert p.1 p.2) Dict.empty =
        rowOutput outputOf batch := ofItems_items _
    have hitems : (rowOutput outputOf batch).items =
        outputOf.items.map fun p => (p.1, batch.map p.2) := rfl
    rw [hitems, foldl_map] at hfold
    exact congrArg Except.ok hfold
  · intro mergedOutput p hp
    rw [h p hp]
    rfl

section Split

variable {seqLen : ρ → Nat} {batch : List ρ} {maxSeqlenPerDpCpRank : Option Int} {dpSize : Nat}

theorem exists_pyMax (hbatch : batch ≠ []) : ∃ m, pyMax (batch.map seqLen) = .ok m := by
  unfold pyMax
  cases hmax : (batch.map seqLen).max? with
  | some m => exact ⟨m, rfl⟩
  | none =>
    rw [max?_eq_none_iff, map_eq_nil_iff] at hmax
    exact absurd hmax hbatch

theorem split_of_lt (hbatch : batch ≠ []) (hlt : batch.length < dpSize) (r : Nat) :
    dynamicCpSplitBatch seqLen batch maxSeqlenPerDpCpRank dpSize r = .ok (batch, none) := by
  obtain ⟨m, hmax⟩ : ∃ m, pyMax (batch.map seqLen) = .ok m := exists_pyMax hbatch
  unfold dynamicCpSplitBatch
  dsimp only
  rw [hmax, ok_bind, length_map, if_pos hlt]
  rfl

theorem split_of_le {maxSeqLen L : Nat} (hmax : pyMax (batch.map seqLen) = .ok maxSeqLen)
    (hL : localCpSizeOf maxSeqLen maxSeqlenPerDpCpRank = .ok L) (hle : L ≤ dpSize)
    (hlen : dpSize ≤ batch.length) (r : Nat) :
    dynamicCpSplitBatch seqLen batch maxSeqlenPerDpCpRank dpSize r =
      (selectLocal batch dpSize r L).map fun rows => (rows, some L) := by
  unfold dynamicCpSplitBatch
  dsimp only
  rw [hmax, ok_bind, length_map, if_neg (Nat.not_lt.2 hlen), hL, ok_bind,
    decide_eq_true hle]
  cases selectLocal batch dpSize r L <;> rfl

theorem groups_of_lt (hbatch : batch ≠ []) (hlt : batch.length < dpSize) :
    Groups seqLen batch maxSeqlenPerDpCpRank dpSize (fun _ => range batch.length) none where
  split r _ := by rw [split_of_lt hbatch hlt, gatherRows_range]
  nonempty r _ := by grind
  one_group i hi := by
    refine ⟨range batch.length, ⟨⟨0, by omega, rfl⟩, mem_range.2 hi⟩, ?_⟩
    rintro group ⟨⟨r, -, rfl⟩, -⟩
    rfl
  once r _ := nodup_range
  lt r _ i hi := mem_range.1 hi
  merge β outputOf r _ := by
    rw [gatherRows_range]
    rfl

theorem groups_of_dvd {maxSeqLen L D : Nat} (hmax : pyMax (batch.map seqLen) = .ok maxSeqLen)
    (hL : localCpSizeOf maxSeqLen maxSeqlenPerDpCpRank = .ok L) (hdp : dpSize = D * L)
    (hD : 0 < D) (hlen : dpSize ≤ batch.length)
    (hfilled : (D - 1) * ((batch.length + D - 1) / D) < batch.length) :
    Groups seqLen batch maxSeqlenPerDpCpRank dpSize
      (fun r => groupIndices batch.length ((batch.length + D - 1) / D) (r / L)) (some L) := by
  have hpos : 0 < L := localCpSizeOf_pos hL
  have hquot : dpSize / L = D := by rw [hdp, Nat.mul_div_cancel _ hpos]
  have hle : L ≤ dpSize := by
    rw [hdp]
    exact Nat.le_mul_of_pos_left L hD
  have hall := le_mul_roundedUp batch.length hD
  have hsize : 0 < (batch.length + D - 1) / D := by grind
  have hgroup : ∀ r < dpSize, r / L < D := fun r hr => by
    rw [Nat.div_lt_iff_lt_mul hpos, ← hdp]
    exact hr
  have hstart : ∀ r < dpSize, r / L * ((batch.length + D - 1) / D) < batch.length := by
    intro r hr
    have hr := hgroup r hr
    exact lt_of_le_of_lt (Nat.mul_le_mul_right _ (by omega)) hfilled
  refine {
    split := ?_
    nonempty := fun r hr => groupIndices_ne_nil hsize (hstart r hr)
    one_group := ?_
    once := fun r _ => nodup_groupIndices _ _ _
    lt := fun r _ i hi => (mem_groupIndices.1 hi).1
    merge := ?_ }
  · intro r hr
    rw [split_of_le hmax hL hle hlen]
    rcases Nat.lt_or_eq_of_le hle with hlt | heq
    · rw [selectLocal_eq batch hlt, hquot, selectRows_groupIndices hsize (hstart r hr)]
      rfl
    · have hone : D = 1 := by
        rw [← hquot, ← heq, Nat.div_self hpos]
      subst hone
      have hzero : r / L = 0 := Nat.lt_one_iff.1 (hgroup r hr)
      unfold selectLocal groupIndices
      rw [if_neg (by omega), hzero, Nat.zero_mul, gatherRows_getSlice, getSlice_zero _ (by omega)]
      rfl
  · intro i hi
    have hgroupOf : i / ((batch.length + D - 1) / D) < D := by
      rw [Nat.div_lt_iff_lt_mul hsize]
      omega
    have hrank : i / ((batch.length + D - 1) / D) * L < dpSize := by
      rw [hdp]
      exact Nat.mul_lt_mul_of_pos_right hgroupOf hpos
    refine ⟨groupIndices batch.length ((batch.length + D - 1) / D)
      (i / ((batch.length + D - 1) / D)), ⟨⟨_, hrank, ?_⟩, ?_⟩, ?_⟩
    · show groupIndices _ _ (_ * L / L) = _
      rw [Nat.mul_div_cancel _ hpos]
    · have hlt := Nat.lt_div_mul_add (a := i) hsize
      exact mem_groupIndices.2 ⟨hi, Nat.div_mul_le_self _ _, hlt⟩
    · rintro group ⟨⟨r, -, rfl⟩, hmem⟩
      show groupIndices _ _ (r / L) = _
      rw [eq_of_mem_groupIndices hmem]
  · intro β outputOf r hr
    show dynamicCpMergeOutput _ _ _ _ _ = _
    by_cases hsame : L = dpSize
    · have hone : D = 1 := by
        rw [← hquot, ← hsame, Nat.div_self hpos]
      subst hone
      have hzero : r / L = 0 := Nat.lt_one_iff.1 (hgroup r hr)
      unfold dynamicCpMergeOutput groupIndices
      rw [if_pos hsame, hzero, Nat.zero_mul, gatherRows_getSlice, getSlice_zero _ (by omega)]
    · apply dynamicCpMergeOutput_eq hsame
      intro p hp
      rw [hdp]
      exact mergeKey_eq hpos outputOf hall (get?_eq_some hp)

theorem not_groups_of_le {maxSeqLen L r : Nat} (hmax : pyMax (batch.map seqLen) = .ok maxSeqLen)
    (hL : localCpSizeOf maxSeqLen maxSeqlenPerDpCpRank = .ok L) (hlt : L < dpSize)
    (hlen : dpSize ≤ batch.length) (hr : r < dpSize)
    (hbehind : batch.length ≤ r / L * ((batch.length + dpSize / L - 1) / (dpSize / L)))
    (indices : Nat → List Nat) (localCpSize : Option Nat) :
    ¬Groups seqLen batch maxSeqlenPerDpCpRank dpSize indices localCpSize := by
  intro h
  have hsplit := h.split r hr
  rw [split_of_le hmax hL hlt.le hlen, selectLocal_eq batch hlt, groupIndices_eq_nil hbehind] at hsplit
  cases hsplit

end Split

/-- The sub-batches are groups of rows that can be merged, unless a rank gets none. -/
theorem groups_iff (seqLen : ρ → Nat) (batch : List ρ) (hbatch : batch ≠ [])
    (maxSeqlenPerDpCpRank : Option Int) (dpSize : Nat) (hdp : 0 < dpSize)
    (hassert : AssertHolds seqLen batch maxSeqlenPerDpCpRank dpSize) :
    (∃ indices localCpSize, Groups seqLen batch maxSeqlenPerDpCpRank dpSize indices localCpSize) ↔
      GroupsFilled seqLen batch maxSeqlenPerDpCpRank dpSize := by
  unfold GroupsFilled
  by_cases hlt : batch.length < dpSize
  · exact ⟨fun _ => .inl hlt, fun _ => ⟨_, _, groups_of_lt hbatch hlt⟩⟩
  have hlen : dpSize ≤ batch.length := Nat.not_lt.1 hlt
  obtain ⟨maxSeqLen, L, hmax, hL, hle⟩ := hassert hlen
  have hpos : 0 < L := localCpSizeOf_pos hL
  constructor
  · rintro ⟨indices, localCpSize, hgroups⟩
    refine .inr ⟨maxSeqLen, L, hmax, hL, ?_⟩
    have hquot : 0 < dpSize / L := Nat.div_pos hle hpos
    have hall := le_mul_roundedUp batch.length hquot
    -- the rank behind the last whole group
    have hdvd : L ∣ dpSize := by
      by_contra hndvd
      have hrank : dpSize / L * L < dpSize :=
        Nat.lt_of_le_of_ne (Nat.div_mul_le_self _ _) fun h => hndvd (Dvd.intro_left _ h)
      have hlt : L < dpSize := Nat.lt_of_le_of_ne hle fun h => hndvd (h ▸ dvd_rfl)
      apply not_groups_of_le hmax hL hlt hlen hrank _ indices localCpSize hgroups
      rwa [Nat.mul_div_cancel _ hpos]
    refine ⟨hdvd, ?_⟩
    -- the first rank of the last group
    by_contra hnot
    have hbehind := Nat.not_lt.1 hnot
    have hmul : dpSize / L * L = dpSize := Nat.div_mul_cancel hdvd
    have hrank : (dpSize / L - 1) * L < dpSize := by
      rw [Nat.sub_mul]
      omega
    have hlt : L < dpSize := by
      apply Nat.lt_of_le_of_ne hle
      rintro rfl
      rw [Nat.div_self hpos, Nat.zero_mul] at hbehind
      exact hbatch (length_eq_zero_iff.1 (Nat.le_zero.1 hbehind))
    apply not_groups_of_le hmax hL hlt hlen hrank _ indices localCpSize hgroups
    rwa [Nat.mul_div_cancel _ hpos]
  · rintro (h | ⟨maxSeqLen', L', hmax', hL', ⟨D, hD⟩, hfilled⟩)
    · exact absurd h hlt
    · have hpos' := localCpSizeOf_pos hL'
      rw [hD, Nat.mul_div_cancel_left _ hpos'] at hfilled
      have hDpos : 0 < D := by grind
      exact ⟨_, _, groups_of_dvd hmax' hL' (hD.trans (Nat.mul_comm _ _)) hDpos hlen hfilled⟩

/-- Five rows of at most 4 tokens for four ranks that take 4 each: two rows for each of the first
two, one for the third, none for the last. -/
theorem not_groups_fiveRows : AssertHolds (fun row : Nat => row) [4, 1, 2, 3, 4] (some 4) 4 ∧
      ¬∃ indices localCpSize, Groups (fun row : Nat => row) [4, 1, 2, 3, 4] (some 4) 4 indices
        localCpSize := by
  have hmax : pyMax ([4, 1, 2, 3, 4].map fun row : Nat => row) = .ok 4 := by decide
  have hL : localCpSizeOf 4 (some 4) = .ok 1 := by decide
  refine ⟨fun _ => ⟨4, 1, hmax, hL, by decide⟩, ?_⟩
  rintro ⟨indices, localCpSize, hgroups⟩
  exact not_groups_of_le hmax hL (r := 3) (by decide) (by decide) (by decide) (by decide) indices
    localCpSize hgroups

/-- Seven rows for the same ranks are enough. -/
theorem groups_iff_sevenRows :
    (∃ indices localCpSize, Groups (fun row : Nat => row) [4, 1, 2, 3, 4, 1, 2] (some 4) 4 indices
      localCpSize) ↔ GroupsFilled (fun row : Nat => row) [4, 1, 2, 3, 4, 1, 2] (some 4) 4 :=
  groups_iff (fun row : Nat => row) [4, 1, 2, 3, 4, 1, 2] (by decide) (some 4) 4 (by decide)
    fun _ => ⟨4, 1, by decide, by decide, by decide⟩

/-! ## The loss of the groups -/

/-- The groups of ranks that receive the same rows. -/
def localGroups (indices : Nat → List Nat) (dpSize : Nat) : List (List Nat) :=
  ((List.range dpSize).map indices).dedup

section LossLemmas

variable {K : Type} [Field K] [LinearOrder K] {w : Nat}

theorem aggLoss_tokenMean (rows : List (LossRow K w)) (dpSize : Nat) (numTokens : K)
    (globalBatchSize lossScaleFactor : Option K) :
    aggLoss rows "token-mean" dpSize (some numTokens) globalBatchSize lossScaleFactor =
      .ok ((tensorDiv (rows.map (rowTerm .tokenMean)).sum numTokens).map (· * (dpSize : K))) := by
  rw [← maskedSum_flatMap]
  rfl

theorem Groups.flatten_perm {seqLen : ρ → Nat} {batch : List ρ} {maxSeqlenPerDpCpRank : Option Int}
    {dpSize : Nat} {indices : Nat → List Nat} {localCpSize : Option Nat}
    (h : Groups seqLen batch maxSeqlenPerDpCpRank dpSize indices localCpSize) :
    (localGroups indices dpSize).flatten.Perm (range batch.length) := by
  have hmem : ∀ group, group ∈ localGroups indices dpSize ↔ ∃ r < dpSize, indices r = group := by
    simp [localGroups, mem_dedup]
  rw [perm_ext_iff_of_nodup _ nodup_range]
  · intro i
    rw [mem_flatten, mem_range]
    constructor
    · rintro ⟨group, hgroup, hi⟩
      obtain ⟨r, hr, rfl⟩ := (hmem group).1 hgroup
      exact h.lt r hr i hi
    · intro hi
      obtain ⟨group, ⟨hgroup, hi⟩, -⟩ := h.one_group i hi
      exact ⟨group, (hmem group).2 hgroup, hi⟩
  · rw [nodup_flatten]
    constructor
    · intro group hgroup
      obtain ⟨r, hr, rfl⟩ := (hmem group).1 hgroup
      exact h.once r hr
    · have hnodup : (localGroups indices dpSize).Nodup := nodup_dedup _
      refine hnodup.pairwise_of_forall_ne ?_
      intro group hgroup group' hgroup' hne i hi hi'
      obtain ⟨r, hr, rfl⟩ := (hmem group).1 hgroup
      obtain ⟨group₀, -, hunique⟩ := h.one_group i (h.lt r hr i hi)
      exact hne ((hunique _ ⟨⟨r, hr, rfl⟩, hi⟩).trans (hunique _ ⟨(hmem _).1 hgroup', hi'⟩).symm)

omit [LinearOrder K] in
theorem batchNumTokens_replicate (batch : List (LossRow K w)) (dpSize : Nat) :
    batchNumTokens (replicate dpSize batch) = dpSize * numTokens batch := by
  unfold batchNumTokens
  rw [map_replicate, sum_replicate, nsmul_eq_mul]

theorem sumGroupLosses_eq [IsStrictOrderedRing K] {seqLen : LossRow K w → Nat}
    {batch : List (LossRow K w)} {maxSeqlenPerDpCpRank : Option Int} {dpSize : Nat}
    (hdp : 0 < dpSize) {indices : Nat → List Nat} {localCpSize : Option Nat}
    (hgroups : Groups seqLen batch maxSeqlenPerDpCpRank dpSize indices localCpSize)
    (globalBatchSize lossScaleFactor : Option K) :
    sumGroupLosses batch dpSize (localGroups indices dpSize) globalBatchSize lossScaleFactor =
      .ok (tensorDiv (batch.map (rowTerm .tokenMean)).sum (dpSize * numTokens batch)) := by
  have hne : localGroups indices dpSize ≠ [] := by
    apply ne_nil_of_mem (a := indices 0)
    unfold localGroups
    simp only [mem_dedup, mem_map, mem_range]
    exact ⟨0, hdp, rfl⟩
  have hrows : ((localGroups indices dpSize).map (gatherRows batch)).flatten.Perm batch := by
    have hperm := hgroups.flatten_perm.filterMap fun i => batch[i]?
    have hflat : gatherRows batch (localGroups indices dpSize).flatten =
        ((localGroups indices dpSize).map (gatherRows batch)).flatten := gatherRows_flatten _ _
    rw [← hflat]
    exact hperm.trans (Perm.of_eq (gatherRows_range batch))
  have hsum := sum_rowTerm .tokenMean _ _ hrows
  rw [map_map] at hsum
  unfold sumGroupLosses
  rw [mapM_eq_ok_map _ _ _ fun part _ => aggLoss_tokenMean _ _ _ _ _, ok_bind,
    batchNumTokens_replicate]
  show Except.ok (numSum ((localGroups indices dpSize).map fun part => (tensorDiv
    ((gatherRows batch part).map (rowTerm .tokenMean)).sum (dpSize * numTokens batch)).map
      (· * ((1 : Nat) : K)))) = _
  rw [Nat.cast_one]
  by_cases htokens : (dpSize : K) * numTokens batch = 0
  · have hnone : ∀ x : K, tensorDiv x 0 = none := fun x => if_pos rfl
    rw [htokens]
    simp only [hnone, Option.map_none, numSum_map_none _ hne]
  · have hsome : ∀ x : K, tensorDiv x (dpSize * numTokens batch) =
        some (x / (dpSize * numTokens batch)) := fun x => if_neg htokens
    simp only [hsome, Option.map_some, mul_one, div_eq_mul_inv]
    rw [numSum_map_some, sum_map_mul_right]
    exact congrArg (fun x => Except.ok (some (x * _))) hsum

/-- The groups together have the loss of the batch for one rank, or without any loss. -/
theorem sumGroupLosses_eq_iff [IsStrictOrderedRing K] (seqLen : LossRow K w → Nat)
    (batch : List (LossRow K w)) (maxSeqlenPerDpCpRank : Option Int) (dpSize : Nat)
    (hdp : 0 < dpSize) (indices : Nat → List Nat) (localCpSize : Option Nat)
    (hgroups : Groups seqLen batch maxSeqlenPerDpCpRank dpSize indices localCpSize)
    (globalBatchSize lossScaleFactor : Option K) :
    sumGroupLosses batch dpSize (localGroups indices dpSize) globalBatchSize lossScaleFactor =
        aggLoss batch "token-mean" 1 (some (numTokens batch)) globalBatchSize lossScaleFactor ↔
      dpSize = 1 ∨ numTokens batch = 0 ∨ (batch.map (rowTerm .tokenMean)).sum = 0 := by
  have hdpK : (dpSize : K) ≠ 0 := Nat.cast_ne_zero.2 hdp.ne'
  rw [sumGroupLosses_eq hdp hgroups, aggLoss_tokenMean, Nat.cast_one]
  unfold tensorDiv
  by_cases htokens : numTokens batch = 0
  · grind
  · have hmul : (dpSize : K) * numTokens batch ≠ 0 := mul_ne_zero hdpK htokens
    have hcast : (dpSize : K) = 1 ↔ dpSize = 1 := Nat.cast_eq_one
    constructor
    · grind
    · grind

end LossLemmas

/-- A row of one token. -/
def tokenRow (loss : ℚ) : LossRow ℚ 1 := { loss := fun _ => loss, mask := fun _ => 1 }

theorem groups_twoRows : Groups (fun _ => 1) [tokenRow 1, tokenRow 1] (some 1) 2
    (fun r => groupIndices 2 1 (r / 1)) (some 1) :=
  groups_of_dvd (D := 2) (show pyMax [1, 1] = .ok 1 by decide) (by decide) rfl (by decide) le_rfl
    (by decide)

/-- Two ranks with a row each: half of the loss. -/
theorem sumGroupLosses_ne_twoRows :
    sumGroupLosses [tokenRow 1, tokenRow 1] 2 (localGroups (fun r => groupIndices 2 1 (r / 1)) 2)
        none none ≠
      aggLoss [tokenRow 1, tokenRow 1] "token-mean" 1 (some (numTokens [tokenRow 1, tokenRow 1]))
        none none := by
  have hterms : ([tokenRow 1, tokenRow 1].map (rowTerm .tokenMean)).sum = 2 := by
    norm_num [rowTerm, maskedEntry, tokenRow]
  have htokens : numTokens [tokenRow 1, tokenRow 1] = 2 := by
    norm_num [numTokens, LossRow.maskSum, tokenRow]
  rw [sumGroupLosses_eq (by decide) groups_twoRows, aggLoss_tokenMean, hterms, htokens]
  norm_num [tensorDiv]

theorem sumGroupLosses_eq_iff_twoRows :
    sumGroupLosses [tokenRow 1, tokenRow 1] 2 (localGroups (fun r => groupIndices 2 1 (r / 1)) 2)
        none none =
      aggLoss [tokenRow 1, tokenRow 1] "token-mean" 1 (some (numTokens [tokenRow 1, tokenRow 1]))
        none none ↔
      2 = 1 ∨ numTokens [tokenRow 1, tokenRow 1] = 0 ∨
        ([tokenRow 1, tokenRow 1].map (rowTerm .tokenMean)).sum = 0 :=
  sumGroupLosses_eq_iff (fun _ => 1) [tokenRow 1, tokenRow 1] (some 1) 2 (by decide) _ _
    groups_twoRows none none

end Verl.DynamicCp
