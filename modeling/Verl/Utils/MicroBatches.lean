import Verl.Protocol.DataProto
import Verl.Utils.SeqlenBalancing

/-!
# Dynamic micro-batches (`verl/utils/seqlen_balancing.py`)

`rearrange_micro_batches` cuts a batch into micro-batches of about equal workload and returns the
row indices of each; `restore_dynamic_batch` undoes it on a result of one row per sample.

    rearrangeMicroBatches batch args = .ok (micro_batches, idxs) →
      idxs.flatten is a permutation of the rows, and
      restoreDynamicBatch (micro_batches.flatMap f) idxs = .ok (f batch)          (f row by row)

With `force_group_size = g` the partitioned items are the groups of `g` consecutive rows, and the
partitions are turned into rows group by group; the later re-sorts move whole partitions only.
-/

namespace Verl

open List

variable {τ ν : Type}

/-! ## Algorithm -/

/-- What is read off a row of a column: its number of entries and their sum. -/
class TokenRow (τ : Type) where
  size : τ → Nat
  total : τ → Nat

instance : TokenRow (List Nat) where
  size := List.length
  total := List.sum

/-- The arguments of `rearrange_micro_batches`.  `dpGroup` holds the counts of all ranks of the
group, `none` when there is no group or no initialised process group. -/
structure MicroBatchArgs where
  maxTokenLen : Int
  dpGroup : Option (List Int) := none
  numBatchesDividedBy : Option Int := none
  sameMicroNumInDp : Bool := true
  minNumMicroBatch : Option Int := none
  useDynamicBszBalance : Bool := true
  forceGroupSize : Nat := 1

def ceildiv (a b : Int) : Except PyErr Int :=
  if b = 0 then .error .zeroDivisionError else .ok (-(Int.fdiv a (-b)))

def roundupDivisible (a b : Int) : Except PyErr Int :=
  if b = 0 then .error .zeroDivisionError else .ok (Int.fdiv (a + b - 1) b * b)

/-- `seq_len_effective` and `max_seq_len`. -/
def seqLenEffective [TokenRow τ] (isNested : Bool) (batch : TensorDict τ) :
    Except PyErr (List Nat × Nat) :=
  match batch.columns.get? "input_ids" with
  | none => .error (.keyError "input_ids")
  | some inputIds =>
    if isNested then
      match (inputIds.map TokenRow.size).max? with
      | none => .error (.valueError "max() iterable argument is empty")
      | some maxSeqLen => .ok (inputIds.map TokenRow.size, maxSeqLen)
    else
      match batch.columns.get? "attention_mask" with
      | none => .error (.keyError "attention_mask")
      | some mask => .ok (mask.map TokenRow.total, (mask.map TokenRow.size).headD 0)

/-- The number of micro-batches. -/
def numMicroBatches (args : MicroBatchArgs) (numGroups totalSeqlen : Nat) : Except PyErr Int := do
  let num := min (numGroups : Int) (← ceildiv totalSeqlen args.maxTokenLen)
  let num :=
    match args.minNumMicroBatch with
    | some minNum => max minNum num
    | none => num
  let num :=
    match args.dpGroup with
    | some counts => if args.sameMicroNumInDp then counts.foldl max num else num
    | none => num
  let num ←
    match args.numBatchesDividedBy with
    | some d => roundupDivisible num d
    | none => Except.ok num
  pyAssert (num ≤ numGroups) ""
  return num

/-- `get_seqlen_balanced_partitions` of a count that may be negative: there is no set to put an
item in. -/
def balancedPartitions (workloads : List Nat) (num : Int) : Except PyErr (List (List Nat)) :=
  if num < 0 then .error .indexError else getSeqlenBalancedPartitions workloads num.toNat false

/-- `workloads.view(num_groups, g).sum(dim=1)`. -/
def groupWorkloads (workloads : List Nat) (g : Nat) : List Nat :=
  (List.range (workloads.length / g)).map fun j => ((workloads.drop (j * g)).take g).sum

/-- The samples of the groups of a partition. -/
def groupSamples (g : Nat) (groupPartition : List Nat) : List Nat :=
  groupPartition.flatMap fun groupIdx => List.range' (groupIdx * g) g

/-- `xs[start::step]`. -/
def pySlice {α : Type} (start step : Nat) (xs : List α) : List α :=
  (xs.zipIdx.filter fun p => decide (start ≤ p.2) && (p.2 - start) % step == 0).map Prod.fst

/-- The key the micro-batches are sorted by: their workload, then their first sample. -/
def balanceKey (workloads : List Nat) (g : Nat) (partition : List Nat) : ℕ ×ₗ ℕ :=
  if 1 < g then
    toLex (((pySlice 0 g partition).map fun idx => workloads.getD (idx / g) 0).sum,
      partition.headD 0)
  else toLex ((partition.map fun idx => workloads.getD idx 0).sum, partition.headD 0)

/-- The sort by workload, with the smaller micro-batches then placed at both ends. -/
def dynamicBszBalance (workloads : List Nat) (g : Nat) (parts : List (List Nat)) :
    List (List Nat) :=
  let sorted := pySortedReverse
    (fun p q => decide (balanceKey workloads g p < balanceKey workloads g q)) parts
  (pySlice 0 2 sorted).reverse ++ pySlice 1 2 sorted

/-- `index_select_tensor_dict`; torch raises for an index out of range. -/
def indexSelectTensorDict (batch : TensorDict τ) (indices : List Nat) : Except PyErr (TensorDict τ) :=
  if indices.all (· < batch.batchSize) then .ok (batch.gather indices) else .error .indexError

def rearrangeMicroBatches [TokenRow τ] (isNested : Bool) (batch : TensorDict τ)
    (args : MicroBatchArgs) : Except PyErr (List (TensorDict τ) × List (List Nat)) := do
  let (seqLens, maxSeqLen) ← seqLenEffective isNested batch
  pyAssert (args.maxTokenLen ≥ maxSeqLen) ("max_token_len must be greater than the sequence length. "
    ++ s!"Got max_token_len={args.maxTokenLen} and max_seq_len={maxSeqLen}")
  let g := args.forceGroupSize
  if g = 0 then throw .zeroDivisionError
  pyAssert (seqLens.length % g == 0)
    s!"Batch size {seqLens.length} must be divisible by force_group_size {g}"
  let num ← numMicroBatches args (seqLens.length / g) seqLens.sum
  let workloads :=
    if 1 < g then groupWorkloads (seqLens.map calculateWorkload) g
    else seqLens.map calculateWorkload
  let parts ← balancedPartitions workloads num
  let microBszIdx := if 1 < g then parts.map (groupSamples g) else parts
  let microBszIdx :=
    if args.useDynamicBszBalance then dynamicBszBalance workloads g microBszIdx else microBszIdx
  let microBatches ← microBszIdx.mapM (indexSelectTensorDict batch)
  return (microBatches, microBszIdx)

def getReverseIdx (idxMap : List Nat) : Except PyErr (List Nat) :=
  idxMap.zipIdx.foldlM (fun reverseIdxMap p =>
    if p.1 < reverseIdxMap.length then .ok (reverseIdxMap.set p.1 p.2) else .error .indexError) idxMap

/-- `DataProto.from_dict` of columns that have a batch size. -/
def DataProto.fromDict (tensors : TensorDict τ) (nonTensors : Dict (List ν))
    (metaInfo : Dict PyVal) : Except PyErr (DataProto τ ν) :=
  DataProto.new (if tensors.columns.items.isEmpty then none else some tensors) nonTensors metaInfo

/-- `prepare_dynamic_batch`; it has no `force_group_size`. -/
def prepareDynamicBatch [TokenRow τ] (isNested : Bool) (data : DataProto τ ν)
    (args : MicroBatchArgs) : Except PyErr (List (DataProto τ ν) × List (List Nat)) := do
  match data.batch with
  | none => throw (.typeError "'NoneType' object is not subscriptable")
  | some td =>
    let (batch, batchIdxList) ← rearrangeMicroBatches isNested td { args with forceGroupSize := 1 }
    let microBatches ← (batch.zip batchIdxList).mapM fun (tensors, batchIdx) =>
      if data.nonTensorBatch.items.all fun c => batchIdx.all (· < c.2.length) then
        DataProto.fromDict tensors
          (data.nonTensorBatch.mapVals fun _ value => gatherRows value batchIdx) data.metaInfo
      else .error .indexError
    return (microBatches, batchIdxList)

/-- `restore_dynamic_batch`, on a tensor of one row per sample. -/
def restoreDynamicBatch {α : Type} (data : List α) (batchIdxList : List (List Nat)) :
    Except PyErr (List α) := do
  let indices := batchIdxList.flatten
  pyAssert (indices.length == data.length) s!"{indices.length} vs. {data.length}"
  let revertIndices ← getReverseIdx indices
  if revertIndices.all (· < data.length) then .ok (gatherRows data revertIndices)
  else .error .indexError

/-! ## Lemmas: reordering micro-batches -/

variable {g n : Nat} {idxs parts : List (List Nat)} {α : Type} {isNested : Bool}

theorem pySlice_append_perm (xs : List α) : (pySlice 0 2 xs ++ pySlice 1 2 xs).Perm xs := by
  unfold pySlice
  have hodd : xs.zipIdx.filter (fun p => decide (1 ≤ p.2) && (p.2 - 1) % 2 == 0)
      = xs.zipIdx.filter fun p => !(decide (0 ≤ p.2) && (p.2 - 0) % 2 == 0) := by grind
  rw [hodd, ← map_append]
  have hperm := (filter_append_perm
    (fun p : α × Nat => decide (0 ≤ p.2) && (p.2 - 0) % 2 == 0) xs.zipIdx).map Prod.fst
  rwa [zipIdx_map_fst] at hperm

theorem dynamicBszBalance_perm (workloads : List Nat) (g : Nat) (parts : List (List Nat)) :
    (dynamicBszBalance workloads g parts).Perm parts := by
  refine ((reverse_perm _).append_right _).trans ?_
  exact (pySlice_append_perm _).trans (pySortedReverse_perm _ _)

theorem groupSamples_append (g : Nat) (xs ys : List Nat) :
    groupSamples g (xs ++ ys) = groupSamples g xs ++ groupSamples g ys :=
  flatMap_append

theorem flatten_map_groupSamples (g : Nat) (parts : List (List Nat)) :
    (parts.map (groupSamples g)).flatten = groupSamples g parts.flatten := by
  induction parts with
  | nil => rfl
  | cons part parts ih =>
    rw [map_cons, flatten_cons, flatten_cons, groupSamples_append, ih]

/-- The samples of a group stand together in the samples of a partition that has the group. -/
theorem range'_infix_groupSamples {j : Nat} {part : List Nat} (h : j ∈ part) :
    range' (j * g) g <:+: groupSamples g part := by
  obtain ⟨before, after, rfl⟩ := append_of_mem h
  refine ⟨groupSamples g before, groupSamples g after, ?_⟩
  rw [groupSamples_append, append_assoc]
  rfl

/-! ## Lemmas: `rearrange_micro_batches` -/

/-- What the index lists are: a partition of the rows into non-empty lists, each group of `g`
consecutive rows together in one of them. -/
structure MicroBatchIdxs (n g : Nat) (idxs : List (List Nat)) : Prop where
  perm : idxs.flatten.Perm (List.range n)
  nonempty : ∀ part ∈ idxs, part ≠ []
  groups : ∀ j, (j + 1) * g ≤ n → ∃ part ∈ idxs, List.range' (j * g) g <:+: part

theorem MicroBatchIdxs.lt (h : MicroBatchIdxs n g idxs) : ∀ part ∈ idxs, ∀ i ∈ part, i < n := by
  intro part hpart i hi
  have : i ∈ idxs.flatten := mem_flatten.2 ⟨part, hpart, hi⟩
  exact mem_range.1 (h.perm.mem_iff.1 this)

theorem MicroBatchIdxs.of_perm {idxs' : List (List Nat)}
    (h : MicroBatchIdxs n g idxs) (hp : idxs'.Perm idxs) : MicroBatchIdxs n g idxs' where
  perm := hp.flatten.trans h.perm
  nonempty := fun part hpart => h.nonempty part (hp.mem_iff.1 hpart)
  groups := by
    intro j hj
    obtain ⟨part, hpart, hin⟩ := h.groups j hj
    exact ⟨part, hp.mem_iff.2 hpart, hin⟩

theorem IsPartition.groupSamples {m : Nat} (h : IsPartition m parts)
    (hg : 0 < g) : MicroBatchIdxs (m * g) g (parts.map (groupSamples g)) where
  perm := by
    rw [flatten_map_groupSamples, ← flatMap_range']
    exact h.perm.flatMap_right _
  nonempty := by
    intro part hpart
    obtain ⟨groups, hgroups, rfl⟩ := mem_map.1 hpart
    have hne := h.nonempty groups hgroups
    cases groups with
    | nil => exact absurd rfl hne
    | cons j groups =>
      intro hnil
      have hlen : (Verl.groupSamples g (j :: groups)).length = 0 := by rw [hnil]; rfl
      unfold Verl.groupSamples at hlen
      rw [flatMap_cons, length_append, length_range'] at hlen
      omega
  groups := by
    intro j hj
    have hjm : j < m := Nat.lt_of_mul_lt_mul_right (a := g) (by rw [Nat.succ_mul] at hj; omega)
    obtain ⟨part, hpart, hin⟩ := (h.mem_iff j).1 hjm
    exact ⟨_, mem_map.2 ⟨part, hpart, rfl⟩, range'_infix_groupSamples hin⟩

theorem IsPartition.microBatchIdxs (h : IsPartition n parts) : MicroBatchIdxs n 1 parts where
  perm := h.perm
  nonempty := h.nonempty
  groups := by
    intro j hj
    obtain ⟨part, hpart, hin⟩ := (h.mem_iff j).1 (by omega)
    refine ⟨part, hpart, ?_⟩
    obtain ⟨before, after, rfl⟩ := append_of_mem hin
    exact ⟨before, after, by simp⟩

theorem length_groupWorkloads (workloads : List Nat) (g : Nat) :
    (groupWorkloads workloads g).length = workloads.length / g := by
  simp [groupWorkloads]

theorem length_seqLenEffective [TokenRow τ] {batch : TensorDict τ}
    {lens : List Nat} {maxLen : Nat} (h : seqLenEffective isNested batch = .ok (lens, maxLen)) :
    lens.length = batch.batchSize ∧ batch.columns.items ≠ [] := by
  unfold seqLenEffective at h
  split at h
  · cases h
  · next inputIds hids =>
    have hmem := Dict.mem_items_of_get? hids
    refine ⟨?_, ne_nil_of_mem hmem⟩
    split at h
    · split at h
      · cases h
      · cases h
        rw [length_map]
        exact batch.rows_eq _ hmem
    · split at h
      · cases h
      · next mask hmask =>
        cases h
        rw [length_map]
        exact batch.rows_eq _ (Dict.mem_items_of_get? hmask)

theorem isPartition_of_balancedPartitions {workloads : List Nat} {num : Int}
    (h : balancedPartitions workloads num = .ok parts) :
    IsPartition workloads.length parts := by
  unfold balancedPartitions at h
  split at h
  · cases h
  · exact (isPartition_of_getSeqlenBalancedPartitions h).2

theorem microBatchIdxs_of_parts {lens : List Nat} {num : Int}
    (hlen : lens.length = n) (hdvd : lens.length % g = 0) (hg : 0 < g)
    (hparts : balancedPartitions (if 1 < g then groupWorkloads (lens.map calculateWorkload) g
      else lens.map calculateWorkload) num = .ok parts) (balance : Bool) :
    MicroBatchIdxs n g
      (if balance then
        dynamicBszBalance (if 1 < g then groupWorkloads (lens.map calculateWorkload) g
          else lens.map calculateWorkload) g (if 1 < g then parts.map (groupSamples g) else parts)
      else if 1 < g then parts.map (groupSamples g) else parts) := by
  have hidxs : MicroBatchIdxs n g (if 1 < g then parts.map (groupSamples g) else parts) := by
    have hpart := isPartition_of_balancedPartitions hparts
    by_cases h1 : 1 < g
    · rw [if_pos h1, length_groupWorkloads, length_map, hlen] at hpart
      rw [if_pos h1]
      have hmul : n / g * g = n := Nat.div_mul_cancel (Nat.dvd_of_mod_eq_zero (hlen ▸ hdvd))
      have := hpart.groupSamples hg
      rwa [hmul] at this
    · rw [if_neg h1, length_map, hlen] at hpart
      rw [show g = 1 by omega]
      exact hpart.microBatchIdxs
  cases balance with
  | false => exact hidxs
  | true => exact hidxs.of_perm (dynamicBszBalance_perm _ _ _)

theorem rearrangeMicroBatches_spec [TokenRow τ] {batch : TensorDict τ}
    {args : MicroBatchArgs} {microBatches : List (TensorDict τ)}
    (h : rearrangeMicroBatches isNested batch args = .ok (microBatches, idxs)) :
    MicroBatchIdxs batch.batchSize args.forceGroupSize idxs ∧
      microBatches = idxs.map batch.gather ∧ batch.columns.items ≠ [] := by
  obtain ⟨⟨lens, maxLen⟩, hlens, h⟩ := bind_eq_ok.1 h
  obtain ⟨hlen, hcols⟩ := length_seqLenEffective hlens
  obtain ⟨-, -, h⟩ := bind_eq_ok.1 h
  dsimp only at h
  by_cases hg : args.forceGroupSize = 0
  · rw [if_pos hg] at h
    cases h
  rw [if_neg hg] at h
  obtain ⟨_, hdvd, h⟩ := bind_eq_ok.1 h
  obtain ⟨num, -, h⟩ := bind_eq_ok.1 h
  obtain ⟨parts, hparts, h⟩ := bind_eq_ok.1 h
  obtain ⟨mbs, hmbs, h⟩ := bind_eq_ok.1 h
  cases h
  have hidxs := microBatchIdxs_of_parts hlen (beq_iff_eq.1 (pyAssert_eq_ok.1 hdvd))
    (Nat.pos_of_ne_zero hg) hparts args.useDynamicBszBalance
  refine ⟨hidxs, ?_, hcols⟩
  have hok := mapM_eq_ok_map (indexSelectTensorDict batch) batch.gather _ fun part hpart => by
    unfold indexSelectTensorDict
    rw [if_pos]
    simpa using hidxs.lt part hpart
  rw [hok] at hmbs
  cases hmbs
  rfl

/-! ## Lemmas: going back -/

theorem foldlM_set (xs : List Nat) (start : Nat) (acc : List Nat) (hnd : xs.Nodup)
    (hlt : ∀ x ∈ xs, x < acc.length) :
    ∃ res, (xs.zipIdx start).foldlM (fun reverseIdxMap p =>
        if p.1 < reverseIdxMap.length then (.ok (reverseIdxMap.set p.1 p.2) : Except PyErr (List Nat))
        else .error .indexError) acc = .ok res ∧
      res.length = acc.length ∧ (∀ i x, xs[i]? = some x → res[x]? = some (start + i)) ∧
      ∀ x, x ∉ xs → res[x]? = acc[x]? := by
  induction xs generalizing start acc with
  | nil => exact ⟨acc, rfl, rfl, by simp, fun _ _ => rfl⟩
  | cons a xs ih =>
    rw [nodup_cons] at hnd
    have ha : a < acc.length := hlt a mem_cons_self
    obtain ⟨res, hres, hlen, hin, hout⟩ := ih (start + 1) (acc.set a start) hnd.2 (by
      intro x hx
      rw [length_set]
      exact hlt x (mem_cons_of_mem _ hx))
    refine ⟨res, ?_, ?_, ?_, ?_⟩
    · rw [zipIdx_cons, foldlM_cons]
      dsimp only
      rw [if_pos ha, ok_bind]
      exact hres
    · rw [hlen, length_set]
    · grind
    · grind

theorem getReverseIdx_spec {idxMap : List Nat} (h : idxMap.Perm (range n)) :
    ∃ rev : List Nat, getReverseIdx idxMap = .ok rev ∧ rev.length = n ∧
      ∀ i x : Nat, idxMap[i]? = some x → rev[x]? = some i := by
  have hlen : idxMap.length = n := by rw [h.length_eq, length_range]
  have hlt : ∀ x ∈ idxMap, x < idxMap.length := by grind
  obtain ⟨rev, hrev, hl, hin, -⟩ :=
    foldlM_set idxMap 0 idxMap (h.nodup_iff.2 nodup_range) hlt
  refine ⟨rev, hrev, hl.trans hlen, ?_⟩
  intro i x hx
  rw [hin i x hx, Nat.zero_add]

theorem restoreDynamicBatch_map (h : idxs.flatten.Perm (range n)) (x : Nat → α) :
    restoreDynamicBatch (idxs.flatten.map x) idxs = .ok ((range n).map x) := by
  obtain ⟨rev, hrev, hlen, hinv⟩ := getReverseIdx_spec h
  have hlenf : idxs.flatten.length = n := by rw [h.length_eq, length_range]
  -- where row `j` was put
  have hat : ∀ j, j < n → ∃ i, idxs.flatten[i]? = some j ∧ rev[j]? = some i := by
    intro j hj
    obtain ⟨i, hi, hij⟩ := getElem_of_mem (h.mem_iff.2 (mem_range.2 hj))
    have hsome : idxs.flatten[i]? = some j := by rw [getElem?_eq_getElem hi, hij]
    exact ⟨i, hsome, hinv i j hsome⟩
  have hrange : ∀ i ∈ rev, i < (idxs.flatten.map x).length := by
    intro i hi
    obtain ⟨j, hj, hji⟩ := getElem_of_mem hi
    obtain ⟨i', hi', hr⟩ := hat j (by omega)
    rw [getElem?_eq_getElem hj, hji] at hr
    cases hr
    rw [length_map]
    exact (List.getElem?_eq_some_iff.1 hi').1
  have hall : rev.all (· < (idxs.flatten.map x).length) = true := by grind
  unfold restoreDynamicBatch
  dsimp only
  rw [show (idxs.flatten.length == (idxs.flatten.map x).length) = true by rw [length_map, beq_self_eq_true],
    pyAssert_true, ok_bind, hrev, ok_bind, if_pos hall]
  congr 1
  apply ext_getElem?
  intro j
  rw [getElem?_gatherRows _ _ hrange]
  by_cases hj : j < n
  · grind
  · grind

/-- A function of one row, on every row. -/
def TensorDict.mapRows {α : Type} (f : List (String × τ) → α) (td : TensorDict τ) : List α :=
  (List.range td.batchSize).map fun i => f (td.row i)

theorem TensorDict.mapRows_gather (f : List (String × τ) → α) (td : TensorDict τ)
    {idxs : List Nat} (h : ∀ i ∈ idxs, i < td.batchSize) :
    (td.gather idxs).mapRows f = idxs.map fun i => f (td.row i) := by
  unfold mapRows
  rw [batchSize_gather h]
  apply ext_getElem
  · simp
  · intro j h1 h2
    rw [getElem_map, getElem_range, getElem_map, td.row_gather idxs h]

theorem flatMap_mapRows_gather (f : List (String × τ) → α) (td : TensorDict τ)
    (h : ∀ part ∈ idxs, ∀ i ∈ part, i < td.batchSize) :
    (idxs.map td.gather).flatMap (TensorDict.mapRows f)
      = idxs.flatten.map fun i => f (td.row i) := by
  rw [flatMap_map, map_flatten]
  exact flatMap_congr fun part hpart => td.mapRows_gather f (h part hpart)

/-! ## Lemmas: `prepare_dynamic_batch` -/

theorem DataProto.wellFormed_of_checkConsistency {d : DataProto τ ν} {td : TensorDict τ}
    (hb : d.batch = some td) (h : d.checkConsistency = .ok ()) : d.WellFormed := by
  unfold checkConsistency at h
  rw [hb] at h
  intro c hc
  rw [len_of_batch hb]
  exact beq_iff_eq.1 (pyAssert_eq_ok.1 (forM_eq_ok_iff.1 h c hc))

theorem fromDict_gather {data : DataProto τ ν} {td : TensorDict τ} (hwf : data.WellFormed)
    (hb : data.batch = some td) (hcols : td.columns.items ≠ []) {part : List Nat}
    (h : ∀ i ∈ part, i < data.len) :
    (if data.nonTensorBatch.items.all fun c => part.all (· < c.2.length) then
        DataProto.fromDict (td.gather part)
          (data.nonTensorBatch.mapVals fun _ value => gatherRows value part) data.metaInfo
      else .error .indexError) = .ok (data.gather part) := by
  have hin : data.nonTensorBatch.items.all (fun c => part.all (· < c.2.length)) = true := by
    simp only [all_eq_true, decide_eq_true_eq]
    intro c hc i hi
    rw [hwf c hc]
    exact h i hi
  have hne : (td.gather part).columns.items.isEmpty = false := by
    rw [isEmpty_eq_false_iff, TensorDict.columns_gather, Dict.items_mapVals, Ne, map_eq_nil_iff]
    exact hcols
  have hbatch : some (td.gather part) = (data.gather part).batch := by
    simp [DataProto.gather, hb]
  rw [if_pos hin, DataProto.fromDict, hne, hbatch]
  exact DataProto.new_gather hwf (DataProto.inBatch_of_lt h) data.metaInfo

theorem prepareDynamicBatch_spec [TokenRow τ] {data : DataProto τ ν} {args : MicroBatchArgs}
    {microBatches : List (DataProto τ ν)} (hd : data.checkConsistency = .ok ())
    (h : prepareDynamicBatch isNested data args = .ok (microBatches, idxs)) :
    data.WellFormed ∧ MicroBatchIdxs data.len 1 idxs ∧ microBatches = idxs.map data.gather := by
  unfold prepareDynamicBatch at h
  split at h
  · cases h
  · next td hb =>
    have hwf := data.wellFormed_of_checkConsistency hb hd
    obtain ⟨⟨batch, batchIdxList⟩, hre, h⟩ := bind_eq_ok.1 h
    obtain ⟨mbs, hmbs, h⟩ := bind_eq_ok.1 h
    cases h
    obtain ⟨hidxs, rfl, hcols⟩ := rearrangeMicroBatches_spec hre
    rw [← DataProto.len_of_batch hb] at hidxs
    refine ⟨hwf, hidxs, ?_⟩
    have hok := mapM_eq_ok_map (fun p : TensorDict τ × List Nat =>
      if data.nonTensorBatch.items.all fun c => p.2.all (· < c.2.length) then
        DataProto.fromDict p.1
          (data.nonTensorBatch.mapVals fun _ value => gatherRows value p.2) data.metaInfo
      else .error .indexError) (fun p => data.gather p.2)
      ((idxs.map td.gather).zip idxs) (by
        intro p hp
        rw [← map_prod_right_eq_zip] at hp
        obtain ⟨part, hpart, rfl⟩ := mem_map.1 hp
        exact fromDict_gather hwf hb hcols (hidxs.lt part hpart))
    rw [← map_prod_right_eq_zip, map_map] at hok
    rw [← map_prod_right_eq_zip] at hmbs
    exact Except.ok.inj (hmbs.symm.trans hok)

theorem flatMap_map_rows_gather (f : Row τ ν → α) {d : DataProto τ ν} (hwf : d.WellFormed)
    (h : ∀ part ∈ idxs, ∀ i ∈ part, i < d.len) :
    (idxs.map d.gather).flatMap (fun mb => mb.rows.map f)
      = idxs.flatten.map fun i => f (d.row i) := by
  rw [flatMap_map, map_flatten]
  refine flatMap_congr fun part hpart => ?_
  rw [DataProto.rows_gather hwf (h part hpart), map_map]
  rfl

/-! ## Top theorem -/

/-- Whenever `rearrange_micro_batches` or `prepare_dynamic_batch` returns, its index lists are a
partition of the rows that keeps every group of consecutive rows together, the reverse index
inverts them, and restoring the results of a row-wise function over the micro-batches gives its
results over the batch. -/
theorem dynamicBatch_restore [TokenRow τ] (isNested : Bool) (args : MicroBatchArgs) :
    (∀ (batch : TensorDict τ) (microBatches : List (TensorDict τ)) (idxs : List (List Nat)),
      rearrangeMicroBatches isNested batch args = .ok (microBatches, idxs) →
      MicroBatchIdxs batch.batchSize args.forceGroupSize idxs ∧
      (∃ rev : List Nat, getReverseIdx idxs.flatten = .ok rev ∧ rev.length = batch.batchSize ∧
        ∀ i x : Nat, idxs.flatten[i]? = some x → rev[x]? = some i) ∧
      ∀ (α : Type) (f : List (String × τ) → α),
        restoreDynamicBatch (microBatches.flatMap (TensorDict.mapRows f)) idxs
          = .ok (batch.mapRows f)) ∧
    (∀ (data : DataProto τ ν) (microBatches : List (DataProto τ ν)) (idxs : List (List Nat)),
      data.checkConsistency = .ok () →
      prepareDynamicBatch isNested data args = .ok (microBatches, idxs) →
      MicroBatchIdxs data.len 1 idxs ∧
      (∃ rev : List Nat, getReverseIdx idxs.flatten = .ok rev ∧ rev.length = data.len ∧
        ∀ i x : Nat, idxs.flatten[i]? = some x → rev[x]? = some i) ∧
      ∀ (α : Type) (f : Row τ ν → α),
        restoreDynamicBatch (microBatches.flatMap fun mb => mb.rows.map f) idxs
          = .ok (data.rows.map f)) := by
  constructor
  · intro batch microBatches idxs h
    obtain ⟨hidxs, rfl, -⟩ := rearrangeMicroBatches_spec h
    refine ⟨hidxs, getReverseIdx_spec hidxs.perm, ?_⟩
    intro α f
    rw [flatMap_mapRows_gather f batch hidxs.lt]
    exact restoreDynamicBatch_map hidxs.perm fun i => f (batch.row i)
  · intro data microBatches idxs hd h
    obtain ⟨hwf, hidxs, rfl⟩ := prepareDynamicBatch_spec hd h
    refine ⟨hidxs, getReverseIdx_spec hidxs.perm, ?_⟩
    intro α f
    rw [flatMap_map_rows_gather f hwf hidxs.lt, restoreDynamicBatch_map hidxs.perm,
      DataProto.rows, map_map]
    rfl

/-- Four rows of three tokens, with their masks. -/
def sampleTensors : TensorDict (List Nat) where
  batchSize := 4
  columns := Dict.ofItems [("input_ids", [[5, 6, 0], [7, 0, 0], [8, 9, 3], [4, 1, 0]]),
    ("attention_mask", [[1, 1, 0], [1, 0, 0], [1, 1, 1], [1, 1, 0]])]
  rows_eq := by decide

def sampleData : DataProto (List Nat) Nat where
  batch := some sampleTensors
  nonTensorBatch := Dict.ofItems [("uid", [3, 1, 4, 1])]
  metaInfo := Dict.empty

theorem dynamicBatch_restore_pairs : (MicroBatchIdxs 4 2 [[2, 3], [0, 1]] ∧
      ∀ f : List (String × List Nat) → Nat,
        restoreDynamicBatch (([[2, 3], [0, 1]].map sampleTensors.gather).flatMap
          (TensorDict.mapRows f)) [[2, 3], [0, 1]] = .ok (sampleTensors.mapRows f)) ∧
    (MicroBatchIdxs 4 1 [[1, 2], [0, 3]] ∧
      ∀ f : Row (List Nat) Nat → Nat,
        restoreDynamicBatch (([[1, 2], [0, 3]].map sampleData.gather).flatMap
          fun mb => mb.rows.map f) [[1, 2], [0, 3]] = .ok (sampleData.rows.map f)) := by
  have hboth := dynamicBatch_restore (τ := List Nat) (ν := Nat) false
    { maxTokenLen := 5, forceGroupSize := 2 }
  obtain ⟨hidxs, -, hf⟩ := hboth.1 sampleTensors _ [[2, 3], [0, 1]] rfl
  obtain ⟨hidxs', -, hf'⟩ := hboth.2 sampleData _ [[1, 2], [0, 3]] rfl rfl
  exact ⟨⟨hidxs, hf Nat⟩, hidxs', hf' Nat⟩

end Verl
