import Verl.Lib.Interleave
import Verl.Protocol.Chunks
import Verl.Utils.GroupBalanced

/-!
# Balancing a batch over the dp ranks (`_balance_batch` of `verl/trainer/ppo/ray_trainer.py`)

The batch is reordered so that the equal split over the dp ranks gives every rank about the same
work.  One of three partitions is taken, one list of rows for each rank:

    use_prefix_grouper and uids    whole uid groups                  (getGroupBalancedPartitions)
    keep_minibatch                 every mini-batch on its own       (minibatchPartitions)
    otherwise                      the whole batch                   (getSeqlenBalancedPartitions)

Without `use_prefix_grouper` the rows of each rank are then put in the order of `pipelineOrder`,
which looks at their workloads only:

    workloads    1 2 3 4 5 6     →     1 3 5 6 4 2 -/

namespace Verl

open List

variable {τ ν : Type}

/-! ## Algorithm -/

/-- `xs[::2]`. -/
def everySecond {α : Type} : List α → List α
  | [] => []
  | [x] => [x]
  | x :: _ :: xs => x :: everySecond xs

/-- Smaller micro-batches at both ends: `partition.sort(key=lambda x: (workload_lst[x], x))`, then
`partition[::2] + partition[1::2][::-1]`. -/
def pipelineOrder (workloadLst partition : List Nat) : List Nat :=
  let partition := pySorted (fun x y =>
    decide (toLex (workloadLst.getD x 0, x) < toLex (workloadLst.getD y 0, y))) partition
  everySecond partition ++ (everySecond partition.tail).reverse

/-- Mini-batch `i` is partitioned, and every rank gets one part of it. -/
def extendMinibatch (workloadLst : List Nat) (minibatchSize dpSize : Nat)
    (globalPartitionLst : List (List Nat)) (i : Nat) : Except PyErr (List (List Nat)) := do
  let rearrangeMinibatchLst ← getSeqlenBalancedPartitions
    (getSlice workloadLst (i * minibatchSize) minibatchSize) dpSize true
  return List.zipWith (fun partition part => partition ++ part.map (· + minibatchSize * i))
    globalPartitionLst rearrangeMinibatchLst

/-- The partition of `keep_minibatch`. -/
def minibatchPartitions (workloadLst : List Nat) (minibatchSize dpSize : Nat) :
    Except PyErr (List (List Nat)) := do
  let minibatchNum ← floorDiv workloadLst.length minibatchSize
  (List.range minibatchNum).foldlM (extendMinibatch workloadLst minibatchSize dpSize)
    (List.replicate dpSize [])

/-- The partition of `use_prefix_grouper`. -/
def prefixGrouperPartitions [DecidableEq ν] (globalSeqlenLst : List Nat) (uidList : List ν)
    (dpSize : Nat) : Except PyErr (List (List Nat)) :=
  let numGroups := uidList.dedup.length
  if numGroups % dpSize ≠ 0 then
    .error (.valueError (s!"PrefixGrouper with balance_batch requires num_uid_groups ({numGroups}) " ++
      s!"% dp_size ({dpSize}) == 0. This ensures each rank gets equal number of groups. " ++
      s!"Current batch_size={globalSeqlenLst.length}, adjust batch_size to be a multiple of " ++
      "dp_size * rollout.n."))
  else getGroupBalancedPartitions globalSeqlenLst uidList dpSize

/-- The configuration `_balance_batch` reads. -/
structure BalanceConfig where
  usePrefixGrouper : Bool
  ppoMiniBatchSize : Nat

/-- `global_partition_lst`: the rows of each rank, in their order. -/
def globalPartitionLst [DecidableEq ν] (cfg : BalanceConfig) (dpSize : Nat) (keepMinibatch : Bool)
    (globalSeqlenLst : List Nat) (uidList : Option (List ν)) : Except PyErr (List (List Nat)) := do
  let workloadLst := globalSeqlenLst.map calculateWorkload
  let partitions ←
    match cfg.usePrefixGrouper, uidList with
    | true, some uidList => prefixGrouperPartitions globalSeqlenLst uidList dpSize
    | _, _ =>
      if keepMinibatch then minibatchPartitions workloadLst cfg.ppoMiniBatchSize dpSize
      else getSeqlenBalancedPartitions workloadLst dpSize true
  return if cfg.usePrefixGrouper then partitions else partitions.map (pipelineOrder workloadLst)

/-- `_get_dp_size`. -/
def getDpSize (dpRankMapping : List Nat) : Except PyErr Nat :=
  match dpRankMapping.max? with
  | none => .error (.valueError "max() arg is an empty sequence")
  | some rank => .ok (rank + 1)

/-- `batch.batch["attention_mask"].view(batch_size, -1).sum(-1)`, with the sum of a row of the mask
given; torch does not take `-1` for a batch without rows. -/
def globalSeqlens (rowSum : τ → Nat) (batch : DataProto τ ν) : Except PyErr (List Nat) :=
  match batch.batch with
  | none => .error (.typeError "'NoneType' object is not subscriptable")
  | some td =>
    match td.columns.get? "attention_mask" with
    | none => .error (.keyError "attention_mask")
    | some rows =>
      if rows.length = 0 then .error (.runtimeError "cannot reshape tensor of 0 elements")
      else .ok (rows.map rowSum)

/-- `_balance_batch`: `global_idx`, and what `batch` is afterwards. -/
def balanceBatch [DecidableEq ν] (rowSum : τ → Nat) (cfg : BalanceConfig)
    (dpRankMapping : List Nat) (keepMinibatch : Bool) (batch : DataProto τ ν) :
    Except PyErr (List Nat × DataProto τ ν) := do
  let globalSeqlenLst ← globalSeqlens rowSum batch
  let dpSize ← getDpSize dpRankMapping
  let partitions ← globalPartitionLst cfg dpSize keepMinibatch globalSeqlenLst
    (batch.nonTensorBatch.get? "uid")
  let globalIdx := partitions.flatten
  let batch ← batch.reorder (.ints (globalIdx.map Int.ofNat))
  return (globalIdx, batch)

/-! ## Property -/

/-- The rows a rank gets of the reordered batch. -/
def rankRows (globalIdx : List Nat) (dpSize rank : Nat) : List Nat :=
  getSlice globalIdx (rank * (globalIdx.length / dpSize)) (globalIdx.length / dpSize)

/-- The batch has its rows in another order, and `chunk` cuts it into the rows of the ranks. -/
structure Reordered (dpSize : Nat) (batch : DataProto τ ν) (r : List Nat × DataProto τ ν) : Prop
    where
  perm : r.1.Perm (List.range batch.len)
  reordered : r.2 = batch.gather r.1
  split : ∀ autoPadding, r.2.chunk autoPadding dpSize
    = .ok ((List.range dpSize).map fun rank => batch.gather (rankRows r.1 dpSize rank))

/-- The `i`-th slice of every rank is of the `i`-th mini-batch of the batch as it was. -/
def KeepsMinibatches (minibatchSize dpSize : Nat) (globalIdx : List Nat) : Prop :=
  ∀ rank < dpSize, ∀ i < globalIdx.length / minibatchSize,
    ∀ row ∈ getSlice (rankRows globalIdx dpSize rank) (i * (minibatchSize / dpSize))
      (minibatchSize / dpSize), row / minibatchSize = i

/-- Every rank has whole groups of rows with one uid, each in one stretch and in its order. -/
def KeepsUidGroups [DecidableEq ν] (uidList : List ν) (dpSize : Nat) (globalIdx : List Nat) : Prop :=
  ∀ rank < dpSize, ∀ row ∈ rankRows globalIdx dpSize rank,
    ((List.range uidList.length).filter fun other => uidList[other]? = uidList[row]?)
      <:+: rankRows globalIdx dpSize rank

/-- Where the row at place `p` of the pipeline order stands among the `n` sorted rows. -/
def pipelinePlace (n p : Nat) : Nat := if 2 * p < n then 2 * p else 2 * (n - 1 - p) + 1

/-- The rows in the order of their workloads. -/
def byWorkload (workloadLst partition : List Nat) : List Nat :=
  pySorted (fun x y =>
    decide (toLex (workloadLst.getD x 0, x) < toLex (workloadLst.getD y 0, y))) partition

/-- The rows of every rank by their workloads, read in the pipeline order, are the mini-batches one
after the other. -/
def WorkloadsFollowMinibatches (minibatchSize dpSize : Nat) (workloadLst : List Nat) : Prop :=
  ∀ shares, minibatchPartitions workloadLst minibatchSize dpSize = .ok shares →
    ∀ share ∈ shares, ∀ p < share.length, ∀ row,
      (byWorkload workloadLst share)[pipelinePlace share.length p]? = some row →
        row / minibatchSize = p / (minibatchSize / dpSize)

/-! ## Lemmas: the pipeline order -/

section Pipeline

variable {α : Type}

theorem everySecond_cons (x : α) (xs : List α) :
    everySecond (x :: xs) = x :: everySecond xs.tail := by
  cases xs <;> rfl

theorem everySecond_perm (xs : List α) : (everySecond xs ++ everySecond xs.tail).Perm xs := by
  induction xs with
  | nil => exact .refl _
  | cons x xs ih =>
    rw [everySecond_cons]
    exact (perm_append_comm.trans ih).cons x

theorem length_everySecond (xs : List α) : (everySecond xs).length = (xs.length + 1) / 2 := by
  induction xs using everySecond.induct with
  | case1 => simp [everySecond]
  | case2 x => simp [everySecond]
  | case3 x y xs ih =>
    rw [everySecond, length_cons, length_cons, length_cons]
    omega

theorem getElem?_everySecond (xs : List α) (i : Nat) : (everySecond xs)[i]? = xs[2 * i]? := by
  induction xs using everySecond.induct generalizing i with
  | case1 => rfl
  | case2 x =>
    cases i with
    | zero => rfl
    | succ i => rfl
  | case3 x y xs ih =>
    rw [everySecond]
    cases i with
    | zero => rfl
    | succ i =>
      rw [getElem?_cons_succ, ih, show 2 * (i + 1) = 2 * i + 1 + 1 by omega,
        getElem?_cons_succ, getElem?_cons_succ]

end Pipeline

variable (workloadLst partition : List Nat)

theorem byWorkload_perm :
    (byWorkload workloadLst partition).Perm partition := pySorted_perm _ _

theorem pipelineOrder_perm :
    (pipelineOrder workloadLst partition).Perm partition :=
  (((reverse_perm _).append_left _).trans (everySecond_perm _)).trans
    (byWorkload_perm workloadLst partition)

theorem getElem?_pipelineOrder {p : Nat} (hp : p < partition.length) :
    (pipelineOrder workloadLst partition)[p]?
      = (byWorkload workloadLst partition)[pipelinePlace partition.length p]? := by
  have hlen : (byWorkload workloadLst partition).length = partition.length :=
    (byWorkload_perm workloadLst partition).length_eq
  show (everySecond (byWorkload workloadLst partition)
    ++ (everySecond (byWorkload workloadLst partition).tail).reverse)[p]? = _
  unfold pipelinePlace
  by_cases hfirst : 2 * p < partition.length
  · rw [if_pos hfirst, getElem?_append_left (by rw [length_everySecond]; omega),
      getElem?_everySecond]
  · rw [if_neg hfirst, getElem?_append_right (by rw [length_everySecond]; omega)]
    rw [getElem?_reverse (by
        rw [length_everySecond, length_everySecond, length_tail]
        omega), getElem?_everySecond, getElem?_tail, length_everySecond, length_everySecond,
      length_tail]
    congr 1
    omega

/-! ## Lemmas: the mini-batches -/

/-- What the partition of the first `b` mini-batches is: every rank has `q` rows of each, in
order. -/
structure SharesMinibatches (m q dp b : Nat) (shares : List (List Nat)) : Prop where
  length : shares.length = dp
  perm : shares.flatten.Perm (List.range (b * m))
  size : ∀ share ∈ shares, share.length = b * q
  slice : ∀ share ∈ shares, ∀ p row, share[p]? = some row → row / m = p / q

theorem flatten_zipWith_append_perm {xs ys : List (List Nat)} (h : xs.length = ys.length) :
    (zipWith (· ++ ·) xs ys).flatten.Perm (xs.flatten ++ ys.flatten) := by
  induction xs generalizing ys with
  | nil =>
    cases ys with
    | nil => exact .refl _
    | cons y ys => cases h
  | cons x xs ih =>
    cases ys with
    | nil => cases h
    | cons y ys =>
      rw [zipWith_cons_cons, flatten_cons, flatten_cons, flatten_cons,
        append_assoc, append_assoc]
      refine Perm.append_left x (((ih (Nat.succ.inj h)).append_left y).trans ?_)
      rw [← append_assoc, ← append_assoc]
      exact perm_append_comm.append_right _

section Minibatches

variable {workloadLst : List Nat} {m dp : Nat}

theorem sharesMinibatches_extend (hm : 1 ≤ m) (hdvd : dp ∣ m) {b : Nat}
    (hb : (b + 1) * m ≤ workloadLst.length) {shares : List (List Nat)}
    (h : SharesMinibatches m (m / dp) dp b shares) :
    ∃ shares', extendMinibatch workloadLst m dp shares b = .ok shares' ∧
      SharesMinibatches m (m / dp) dp (b + 1) shares' := by
  have hdp : 1 ≤ dp := Nat.pos_of_dvd_of_pos hdvd hm
  have hq : 1 ≤ m / dp := Nat.div_pos (Nat.le_of_dvd hm hdvd) hdp
  have hslice : (getSlice workloadLst (b * m) m).length = m :=
    length_getSlice (by rw [Nat.succ_mul] at hb; exact hb)
  obtain ⟨parts, hok, hlen, hpartition, hsize⟩ := getSeqlenBalancedPartitions_spec
    (getSlice workloadLst (b * m) m) dp true hdp (by rw [hslice]; exact Nat.le_of_dvd hm hdvd)
    (fun _ => by rw [hslice]; exact hdvd)
  rw [hslice] at hpartition hsize
  have hlt : ∀ part ∈ parts, ∀ x ∈ part, x < m := fun part hpart x hx =>
    (hpartition.mem_iff x).2 ⟨part, hpart, hx⟩
  have hzip : zipWith (fun partition part => partition ++ part.map (· + m * b)) shares parts
      = zipWith (· ++ ·) shares (parts.map fun part => part.map (· + m * b)) := by
    rw [zipWith_map_right]
  have hnew : ∀ share' ∈ zipWith (fun partition part => partition ++ part.map (· + m * b))
      shares parts, ∃ share ∈ shares, ∃ part ∈ parts, share' = share ++ part.map (· + m * b) := by
    intro share' hshare'
    obtain ⟨i, hi, rfl⟩ := getElem_of_mem hshare'
    rw [length_zipWith] at hi
    exact ⟨shares[i], getElem_mem (by omega), parts[i], getElem_mem (by omega),
      getElem_zipWith ..⟩
  refine ⟨zipWith (fun partition part => partition ++ part.map (· + m * b)) shares parts,
    ?_, ?_⟩
  · unfold extendMinibatch
    rw [hok]
    rfl
  · constructor
    · rw [length_zipWith, h.length, hlen, Nat.min_self]
    · rw [hzip]
      refine (flatten_zipWith_append_perm (by rw [length_map, h.length, hlen])).trans ?_
      have hmore : (parts.map fun part => part.map (· + m * b)).flatten.Perm
          (range' (b * m) m) := by
        rw [← map_flatten]
        refine (hpartition.perm.map _).trans ?_
        rw [range'_eq_map_range, show (fun x => x + m * b) = (fun x => b * m + x) by
          funext x
          rw [Nat.mul_comm, Nat.add_comm]]
      rw [Nat.succ_mul, range_eq_range', ← range'_append_1, Nat.zero_add,
        ← range_eq_range']
      exact h.perm.append hmore
    · intro share' hshare'
      obtain ⟨share, hshare, part, hpart, rfl⟩ := hnew share' hshare'
      rw [length_append, length_map, h.size share hshare, hsize rfl part hpart,
        Nat.succ_mul]
    · intro share' hshare' p row hrow
      obtain ⟨share, hshare, part, hpart, rfl⟩ := hnew share' hshare'
      by_cases hp : p < share.length
      · rw [getElem?_append_left hp] at hrow
        exact h.slice share hshare p row hrow
      · rw [getElem?_append_right (by omega), getElem?_map, Option.map_eq_some_iff] at hrow
        obtain ⟨x, hx, rfl⟩ := hrow
        have hxlt := hlt part hpart x (mem_of_getElem? hx)
        have hplt : p - share.length < part.length := (List.getElem?_eq_some_iff.1 hx).1
        rw [hsize rfl part hpart] at hplt
        rw [h.size share hshare] at hp hplt
        rw [Nat.add_mul_div_left _ _ hm, Nat.div_eq_of_lt hxlt, Nat.zero_add]
        exact (Nat.div_eq_of_lt_le (by omega) (by rw [Nat.succ_mul]; omega)).symm

theorem minibatchPartitions_spec (workloadLst : List Nat) (hm : 1 ≤ m) (hdvd : dp ∣ m) :
    ∃ shares, minibatchPartitions workloadLst m dp = .ok shares ∧
      SharesMinibatches m (m / dp) dp (workloadLst.length / m) shares := by
  have hrun : ∀ b, b * m ≤ workloadLst.length → ∃ shares,
      (range b).foldlM (extendMinibatch workloadLst m dp) (replicate dp []) = .ok shares ∧
        SharesMinibatches m (m / dp) dp b shares := by
    intro b
    induction b with
    | zero =>
      intro _
      refine ⟨replicate dp [], rfl, length_replicate, ?_, ?_, ?_⟩
      · simp
      · simp
      · simp
    | succ b ih =>
      intro hb
      obtain ⟨shares, hok, hshares⟩ := ih (by rw [Nat.succ_mul] at hb; omega)
      obtain ⟨shares', hok', hshares'⟩ := sharesMinibatches_extend hm hdvd hb hshares
      refine ⟨shares', ?_, hshares'⟩
      rw [range_succ, foldlM_append, hok, ok_bind, foldlM_cons, hok']
      rfl
  obtain ⟨shares, hok, hshares⟩ := hrun _ (Nat.div_mul_le_self _ _)
  refine ⟨shares, ?_, hshares⟩
  unfold minibatchPartitions
  rw [floorDiv_of_pos _ hm, ok_bind, hok]

end Minibatches

/-! ## Lemmas: the split over the ranks -/

/-- Lists of one size, one for each rank: the rank gets its list. -/
theorem rankRows_flatten {lst : List (List Nat)} {size : Nat} (hsize : ∀ part ∈ lst, part.length = size)
    {rank : Nat} (hrank : rank < lst.length) :
    rankRows lst.flatten lst.length rank = lst[rank] := by
  have hmap : lst = (range lst.length).map fun i => lst.getD i [] :=
    (map_getD_range lst []).symm
  have hpiece : ∀ i < lst.length, (lst.getD i []).length = size := by grind
  have hlen : lst.flatten.length = lst.length * size := by
    conv => lhs; rw [hmap]
    exact length_flatten_map_range hpiece
  have hdiv : lst.flatten.length / lst.length = size := by
    rw [hlen, Nat.mul_div_cancel_left _ (by omega)]
  have hslice := getSlice_flatten_map_range hpiece hrank
  rw [← hmap] at hslice
  unfold rankRows
  rw [hdiv, hslice, getD_eq_getElem?_getD, getElem?_eq_getElem hrank, Option.getD_some]

theorem keepsMinibatches_flatten_iff {m dp : Nat} (hm : 1 ≤ m) (hdvd : dp ∣ m)
    {lst : List (List Nat)} (hlen : lst.length = dp) {b : Nat}
    (hsize : ∀ part ∈ lst, part.length = b * (m / dp)) :
    KeepsMinibatches m dp lst.flatten ↔
      ∀ part ∈ lst, ∀ p row, part[p]? = some row → row / m = p / (m / dp) := by
  subst hlen
  have hdp : 1 ≤ lst.length := Nat.pos_of_dvd_of_pos hdvd hm
  have hq : 1 ≤ m / lst.length := Nat.div_pos (Nat.le_of_dvd hm hdvd) hdp
  have htotal : lst.flatten.length / m = b := by
    have hmap : lst.map length = replicate lst.length (b * (m / lst.length)) := by
      rw [map_congr_left (g := fun _ => b * (m / lst.length)) hsize, map_const']
    rw [length_flatten, hmap, sum_replicate_nat, Nat.mul_left_comm,
      Nat.mul_div_cancel' hdvd, Nat.mul_div_cancel _ hm]
  unfold KeepsMinibatches
  rw [htotal]
  constructor
  · intro h part hpart p row hrow
    obtain ⟨rank, hrank, rfl⟩ := getElem_of_mem hpart
    have hp : p < b * (m / lst.length) := by grind
    have hi : p / (m / lst.length) < b := (Nat.div_lt_iff_lt_mul hq).2 hp
    refine h rank hrank _ hi row ?_
    rw [rankRows_flatten hsize hrank]
    have hmod := Nat.div_add_mod' p (m / lst.length)
    refine mem_of_getElem? (i := p % (m / lst.length)) ?_
    rw [getElem?_getSlice _ _ (Nat.mod_lt _ hq), hmod]
    exact hrow
  · intro h rank hrank i hi row hrow
    rw [rankRows_flatten hsize hrank] at hrow
    obtain ⟨t, ht⟩ := getElem?_of_mem hrow
    have htlt : t < m / lst.length := by
      have := (List.getElem?_eq_some_iff.1 ht).1
      exact Nat.lt_of_lt_of_le this (length_take_le _ _)
    rw [getElem?_getSlice _ _ htlt] at ht
    rw [h _ (getElem_mem hrank) _ _ ht]
    exact Nat.div_eq_of_lt_le (Nat.le_add_right _ _) (by rw [Nat.succ_mul]; omega)

theorem mapM_pyIndex {n : Nat} {order : List Nat} (h : ∀ i ∈ order, i < n) :
    (order.map Int.ofNat).mapM (pyIndex n) = .ok order := by
  rw [mapM_map]
  have hidx := mapM_eq_ok_map (pyIndex n ∘ Int.ofNat) id order fun i hi => by
    have hlt := h i hi
    rw [Function.comp_apply, pyIndex, if_pos ⟨Int.natCast_nonneg i, Int.ofNat_lt.2 hlt⟩]
    rfl
  rwa [map_id] at hidx

/-- Reordering by a permutation, and the equal split of what comes out. -/
theorem reordered_of_perm {batch : DataProto τ ν} (hwf : batch.WellFormed) {td : TensorDict τ}
    (hb : batch.batch = some td) {dp : Nat} (hdp : 1 ≤ dp) (hdvd : dp ∣ batch.len)
    (hn : 1 ≤ batch.len) {order : List Nat} (hperm : order.Perm (range batch.len)) :
    batch.reorder (.ints (order.map Int.ofNat)) = .ok (batch.gather order) ∧
      Reordered dp batch (order, batch.gather order) := by
  have hin : ∀ i ∈ order, i < batch.len := fun i hi => mem_range.1 (hperm.mem_iff.1 hi)
  have hlength : order.length = batch.len := by rw [hperm.length_eq, length_range]
  obtain ⟨s, hs⟩ := hdvd
  have hs1 : 1 ≤ s := by grind
  have hsize : order.length / dp = s := by rw [hlength, hs, Nat.mul_div_cancel_left _ hdp]
  refine ⟨?_, hperm, rfl, fun autoPadding => ?_⟩
  · have htensor : (IndexArray.ints (order.map Int.ofNat)).tensorRows td.batchSize = .ok order := by
      rw [← DataProto.len_of_batch hb]
      exact mapM_pyIndex hin
    have hcols : batch.nonTensorBatch.mapValsM (fun rows =>
        ((IndexArray.ints (order.map Int.ofNat)).arrayRows rows.length).map (gatherRows rows))
        = .ok (batch.gather order).nonTensorBatch := by
      rw [DataProto.nonTensorBatch_gather]
      refine Dict.mapValsM_eq_ok_mapVals fun c hc => ?_
      show ((order.map Int.ofNat).mapM (pyIndex c.2.length)).map (gatherRows c.2) = _
      rw [hwf c hc, mapM_pyIndex hin]
      rfl
    unfold DataProto.reorder
    rw [hb]
    dsimp only
    rw [htensor, hcols]
    unfold DataProto.gather
    rw [hb]
    rfl
  · have hlen : (batch.gather order).len = dp * s := by
      rw [DataProto.len_gather hwf hin, hlength, hs]
    rw [DataProto.chunk_eq (DataProto.wellFormed_gather hwf hin) hdp hs1 hlen autoPadding]
    congr 1
    refine map_congr_left fun rank hrank => ?_
    have hpiece : ∀ i ∈ range' (rank * s) s, i < order.length := by
      rw [hlength, hs]
      exact lt_of_mem_piece (mem_range.1 hrank)
    rw [DataProto.gather_gather hwf _ _ hin hpiece, gatherRows_range', rankRows, hsize]
    rfl

/-! ## Top theorems -/

section Balance

variable [DecidableEq ν] {rowSum : τ → Nat} {cfg : BalanceConfig} {dpRankMapping : List Nat}
  {dp : Nat} {batch : DataProto τ ν}

variable {td : TensorDict τ} {mask : List τ} {m n : Nat}

omit [DecidableEq ν] in
theorem globalSeqlens_eq_ok (hb : batch.batch = some td)
    (hmask : td.columns.get? "attention_mask" = some mask) (hn : 1 ≤ batch.len) :
    globalSeqlens rowSum batch = .ok (mask.map rowSum) ∧ mask.length = batch.len := by
  have hlen := DataProto.length_column hb hmask
  refine ⟨?_, hlen⟩
  unfold globalSeqlens
  rw [hb]
  dsimp only
  rw [hmask]
  dsimp only
  rw [if_neg (by omega)]

omit [DecidableEq ν] in
theorem globalSeqlens_ne_ok (hn : batch.len = 0) (lens : List Nat) :
    globalSeqlens rowSum batch ≠ .ok lens := by
  intro h
  unfold globalSeqlens at h
  cases hb : batch.batch with
  | none =>
    rw [hb] at h
    cases h
  | some td =>
    rw [hb] at h
    dsimp only at h
    cases hmask : td.columns.get? "attention_mask" with
    | none =>
      rw [hmask] at h
      cases h
    | some mask =>
      have hlen : mask.length = 0 := (DataProto.length_column hb hmask).trans hn
      rw [hmask] at h
      dsimp only at h
      rw [if_pos hlen] at h
      cases h

theorem balanceBatch_of_partitions (hwf : batch.WellFormed) (hb : batch.batch = some td)
    (hmask : td.columns.get? "attention_mask" = some mask) (hn : 1 ≤ batch.len)
    (hmapping : getDpSize dpRankMapping = .ok dp) (hdp : 1 ≤ dp) (hdvd : dp ∣ batch.len)
    {keepMinibatch : Bool} {lst : List (List Nat)}
    (hlst : globalPartitionLst cfg dp keepMinibatch (mask.map rowSum) (batch.nonTensorBatch.get? "uid") = .ok lst)
    (hperm : lst.flatten.Perm (range batch.len)) :
    balanceBatch rowSum cfg dpRankMapping keepMinibatch batch
        = .ok (lst.flatten, batch.gather lst.flatten) ∧
      Reordered dp batch (lst.flatten, batch.gather lst.flatten) := by
  obtain ⟨hreorder, hreordered⟩ := reordered_of_perm hwf hb hdp hdvd hn hperm
  refine ⟨?_, hreordered⟩
  unfold balanceBatch
  rw [(globalSeqlens_eq_ok hb hmask hn).1, ok_bind, hmapping, ok_bind, hlst,
    ok_bind]
  dsimp only
  rw [hreorder]
  rfl

/-- The partition of `keep_minibatch`, with and without the pipeline order. -/
theorem globalPartitionLst_keepMinibatch (hm : 1 ≤ m) (hdvd : dp ∣ m) (grouper : Bool)
    (lens : List Nat) (uidList : Option (List ν)) (hmode : grouper = true → uidList = none)
    (hn : m ∣ lens.length) :
    ∃ lst, globalPartitionLst ⟨grouper, m⟩ dp true lens uidList = .ok lst ∧
      lst.flatten.Perm (range lens.length) ∧
      (KeepsMinibatches m dp lst.flatten ↔
        grouper = true ∨ WorkloadsFollowMinibatches m dp (lens.map calculateWorkload)) := by
  obtain ⟨shares, hok, hshares⟩ := minibatchPartitions_spec
    (lens.map calculateWorkload) hm hdvd
  rw [length_map] at hshares
  have hperm := hshares.perm
  rw [Nat.div_mul_cancel hn] at hperm
  cases grouper with
  | true =>
    refine ⟨shares, ?_, hperm, ?_⟩
    · rw [hmode rfl]
      unfold globalPartitionLst
      dsimp only
      rw [hok]
      rfl
    · rw [keepsMinibatches_flatten_iff hm hdvd hshares.length hshares.size]
      exact ⟨fun _ => .inl rfl, fun _ => hshares.slice⟩
  | false =>
    refine ⟨shares.map (pipelineOrder (lens.map calculateWorkload)), ?_, ?_, ?_⟩
    · unfold globalPartitionLst
      dsimp only
      rw [hok]
      rfl
    · refine Perm.trans ?_ hperm
      clear hok hshares hperm
      induction shares with
      | nil => exact .refl _
      | cons share shares ih => exact (pipelineOrder_perm _ share).append ih
    · have hsize : ∀ part ∈ shares.map (pipelineOrder (lens.map calculateWorkload)),
          part.length = lens.length / m * (m / dp) := by
        intro part hpart
        obtain ⟨share, hshare, rfl⟩ := mem_map.1 hpart
        rw [(pipelineOrder_perm _ share).length_eq, hshares.size share hshare]
      rw [keepsMinibatches_flatten_iff hm hdvd (by rw [length_map, hshares.length]) hsize]
      constructor
      · intro h
        refine .inr fun shares' hok' share hshare p hp row hrow => ?_
        rw [hok] at hok'
        cases hok'
        rw [← getElem?_pipelineOrder _ _ hp] at hrow
        exact h _ (mem_map_of_mem hshare) p row hrow
      · rintro (h | h) part hpart p row hrow
        · cases h
        · obtain ⟨share, hshare, rfl⟩ := mem_map.1 hpart
          have hp : p < share.length := by
            rw [← (pipelineOrder_perm (lens.map calculateWorkload) share).length_eq]
            exact (List.getElem?_eq_some_iff.1 hrow).1
          rw [getElem?_pipelineOrder _ _ hp] at hrow
          exact h shares hok share hshare p hp row hrow

theorem workloadsFollowMinibatches_single (hm : 1 ≤ m) (hdvd : dp ∣ m)
    {workloadLst : List Nat} (hn : workloadLst.length = m) :
    WorkloadsFollowMinibatches m dp workloadLst := by
  obtain ⟨shares, hok, hshares⟩ := minibatchPartitions_spec workloadLst hm hdvd
  intro shares' hok' share hshare p hp row hrow
  rw [hok] at hok'
  cases hok'
  have hsize := hshares.size share hshare
  rw [hn, Nat.div_self hm] at hsize
  have hmem : row ∈ share :=
    (byWorkload_perm workloadLst share).mem_iff.1 (mem_of_getElem? hrow)
  have hlt : row < m := by
    have hin := hshares.perm.mem_iff.1 (mem_flatten.2 ⟨share, hshare, hmem⟩)
    rw [hn, Nat.div_self hm, Nat.one_mul] at hin
    exact mem_range.1 hin
  rw [Nat.div_eq_of_lt hlt, Nat.div_eq_of_lt (by omega)]

/-- Lengths of which the first mini-batch has the longest. -/
def firstLongest (m n : Nat) : List Nat := (List.range n).map fun i => if i < m then 1 else 0

theorem length_firstLongest (m n : Nat) : (firstLongest m n).length = n := by
  unfold firstLongest
  rw [length_map, length_range]

theorem workload_firstLongest {i : Nat} (hi : i < n) :
    ((firstLongest m n).map calculateWorkload).getD i 0 =
      calculateWorkload (if i < m then 1 else 0) := by
  unfold firstLongest
  rw [getD_eq_getElem?_getD, getElem?_map, getElem?_map, getElem?_range hi]
  rfl

theorem workload_head_le {workloadLst share rest : List Nat} {first row : Nat}
    (h : byWorkload workloadLst share = first :: rest) (hrow : row ∈ share) :
    workloadLst.getD first 0 ≤ workloadLst.getD row 0 := by
  have hascending := pySorted_pairwise
    (fun x y => decide (toLex (workloadLst.getD x 0, x) < toLex (workloadLst.getD y 0, y)))
    (fun x => toLex (workloadLst.getD x 0, x)) (by simp) share
  have hmem : row ∈ first :: rest := h ▸ (byWorkload_perm workloadLst share).mem_iff.2 hrow
  rw [show pySorted _ share = first :: rest from h, pairwise_cons] at hascending
  rcases mem_cons.1 hmem with rfl | hrest
  · exact le_refl _
  · rcases Prod.Lex.toLex_le_toLex.1 (hascending.1 row hrest) with hlt | ⟨heq, -⟩
    · exact hlt.le
    · exact heq.le

/-- With a second mini-batch, a first one of the longest rows does not survive. -/
theorem not_workloadsFollow_firstLongest (hm : 1 ≤ m) (hdvd : dp ∣ m) (hn : m ∣ n) (hlt : m < n) :
    ¬ WorkloadsFollowMinibatches m dp ((firstLongest m n).map calculateWorkload) := by
  intro h
  have hdp : 1 ≤ dp := Nat.pos_of_dvd_of_pos hdvd hm
  have hq : 1 ≤ m / dp := Nat.div_pos (Nat.le_of_dvd hm hdvd) hdp
  obtain ⟨shares, hok, hshares⟩ := minibatchPartitions_spec
    ((firstLongest m n).map calculateWorkload) hm hdvd
  rw [length_map, length_firstLongest] at hshares
  have htwo : 2 ≤ n / m := by
    obtain ⟨b, rfl⟩ := hn
    rw [Nat.mul_div_cancel_left _ hm]
    by_contra hb
    have hle : m * b ≤ m * 1 := Nat.mul_le_mul_left m (by omega)
    omega
  obtain ⟨share, hshare⟩ := exists_mem_of_length_pos (l := shares) (by rw [hshares.length]; omega)
  have hsize := hshares.size share hshare
  have hlong : 2 * (m / dp) ≤ share.length := by
    rw [hsize]
    exact Nat.mul_le_mul_right _ htwo
  have hperm := byWorkload_perm ((firstLongest m n).map calculateWorkload) share
  -- a row of the second mini-batch, and the row that comes first
  obtain ⟨later, hlater⟩ : ∃ later, share[m / dp]? = some later :=
    ⟨_, getElem?_eq_getElem (by omega)⟩
  have hsecond : later / m = 1 := by
    rw [hshares.slice share hshare _ _ hlater, Nat.div_self hq]
  obtain ⟨first, rest, hsorted⟩ : ∃ first rest,
      byWorkload ((firstLongest m n).map calculateWorkload) share = first :: rest := by
    cases hs : byWorkload ((firstLongest m n).map calculateWorkload) share with
    | nil =>
      have hzero := hperm.length_eq
      rw [hs, length_nil] at hzero
      omega
    | cons first rest => exact ⟨first, rest, rfl⟩
  have hfirst : first / m = 0 := by
    have hrow := h shares hok share hshare 0 (by omega) first (by
      rw [pipelinePlace, if_pos (by omega), hsorted]
      rfl)
    rw [hrow, Nat.zero_div]
  have hfirstlt : first < m := by
    by_contra hge
    have := Nat.div_pos (Nat.le_of_not_lt hge) hm
    omega
  have hlaterge : m ≤ later := by
    by_contra hlt'
    rw [Nat.div_eq_of_lt (Nat.lt_of_not_le hlt')] at hsecond
    cases hsecond
  have hlatern : later < n := by
    have hin := hshares.perm.mem_iff.1
      (mem_flatten.2 ⟨share, hshare, mem_of_getElem? hlater⟩)
    rw [Nat.div_mul_cancel hn] at hin
    exact mem_range.1 hin
  -- its workload is smaller, so it comes first
  have hle := workload_head_le hsorted (mem_of_getElem? hlater)
  rw [workload_firstLongest (by omega), workload_firstLongest hlatern, if_pos hfirstlt,
    if_neg (by omega)] at hle
  exact absurd hle (by decide)

theorem balanceBatch_keepsMinibatches_iff {dp : Nat} (hm : 1 ≤ m) (hdvd : dp ∣ m) (rowSum : τ → Nat)
    {dpRankMapping : List Nat} (hmapping : getDpSize dpRankMapping = .ok dp) {grouper : Bool}
    {batch : DataProto τ ν} (hwf : batch.WellFormed) (hb : batch.batch = some td)
    (hmask : td.columns.get? "attention_mask" = some mask) (hn : m ∣ batch.len)
    (hmode : grouper = true → "uid" ∉ batch.nonTensorBatch.keys) :
    (∃ r, balanceBatch rowSum ⟨grouper, m⟩ dpRankMapping true batch = .ok r ∧
        Reordered dp batch r ∧ KeepsMinibatches m dp r.1) ↔
      1 ≤ batch.len ∧ (grouper = true ∨
        WorkloadsFollowMinibatches m dp (mask.map fun row => calculateWorkload (rowSum row))) := by
  have hdp : 1 ≤ dp := Nat.pos_of_dvd_of_pos hdvd hm
  have hworkloads : (mask.map rowSum).map calculateWorkload
      = mask.map fun row => calculateWorkload (rowSum row) := by
    rw [map_map]
    rfl
  rcases Nat.eq_zero_or_pos batch.len with hzero | hpos
  · constructor
    · rintro ⟨r, hr, -⟩
      obtain ⟨lens, hlens, -⟩ := bind_eq_ok.1 hr
      exact absurd hlens (globalSeqlens_ne_ok hzero lens)
    · omega
  · have hlen : (mask.map rowSum).length = batch.len := by
      rw [length_map, DataProto.length_column hb hmask]
    obtain ⟨lst, hlst, hperm, hiff⟩ := globalPartitionLst_keepMinibatch hm hdvd grouper
      (mask.map rowSum) (batch.nonTensorBatch.get? "uid")
      (fun h => Dict.get?_eq_none_iff.2 (hmode h)) (by rw [hlen]; exact hn)
    rw [hlen] at hperm
    obtain ⟨hok, hreordered⟩ := balanceBatch_of_partitions hwf hb hmask hpos hmapping hdp
      (hdvd.trans hn) hlst hperm
    constructor
    · grind
    · grind

/-- They survive for all sequence lengths only where there is one of them. -/
theorem forall_keepsMinibatches_iff {dp : Nat} (hm : 1 ≤ m) (hdvd : dp ∣ m)
    (uidList : Option (List ν)) (hpos : 1 ≤ n) (hn : m ∣ n) :
    (∀ lens, lens.length = n →
      ∃ lst, globalPartitionLst ⟨false, m⟩ dp true lens uidList = .ok lst ∧
        KeepsMinibatches m dp lst.flatten) ↔ n = m := by
  constructor
  · intro h
    by_contra hne
    have hlt : m < n := lt_of_le_of_ne (Nat.le_of_dvd hpos hn) (Ne.symm hne)
    have hlen := length_firstLongest m n
    obtain ⟨lst, hlst, hkeeps⟩ := h (firstLongest m n) hlen
    obtain ⟨lst', hlst', -, hiff⟩ := globalPartitionLst_keepMinibatch hm hdvd false
      (firstLongest m n) uidList (fun h => by cases h) (by rw [hlen]; exact hn)
    rw [hlst] at hlst'
    cases hlst'
    rcases hiff.1 hkeeps with h | h
    · cases h
    · exact not_workloadsFollow_firstLongest hm hdvd hn hlt h
  · rintro rfl lens hlen
    obtain ⟨lst, hlst, -, hiff⟩ := globalPartitionLst_keepMinibatch hm hdvd false
      lens uidList (fun h => by cases h) (by rw [hlen])
    refine ⟨lst, hlst, hiff.2 (.inr (workloadsFollowMinibatches_single hm hdvd ?_))⟩
    rw [length_map, hlen]

/-- Four rows, the first two of which are the longest. -/
def fourRows : DataProto (List Nat) Nat where
  batch := some
    { batchSize := 4
      columns := Dict.ofItems [("attention_mask", [[1, 1], [1, 1], [0, 1], [0, 1]])]
      rows_eq := by decide }
  nonTensorBatch := Dict.empty
  metaInfo := Dict.empty

/-- With `use_prefix_grouper` every rank gets whole groups, each in one stretch and in its order,
if equal uids stand together, every uid has the same number of rows and the ranks can have the same
number of uids. -/
theorem keepsUidGroups_of_balanceBatch (minibatchSize : Nat) (keepMinibatch : Bool)
    (hmapping : getDpSize dpRankMapping = .ok dp) (hwf : batch.WellFormed) {td : TensorDict τ}
    (hb : batch.batch = some td) {mask : List τ}
    (hmask : td.columns.get? "attention_mask" = some mask) {uidList : List ν}
    (huid : batch.nonTensorBatch.get? "uid" = some uidList) (hcontiguous : Contiguous id uidList)
    {r : Nat} (hcount : ∀ uid ∈ uidList, uidList.count uid = r) (hdvd : dp ∣ uidList.dedup.length) :
    (1 ≤ batch.len → ∃ res,
      balanceBatch rowSum ⟨true, minibatchSize⟩ dpRankMapping keepMinibatch batch = .ok res) ∧
    ∀ res, balanceBatch rowSum ⟨true, minibatchSize⟩ dpRankMapping keepMinibatch batch = .ok res →
      Reordered dp batch res ∧ KeepsUidGroups uidList dp res.1 := by
  have hdp : 1 ≤ dp := by
    unfold getDpSize at hmapping
    split at hmapping
    · cases hmapping
    · grind
  have hall : 1 ≤ batch.len → ∃ res,
      balanceBatch rowSum ⟨true, minibatchSize⟩ dpRankMapping keepMinibatch batch = .ok res ∧
        Reordered dp batch res ∧ KeepsUidGroups uidList dp res.1 := by
    intro hn
    have huidlen : uidList.length = batch.len := hwf _ (Dict.mem_items_of_get? huid)
    have hmasklen : (mask.map rowSum).length = uidList.length := by
      rw [length_map, huidlen, DataProto.length_column hb hmask]
    have hne : uidList ≠ [] := by grind
    obtain ⟨parts, hok, hlen, hperm, hsize, hgroups⟩ :=
      getGroupBalancedPartitions_spec hmasklen hne hcontiguous hcount hdp hdvd
    have hlst : globalPartitionLst ⟨true, minibatchSize⟩ dp keepMinibatch (mask.map rowSum)
        (batch.nonTensorBatch.get? "uid") = .ok parts := by
      rw [huid]
      unfold globalPartitionLst prefixGrouperPartitions
      dsimp only
      rw [if_neg (not_not.2 (Nat.mod_eq_zero_of_dvd hdvd)), hok]
      rfl
    rw [huidlen] at hperm
    have hdvdlen : dp ∣ batch.len := by
      obtain ⟨part, hpart⟩ := exists_mem_of_length_pos (l := parts) (by omega)
      exact ⟨part.length, by rw [← huidlen, ← hsize part hpart, Nat.mul_comm]⟩
    obtain ⟨hcall, hreordered⟩ := balanceBatch_of_partitions hwf hb hmask hn hmapping hdp hdvdlen
      hlst hperm
    refine ⟨_, hcall, hreordered, fun rank hrank row hrow => ?_⟩
    have hequal : ∀ part ∈ parts, part.length = uidList.length / dp := fun part hpart => by
      rw [← hsize part hpart, Nat.mul_div_cancel _ hdp]
    rw [← hlen] at hrank hrow ⊢
    rw [rankRows_flatten hequal hrank] at hrow ⊢
    exact hgroups _ (getElem_mem hrank) row hrow
  refine ⟨fun hn => ?_, fun res hres => ?_⟩
  · grind
  · have hn : 1 ≤ batch.len := by
      rw [Nat.one_le_iff_ne_zero]
      intro hzero
      obtain ⟨lens, hlens, -⟩ := bind_eq_ok.1 hres
      exact globalSeqlens_ne_ok hzero lens hlens
    obtain ⟨res', hres', hkeeps⟩ := hall hn
    rw [hres] at hres'
    cases hres'
    exact hkeeps

/-- Four groups of two rows on two ranks. -/
def fourGroups : DataProto Nat Nat where
  batch := some
    { batchSize := 8
      columns := Dict.ofItems [("attention_mask", [9, 8, 1, 2, 3, 4, 7, 7])]
      rows_eq := by decide }
  nonTensorBatch := Dict.ofItems [("uid", [5, 5, 6, 6, 4, 4, 7, 7])]
  metaInfo := Dict.empty

theorem keepsUidGroups_fourGroups :
    (∃ res, balanceBatch id ⟨true, 4⟩ [0, 0, 1, 1] false fourGroups = .ok res) ∧
    ∀ res, balanceBatch id ⟨true, 4⟩ [0, 0, 1, 1] false fourGroups = .ok res →
      Reordered 2 fourGroups res ∧ KeepsUidGroups [5, 5, 6, 6, 4, 4, 7, 7] 2 res.1 := by
  have hcontiguous : Contiguous id [5, 5, 6, 6, 4, 4, 7, 7] := by
    intro x y z hsub hkey
    have hall : ∀ s ∈ List.sublistsLen 3 [5, 5, 6, 6, 4, 4, 7, 7],
        s.head? = s.getLast? → s[1]? = s.head? := by decide
    exact Option.some.inj (hall [x, y, z] (mem_sublistsLen.2 ⟨hsub, rfl⟩) (congrArg some hkey))
  have hboth : (1 ≤ fourGroups.len → ∃ res,
        balanceBatch id ⟨true, 4⟩ [0, 0, 1, 1] false fourGroups = .ok res) ∧
      ∀ res, balanceBatch id ⟨true, 4⟩ [0, 0, 1, 1] false fourGroups = .ok res →
        Reordered 2 fourGroups res ∧ KeepsUidGroups [5, 5, 6, 6, 4, 4, 7, 7] 2 res.1 :=
    keepsUidGroups_of_balanceBatch 4 false rfl (by decide) rfl rfl rfl hcontiguous (r := 2)
      (by decide) (by decide)
  exact ⟨hboth.1 (by decide), hboth.2⟩

end Balance

end Verl
