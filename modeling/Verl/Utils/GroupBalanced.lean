import Verl.Lib.Runs
import Verl.Utils.SeqlenBalancing

/-!
# Partitions of whole groups (`get_group_balanced_partitions`)

The samples of one uid stay together: the list of uids is scanned for groups, the groups are
partitioned by their workloads, and every partition of groups is expanded to its samples again.

    uids  a a b b c c d d     groups  0 1 | 2 3 | 4 5 | 6 7
    groups 0, 3 and 1, 2      →       [0, 1, 6, 7], [2, 3, 4, 5]

The scan finds the runs of the list, so a group is all of a uid when equal uids stand together.
-/

namespace Verl

variable {ν : Type} [DecidableEq ν]

/-! ## Algorithm -/

/-- What the scan has found: the groups before the current one, and the current one. -/
structure GroupScan (ν : Type) where
  groups : List (List Nat × Nat)
  currentUid : Option ν
  currentIndices : List Nat
  currentSeqlen : Nat

namespace GroupScan

def start : GroupScan ν :=
  { groups := [], currentUid := none, currentIndices := [], currentSeqlen := 0 }

/-- The groups with the current one, if it has any sample. -/
def close (s : GroupScan ν) : List (List Nat × Nat) :=
  if s.currentIndices.isEmpty then s.groups
  else s.groups ++ [(s.currentIndices, s.currentSeqlen)]

/-- One sample: its sequence length, its uid and its index. -/
def step (s : GroupScan ν) (sample : (Nat × ν) × Nat) : GroupScan ν :=
  if some sample.1.2 ≠ s.currentUid then
    { groups := s.close
      currentUid := some sample.1.2
      currentIndices := [sample.2]
      currentSeqlen := sample.1.1 }
  else
    { s with
      currentIndices := s.currentIndices ++ [sample.2]
      currentSeqlen := s.currentSeqlen + sample.1.1 }

end GroupScan

/-- The groups of samples with one uid after the other, each with its total length. -/
def uidGroups (seqlenList : List Nat) (uidList : List ν) : List (List Nat × Nat) :=
  ((seqlenList.zip uidList).zipIdx.foldl GroupScan.step GroupScan.start).close

/-- `get_group_balanced_partitions`. -/
def getGroupBalancedPartitions (seqlenList : List Nat) (uidList : List ν) (kPartitions : Nat) :
    Except PyErr (List (List Nat)) := do
  pyAssert (seqlenList.length == uidList.length) "seqlen_list and uid_list must have same length"
  let groups := uidGroups seqlenList uidList
  let numGroups := groups.length
  pyAssert (kPartitions ≤ numGroups)
    (s!"Number of uid groups ({numGroups}) must be >= k_partitions ({kPartitions}). " ++
      "Consider reducing world_size or increasing batch_size.")
  let groupWorkloads := groups.map fun group =>
    (group.1.map fun i => calculateWorkload (seqlenList.getD i 0)).sum
  let groupPartitions ← getSeqlenBalancedPartitions groupWorkloads kPartitions true
  return groupPartitions.map fun groupPartition =>
    pySorted (fun a b => decide (a < b))
      (groupPartition.flatMap fun groupIdx => (groups.getD groupIdx ([], 0)).1)

/-! ## Lemmas: the groups -/

/-- The scan finds the runs: those of the samples it has seen, and the current one goes on. -/
theorem close_foldl_step (samples : List ((Nat × ν) × Nat)) (s : GroupScan ν)
    (run : List ((Nat × ν) × Nat)) (k : ν) (hne : run ≠ []) (huid : s.currentUid = some k)
    (hrun : s.currentIndices = run.map Prod.snd) :
    (samples.foldl GroupScan.step s).close.map Prod.fst
      = s.groups.map Prod.fst
        ++ (keyRunsFrom (fun sample => sample.1.2) k run samples).map fun r => r.2.map Prod.snd := by
  induction samples generalizing s run k with
  | nil =>
    have hindices : s.currentIndices.isEmpty = false := by
      rw [hrun, List.isEmpty_eq_false_iff, Ne, List.map_eq_nil_iff]
      exact hne
    rw [List.foldl_nil, GroupScan.close, hindices, if_neg Bool.false_ne_true, List.map_append, hrun]
    rfl
  | cons sample samples ih =>
    rw [List.foldl_cons]
    unfold keyRunsFrom
    by_cases hk : sample.1.2 = k
    · have hstep : s.step sample = { s with
          currentIndices := s.currentIndices ++ [sample.2]
          currentSeqlen := s.currentSeqlen + sample.1.1 } :=
        if_neg (by rw [huid, hk]; exact not_not.2 rfl)
      rw [if_pos hk, hstep]
      exact ih _ (run ++ [sample]) k (by simp) huid (by rw [hrun, List.map_append]; rfl)
    · have hclose : s.close.map Prod.fst = s.groups.map Prod.fst ++ [run.map Prod.snd] := by
        have hindices : s.currentIndices.isEmpty = false := by
          rw [hrun, List.isEmpty_eq_false_iff, Ne, List.map_eq_nil_iff]
          exact hne
        rw [GroupScan.close, hindices, if_neg Bool.false_ne_true, List.map_append, hrun]
        rfl
      have hstep : s.step sample = {
          groups := s.close
          currentUid := some sample.1.2
          currentIndices := [sample.2]
          currentSeqlen := sample.1.1 } :=
        if_pos (by rw [huid]; exact fun h => hk (Option.some.inj h))
      rw [if_neg hk, hstep, ih _ [sample] sample.1.2 (List.cons_ne_nil _ _) rfl rfl]
      rw [hclose, List.append_assoc]
      rfl

theorem map_fst_uidGroups (seqlenList : List Nat) (uidList : List ν) :
    (uidGroups seqlenList uidList).map Prod.fst
      = (keyRuns (fun sample : (Nat × ν) × Nat => sample.1.2)
          (seqlenList.zip uidList).zipIdx).map fun r => r.2.map Prod.snd := by
  unfold uidGroups
  cases (seqlenList.zip uidList).zipIdx with
  | nil => rfl
  | cons sample samples =>
    have hstep : GroupScan.start.step sample = {
        groups := []
        currentUid := some sample.1.2
        currentIndices := [sample.2]
        currentSeqlen := sample.1.1 } := if_pos (by
      exact Option.some_ne_none _)
    rw [List.foldl_cons, close_foldl_step samples _ [sample] sample.1.2
      (List.cons_ne_nil _ _) rfl rfl]
    rfl

section Groups

variable {seqlenList : List Nat} {uidList : List ν}

omit [DecidableEq ν] in
theorem uid_of_mem_samples {sample : (Nat × ν) × Nat}
    (h : sample ∈ (seqlenList.zip uidList).zipIdx) : uidList[sample.2]? = some sample.1.2 := by
  grind

omit [DecidableEq ν] in
theorem map_uid_samples (hlen : seqlenList.length = uidList.length) :
    (seqlenList.zip uidList).zipIdx.map (fun sample => sample.1.2) = uidList := by
  rw [show (fun sample : (Nat × ν) × Nat => sample.1.2) = Prod.snd ∘ Prod.fst from rfl,
    ← List.map_map, List.zipIdx_map_fst, List.map_snd_zip (by omega)]

omit [DecidableEq ν] in
theorem map_idx_samples (hlen : seqlenList.length = uidList.length) :
    (seqlenList.zip uidList).zipIdx.map Prod.snd = List.range uidList.length := by
  rw [List.zipIdx_map_snd, List.length_zip, hlen, Nat.min_self, List.range_eq_range']

omit [DecidableEq ν] in
theorem contiguous_samples (hlen : seqlenList.length = uidList.length) (h : Contiguous id uidList) :
    Contiguous (fun sample : (Nat × ν) × Nat => sample.1.2) (seqlenList.zip uidList).zipIdx := by
  intro x y z hsub hkey
  have huids := hsub.map fun sample => sample.1.2
  rw [map_uid_samples hlen] at huids
  exact h _ _ _ huids hkey

section

variable (hlen : seqlenList.length = uidList.length)
include hlen

theorem flatten_uidGroups :
    ((uidGroups seqlenList uidList).map Prod.fst).flatten = List.range uidList.length := by
  rw [map_fst_uidGroups, ← map_idx_samples hlen]
  conv => rhs; rw [← flatten_keyRuns (fun sample : (Nat × ν) × Nat => sample.1.2)
    (seqlenList.zip uidList).zipIdx]
  rw [List.map_flatten, List.map_map]
  rfl

omit hlen in
theorem fst_mem_of_mem_keyRuns {run : ν × List ((Nat × ν) × Nat)}
    (hrun : run ∈ keyRuns (fun sample : (Nat × ν) × Nat => sample.1.2)
      (seqlenList.zip uidList).zipIdx) : run.1 ∈ uidList := by
  obtain ⟨sample, hsample⟩ := List.exists_mem_of_ne_nil _ (ne_nil_of_mem_keyRuns hrun)
  have hmem := (mem_iff_mem_keyRuns (fun sample : (Nat × ν) × Nat => sample.1.2)).2
    ⟨run, hrun, hsample⟩
  rw [← key_of_mem_keyRuns hrun hsample]
  exact List.mem_of_getElem? (uid_of_mem_samples hmem)

theorem exists_uid_of_mem_uidGroups (h : Contiguous id uidList) {group : List Nat}
    (hgroup : group ∈ (uidGroups seqlenList uidList).map Prod.fst) :
    ∃ uid ∈ uidList, group = (List.range uidList.length).filter fun i => uidList[i]? = some uid := by
  rw [map_fst_uidGroups] at hgroup
  obtain ⟨run, hrun, rfl⟩ := List.mem_map.1 hgroup
  have hfilter := filter_of_mem_keyRuns (nodup_keys_keyRuns (contiguous_samples hlen h)) hrun
  refine ⟨run.1, fst_mem_of_mem_keyRuns hrun, ?_⟩
  rw [← map_idx_samples hlen, List.filter_map]
  conv => lhs; rw [← hfilter]
  congr 1
  refine List.filter_congr fun sample hsample => ?_
  rw [Function.comp_apply, uid_of_mem_samples hsample]
  simp

theorem length_uidGroups (h : Contiguous id uidList) : (uidGroups seqlenList uidList).length = uidList.dedup.length := by
  have hkeys := nodup_keys_keyRuns (contiguous_samples hlen h)
  have hperm : ((keyRuns (fun sample : (Nat × ν) × Nat => sample.1.2)
      (seqlenList.zip uidList).zipIdx).map Prod.fst).Perm uidList.dedup := by
    refine (List.perm_ext_iff_of_nodup hkeys (List.nodup_dedup _)).2 fun uid => ?_
    rw [List.mem_dedup]
    constructor
    · intro hmem
      obtain ⟨run, hrun, rfl⟩ := List.mem_map.1 hmem
      exact fst_mem_of_mem_keyRuns hrun
    · intro hmem
      rw [← map_uid_samples hlen] at hmem
      obtain ⟨sample, hsample, rfl⟩ := List.mem_map.1 hmem
      obtain ⟨run, hrun, hin⟩ := (mem_iff_mem_keyRuns (fun sample : (Nat × ν) × Nat =>
        sample.1.2)).1 hsample
      rw [key_of_mem_keyRuns hrun hin]
      exact List.mem_map_of_mem hrun
  have hlength := congrArg List.length (map_fst_uidGroups seqlenList uidList)
  rw [List.length_map, List.length_map] at hlength
  rw [hlength, ← hperm.length_eq, List.length_map]

end

theorem length_filter_uid (uid : ν) :
    ((List.range uidList.length).filter fun i => uidList[i]? = some uid).length
      = uidList.count uid := by
  have hmap : (List.range uidList.length).map (fun i => uidList[i]?) = uidList.map some := by
    apply List.ext_getElem
    · simp
    · intro i h1 h2
      simp
  have hcount := congrArg (List.count (some uid)) hmap
  rw [List.count_map_of_injective uidList some (Option.some_injective ν)] at hcount
  rw [← hcount, List.count, List.countP_map, List.countP_eq_length_filter]
  congr 1
  exact List.filter_congr fun i _ => (beq_eq_decide ..).symm

/-! ## Lemmas: the partitions -/

/-- The samples of a group. -/
def samplesOf (groups : List (List Nat × Nat)) (groupIdx : Nat) : List Nat :=
  (groups.getD groupIdx ([], 0)).1

theorem map_samplesOf (groups : List (List Nat × Nat)) :
    (List.range groups.length).map (samplesOf groups) = groups.map Prod.fst := by
  apply List.ext_getElem
  · simp
  · intro i h1 h2
    rw [List.length_map, List.length_range] at h1
    rw [List.getElem_map, List.getElem_map, List.getElem_range, samplesOf,
      List.getD_eq_getElem?_getD, List.getElem?_eq_getElem h1]
    rfl

section

variable (hlen : seqlenList.length = uidList.length)
include hlen

theorem flatMap_samplesOf : (List.range (uidGroups seqlenList uidList).length).flatMap
        (samplesOf (uidGroups seqlenList uidList)) = List.range uidList.length := by
  rw [List.flatMap_def, map_samplesOf, flatten_uidGroups hlen]

/-- Ascending groups expand to ascending samples, so sorting them changes nothing. -/
theorem sorted_groups {groupPartition : List Nat} (hasc : groupPartition.Pairwise (· < ·))
    (hlt : ∀ g ∈ groupPartition, g < (uidGroups seqlenList uidList).length) :
    pySorted (fun a b => decide (a < b))
        (groupPartition.flatMap (samplesOf (uidGroups seqlenList uidList)))
      = groupPartition.flatMap (samplesOf (uidGroups seqlenList uidList)) := by
  have hsub : groupPartition.Sublist (List.range (uidGroups seqlenList uidList).length) := by
    refine List.sublist_of_subperm_of_pairwise
      (List.subperm_of_subset (hasc.imp fun h => Nat.ne_of_lt h) fun g hg => ?_)
      hasc List.pairwise_lt_range
    exact List.mem_range.2 (hlt g hg)
  have hflat := hsub.flatMap (samplesOf (uidGroups seqlenList uidList))
  rw [flatMap_samplesOf hlen] at hflat
  have hascending : (groupPartition.flatMap (samplesOf (uidGroups seqlenList uidList))).Pairwise
      (· < ·) := List.pairwise_lt_range.sublist hflat
  refine List.Pairwise.insertionSort_eq (hascending.imp fun h => ?_)
  exact decide_eq_false (Nat.not_lt_of_lt h)

/-- Every partition takes whole groups, each in one stretch and in its order. -/
theorem getGroupBalancedPartitions_spec (hne : uidList ≠ []) (hcontiguous : Contiguous id uidList) {r : Nat}
    (hcount : ∀ uid ∈ uidList, uidList.count uid = r) {k : Nat} (hk : 1 ≤ k)
    (hdvd : k ∣ uidList.dedup.length) :
    ∃ parts, getGroupBalancedPartitions seqlenList uidList k = .ok parts ∧ parts.length = k ∧
      parts.flatten.Perm (List.range uidList.length) ∧
      (∀ part ∈ parts, part.length * k = uidList.length) ∧
      ∀ part ∈ parts, ∀ i ∈ part,
        ((List.range uidList.length).filter fun j => uidList[j]? = uidList[i]?) <:+: part := by
  have hgroups := length_uidGroups hlen hcontiguous
  have hpos : 1 ≤ uidList.dedup.length := by
    rw [Nat.one_le_iff_ne_zero, Ne, List.length_eq_zero_iff, List.dedup_eq_nil]
    exact hne
  have hkn : k ≤ uidList.dedup.length := Nat.le_of_dvd hpos hdvd
  -- every group has `r` samples
  have hsize : ∀ g < (uidGroups seqlenList uidList).length,
      (samplesOf (uidGroups seqlenList uidList) g).length = r := by
    intro g hg
    have hmem : samplesOf (uidGroups seqlenList uidList) g
        ∈ (uidGroups seqlenList uidList).map Prod.fst := by
      rw [← map_samplesOf]
      exact List.mem_map_of_mem (List.mem_range.2 hg)
    obtain ⟨uid, huid, hgroup⟩ := exists_uid_of_mem_uidGroups hlen hcontiguous hmem
    rw [hgroup, length_filter_uid, hcount uid huid]
  have hflat : ∀ gs : List Nat, (∀ g ∈ gs, g < (uidGroups seqlenList uidList).length) →
      (gs.flatMap (samplesOf (uidGroups seqlenList uidList))).length = gs.length * r := by
    intro gs hgs
    rw [List.length_flatMap, List.map_congr_left fun g hg => hsize g (hgs g hg), List.map_const',
      List.sum_replicate_nat]
  have htotal : uidList.length = uidList.dedup.length * r := by
    have hall := hflat (List.range (uidGroups seqlenList uidList).length)
      fun g hg => List.mem_range.1 hg
    rw [flatMap_samplesOf hlen, List.length_range, List.length_range, hgroups] at hall
    exact hall
  obtain ⟨parts, hok, hparts, hpartition, hequal⟩ := getSeqlenBalancedPartitions_spec
    ((uidGroups seqlenList uidList).map fun group =>
      (group.1.map fun i => calculateWorkload (seqlenList.getD i 0)).sum) k true hk
    (by rw [List.length_map, hgroups]; exact hkn) (fun _ => by rw [List.length_map, hgroups]; exact hdvd)
  rw [List.length_map] at hpartition hequal
  have hlt : ∀ part ∈ parts, ∀ g ∈ part, g < (uidGroups seqlenList uidList).length :=
    fun part hpart g hg => (hpartition.mem_iff g).2 ⟨part, hpart, hg⟩
  have hsorted : parts.map (fun groupPartition => pySorted (fun a b => decide (a < b))
        (groupPartition.flatMap fun groupIdx =>
          ((uidGroups seqlenList uidList).getD groupIdx ([], 0)).1))
      = parts.map fun part => part.flatMap (samplesOf (uidGroups seqlenList uidList)) :=
    List.map_congr_left fun part hpart =>
      sorted_groups hlen (hpartition.ascending part hpart) (hlt part hpart)
  refine ⟨parts.map fun part => part.flatMap (samplesOf (uidGroups seqlenList uidList)), ?_, ?_, ?_,
    ?_, ?_⟩
  · unfold getGroupBalancedPartitions
    rw [hlen, beq_self_eq_true, pyAssert_true, ok_bind]
    dsimp only
    rw [hgroups, decide_eq_true hkn, pyAssert_true, ok_bind, hok, ok_bind, hsorted]
    rfl
  · rw [List.length_map, hparts]
  · rw [← List.flatMap_def, ← List.flatMap_assoc, List.flatMap_id', ← flatMap_samplesOf hlen]
    exact hpartition.perm.flatMap_right _
  · intro samples hsamples
    obtain ⟨part, hpart, rfl⟩ := List.mem_map.1 hsamples
    rw [hflat part (hlt part hpart), hequal rfl part hpart, hgroups, htotal, Nat.mul_right_comm,
      Nat.div_mul_cancel hdvd]
  · intro samples hsamples i hi
    obtain ⟨part, hpart, rfl⟩ := List.mem_map.1 hsamples
    obtain ⟨g, hg, hig⟩ := List.mem_flatMap.1 hi
    have hmem : samplesOf (uidGroups seqlenList uidList) g
        ∈ (uidGroups seqlenList uidList).map Prod.fst := by
      rw [← map_samplesOf]
      exact List.mem_map_of_mem (List.mem_range.2 (hlt part hpart g hg))
    obtain ⟨uid, huid, hgroup⟩ := exists_uid_of_mem_uidGroups hlen hcontiguous hmem
    rw [hgroup] at hig
    have hi' : uidList[i]? = some uid := of_decide_eq_true (List.mem_filter.1 hig).2
    rw [hi', ← hgroup]
    exact List.infix_of_mem_flatten (List.mem_map_of_mem hg)

end

end Groups

end Verl
