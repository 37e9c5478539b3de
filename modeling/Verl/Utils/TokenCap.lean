import Verl.Utils.BalancedSpread
import Verl.Utils.MicroBatches

/-! # The tokens of a micro-batch (`verl/utils/seqlen_balancing.py`)

`rearrange_micro_batches` takes as many micro-batches as the total number of tokens asks for and
balances their workloads.  Nothing bounds the tokens of a micro-batch after that.

    lengths [6, 6, 6], at most 10      18 tokens, 2 micro-batches, [6, 6] and [6]

* `balancedPartitions_balanced`: the workloads differ by at most that of one item.
* `mul_sum_le_of_balanced`: what this says of one set. -/

namespace Verl

open List

/-! ## What is in the bound -/

variable {τ : Type}

/-- The sums of the groups. -/
def groupSums (xs : List Nat) (g : Nat) : List Nat := if 1 < g then groupWorkloads xs g else xs

/-- The tokens of a batch are at most `cap`. -/
def Within [TokenRow τ] (isNested : Bool) (cap : Int) (batch : TensorDict τ) : Prop :=
  ∃ lens maxLen, seqLenEffective isNested batch = .ok (lens, maxLen) ∧ ((lens.sum : Nat) : Int) ≤ cap

/-- Every set of groups with more than `cap` tokens is too heavy for a set of the balanced
partition into `k`, or every group is a micro-batch of its own. -/
def Fits (cap : Int) (k : Nat) (tokens workloads : List Nat) : Prop :=
  k = tokens.length ∨ ∀ part : List Nat, part.Nodup → (∀ j ∈ part, j < tokens.length) →
    cap < ((gatherRows tokens part).sum : Nat) →
    workloads.sum + (k - 1) * workloads.foldr max 0 < k * (gatherRows workloads part).sum

/-- The groups can be put into `k` micro-batches of at most `cap` tokens. -/
def Packable (cap : Int) (k : Nat) (tokens : List Nat) : Prop :=
  ∃ parts : List (List Nat), parts.length = k ∧ parts.flatten.Perm (List.range tokens.length) ∧
    ∀ part ∈ parts, (((gatherRows tokens part).sum : Nat) : Int) ≤ cap

/-- A mask of zeros and ones does not count more tokens than its width. -/
def MaskRows [TokenRow τ] (batch : TensorDict τ) : Prop :=
  ∀ mask, batch.columns.get? "attention_mask" = some mask →
    ∀ row ∈ mask, TokenRow.total row ≤ (mask.map TokenRow.size).headD 0

/-! ## Lemmas: the balanced partitions -/

variable {p part lens : List Nat} {g v : Nat} {parts : List (List Nat)}

variable (xs : List Nat) {workloads : List Nat}

theorem sum_gatherRows_perm {q : List Nat} (h : p.Perm q) :
    (gatherRows xs p).sum = (gatherRows xs q).sum := (h.filterMap _).sum_nat

theorem balancedPartitions_balanced {num : Int}
    (h : balancedPartitions workloads num = .ok parts) (hv : ∀ x ∈ workloads, x ≤ v) :
    ((parts.length : Nat) : Int) = num ∧ 1 ≤ parts.length ∧
      ∀ p ∈ parts, ∀ q ∈ parts, (gatherRows workloads p).sum ≤ (gatherRows workloads q).sum + v := by
  unfold balancedPartitions at h
  split at h
  · cases h
  · next hnum =>
    obtain ⟨hlen, -⟩ := isPartition_of_getSeqlenBalancedPartitions h
    unfold getSeqlenBalancedPartitions at h
    obtain ⟨_, hassert, h⟩ := bind_eq_ok.1 h
    have hkn : num.toNat ≤ workloads.length := of_decide_eq_true (pyAssert_eq_ok.1 hassert)
    obtain ⟨kk, hkk, h⟩ := bind_eq_ok.1 h
    have hk : 1 ≤ num.toNat := by
      by_contra hzero
      rw [show num.toNat = 0 by omega, karmarkarKarp_zero] at hkk
      cases hkk
    obtain ⟨kk', hkk', hlen', hne', hperm', -⟩ :=
      karmarkarKarp_spec workloads num.toNat false hk hkn (fun h => by cases h)
    rw [hkk] at hkk'
    cases hkk'
    rw [checkAndSortPartitions_spec _ _ _ hlen' hne' hperm'] at h
    cases h
    have hbalanced := karmarkarKarp_balanced hk hkn hv hkk
    refine ⟨by omega, by omega, ?_⟩
    intro p hp q hq
    obtain ⟨p', hp', rfl⟩ := mem_map.1 hp
    obtain ⟨q', hq', rfl⟩ := mem_map.1 hq
    rw [sum_gatherRows_perm _ (pySorted_perm _ p'), sum_gatherRows_perm _ (pySorted_perm _ q')]
    exact hbalanced p' hp' q' hq'

/-! ## Lemmas: sums that are close together -/

theorem mul_le_sum_add {xs : List Nat} {x : Nat} (h : ∀ y ∈ xs, x ≤ y + v) :
    xs.length * x ≤ xs.sum + xs.length * v := by
  induction xs with
  | nil => simp
  | cons y ys ih =>
    rw [forall_mem_cons] at h
    have hrest := ih h.2
    rw [length_cons, sum_cons, Nat.succ_mul, Nat.succ_mul]
    omega

theorem mul_sum_le_of_balanced {xs : List Nat} (hperm : parts.flatten.Perm (range xs.length))
    (h : ∀ p ∈ parts, ∀ q ∈ parts, (gatherRows xs p).sum ≤ (gatherRows xs q).sum + v)
    (hp : p ∈ parts) :
    parts.length * (gatherRows xs p).sum ≤ xs.sum + (parts.length - 1) * v := by
  obtain ⟨before, after, rfl⟩ := append_of_mem hp
  have htotal : ((before ++ after).map fun q => (gatherRows xs q).sum).sum +
      (gatherRows xs p).sum = xs.sum := by
    have hall := sum_gatherRows_perm xs hperm
    rw [gatherRows_range, gatherRows_flatten, flatMap_append, flatMap_cons,
      sum_append, sum_append, flatMap_def, flatMap_def, sum_flatten,
      sum_flatten, map_map, map_map] at hall
    rw [map_append, sum_append]
    have hbefore : (before.map fun q => (gatherRows xs q).sum) =
        before.map (List.sum ∘ gatherRows xs) := rfl
    have hafter : (after.map fun q => (gatherRows xs q).sum) =
        after.map (List.sum ∘ gatherRows xs) := rfl
    rw [hbefore, hafter]
    omega
  have hothers := mul_le_sum_add (x := (gatherRows xs p).sum) (v := v)
    (show ∀ y ∈ (before ++ after).map fun q => (gatherRows xs q).sum, _ from fun y hy => by
      obtain ⟨q, hq, rfl⟩ := mem_map.1 hy
      refine h p hp q ?_
      rcases mem_append.1 hq with hq | hq
      · exact mem_append_left _ hq
      · exact mem_append_right _ (mem_cons_of_mem _ hq))
  have hlen : (before ++ p :: after).length = (before ++ after).length + 1 := by grind
  rw [length_map] at hothers
  rw [hlen, Nat.add_sub_cancel, Nat.succ_mul]
  omega

/-! ## Lemmas: from the partitions to the micro-batches -/

theorem length_groupSums (hg : 0 < g) :
    (groupSums xs g).length = xs.length / g := by
  unfold groupSums
  split
  · exact length_groupWorkloads xs g
  · rw [show g = 1 by omega, Nat.div_one]

theorem sum_groupSamples (hpart : ∀ j ∈ part, j < lens.length / g) :
    (gatherRows lens (groupSamples g part)).sum =
      (gatherRows (groupWorkloads lens g) part).sum := by
  unfold groupSamples
  induction part with
  | nil => rfl
  | cons j part ih =>
    rw [forall_mem_cons] at hpart
    have hget : (groupWorkloads lens g)[j]? = some ((lens.drop (j * g)).take g).sum := by
      unfold groupWorkloads
      rw [getElem?_map, getElem?_range hpart.1]
      rfl
    have hcons : gatherRows (groupWorkloads lens g) (j :: part) =
        ((lens.drop (j * g)).take g).sum :: gatherRows (groupWorkloads lens g) part :=
      filterMap_cons_some hget
    rw [flatMap_cons, gatherRows_append, gatherRows_range', sum_append, ih hpart.2, hcons,
      sum_cons]

/-- What the micro-batches are selected by, as the partition of the groups says it. -/
theorem mem_microBszIdx (parts : List (List Nat)) (balance : Bool) :
    part ∈ (if balance then dynamicBszBalance workloads g
        (if 1 < g then parts.map (groupSamples g) else parts)
      else if 1 < g then parts.map (groupSamples g) else parts) ↔
      ∃ p ∈ parts, part = if 1 < g then groupSamples g p else p := by
  have hmem : part ∈ (if 1 < g then parts.map (groupSamples g) else parts) ↔
      ∃ p ∈ parts, part = if 1 < g then groupSamples g p else p := by grind
  cases balance with
  | false => exact hmem
  | true =>
    rw [if_pos rfl, (dynamicBszBalance_perm _ _ _).mem_iff]
    exact hmem

theorem sum_part (hp : ∀ j ∈ p, j < lens.length / g) :
    (gatherRows lens (if 1 < g then groupSamples g p else p)).sum =
      (gatherRows (groupSums lens g) p).sum := by
  unfold groupSums
  by_cases h1 : 1 < g
  · rw [if_pos h1, if_pos h1, sum_groupSamples hp]
  · rw [if_neg h1, if_neg h1]

theorem gatherRows_map {α β : Type} (f : α → β) (xs : List α) (idxs : List Nat) :
    (gatherRows xs idxs).map f = gatherRows (xs.map f) idxs := by
  unfold gatherRows
  rw [map_filterMap]
  simp only [getElem?_map]

section

variable [TokenRow τ] {isNested : Bool} {batch : TensorDict τ} {maxLen : Nat}
  (h : seqLenEffective isNested batch = .ok (lens, maxLen))
include h

theorem seqLenEffective_gather (hne : part ≠ []) (hpart : ∀ i ∈ part, i < lens.length) :
    ∃ maxLen', seqLenEffective isNested (batch.gather part) =
      .ok (gatherRows lens part, maxLen') := by
  unfold seqLenEffective at h ⊢
  unfold TensorDict.gather
  rw [Dict.get?_mapVals, Dict.get?_mapVals]
  cases hids : batch.columns.get? "input_ids" with
  | none =>
    rw [hids] at h
    cases h
  | some inputIds =>
    rw [hids] at h
    dsimp only [Option.map_some] at h ⊢
    cases isNested with
    | true =>
      rw [if_pos rfl] at h ⊢
      split at h
      · cases h
      · next maxSeqLen hmax =>
        cases h
        have hgather : (gatherRows inputIds part).map TokenRow.size =
            gatherRows (inputIds.map TokenRow.size) part := gatherRows_map _ _ _
        cases hmax' : ((gatherRows inputIds part).map TokenRow.size).max? with
        | none =>
          have hnil := max?_eq_none_iff.1 hmax'
          rw [hgather, ← length_eq_zero_iff, length_gatherRows_of_lt hpart,
            length_eq_zero_iff] at hnil
          exact absurd hnil hne
        | some maxLen' => exact ⟨maxLen', by rw [← hgather]⟩
    | false =>
      cases hmask : batch.columns.get? "attention_mask" with
      | none =>
        rw [hmask] at h
        cases h
      | some mask =>
        rw [hmask] at h
        cases h
        exact ⟨_, by rw [← gatherRows_map]; rfl⟩

theorem le_of_seqLenEffective (hmask : MaskRows batch) : ∀ len ∈ lens, len ≤ maxLen := by
  unfold seqLenEffective at h
  split at h
  · cases h
  · split at h
    · split at h
      · cases h
      · next maxSeqLen hmax =>
        cases h
        exact (max?_eq_some_iff.1 hmax).2
    · split at h
      · cases h
      · next mask hget =>
        cases h
        intro len hlen
        obtain ⟨row, hrow, rfl⟩ := mem_map.1 hlen
        exact hmask mask hget row hrow

end

theorem IsPartition.eq_singleton {m : Nat} (h : IsPartition m parts)
    (hlen : parts.length = m) (hp : p ∈ parts) : ∃ j < m, p = [j] := by
  have hone : p.length = 1 := by
    obtain ⟨before, after, rfl⟩ := append_of_mem hp
    have htotal := h.perm.length_eq
    rw [length_range, length_flatten, map_append, map_cons, sum_append,
      sum_cons] at htotal
    have hpos : ∀ qs : List (List Nat), (∀ q ∈ qs, q ≠ []) → qs.length ≤ (qs.map length).sum := by
      intro qs hqs
      induction qs with
      | nil => exact Nat.le_refl 0
      | cons q qs ih =>
        rw [forall_mem_cons] at hqs
        have hq := length_pos_iff.2 hqs.1
        have hrest := ih hqs.2
        rw [length_cons, map_cons, sum_cons]
        omega
    have hbefore := hpos before fun q hq => h.nonempty q (mem_append_left _ hq)
    have hafter := hpos after fun q hq =>
      h.nonempty q (mem_append_right _ (mem_cons_of_mem _ hq))
    have hself := length_pos_iff.2 (h.nonempty p hp)
    rw [length_append, length_cons] at hlen
    omega
  obtain ⟨j, rfl⟩ := length_eq_one_iff.1 hone
  exact ⟨j, (h.mem_iff j).2 ⟨_, hp, mem_singleton_self j⟩, rfl⟩

/-- The micro-batch of a part of the groups. -/
def rowsOfGroups (forceGroupSize : Nat) (part : List Nat) : List Nat :=
  if 1 < forceGroupSize then groupSamples forceGroupSize part else part

section Parts

variable [TokenRow τ] {isNested : Bool} {batch : TensorDict τ} {args : MicroBatchArgs}
  {microBatches : List (TensorDict τ)} {idxs : List (List Nat)} {lens : List Nat} {maxLen : Nat}
  {num : Int}

/-- A call balances the workloads of the groups. -/
theorem exists_parts_of_rearrangeMicroBatches
    (h : rearrangeMicroBatches isNested batch args = .ok (microBatches, idxs))
    (hlens : seqLenEffective isNested batch = .ok (lens, maxLen))
    (hnum : numMicroBatches args (lens.length / args.forceGroupSize) lens.sum = .ok num) :
    args.forceGroupSize ≠ 0 ∧ (maxLen : Int) ≤ args.maxTokenLen ∧
      ∃ parts, balancedPartitions (groupSums (lens.map calculateWorkload) args.forceGroupSize)
          num = .ok parts ∧
        ∀ part, part ∈ idxs ↔ ∃ p ∈ parts, part = rowsOfGroups args.forceGroupSize p := by
  unfold rearrangeMicroBatches at h
  rw [hlens, ok_bind] at h
  obtain ⟨_, hcap, h⟩ := bind_eq_ok.1 h
  by_cases hg : args.forceGroupSize = 0
  · rw [if_pos hg] at h
    cases h
  rw [if_neg hg] at h
  obtain ⟨_, -, h⟩ := bind_eq_ok.1 h
  rw [hnum, ok_bind] at h
  obtain ⟨parts, hparts, h⟩ := bind_eq_ok.1 h
  obtain ⟨mbs, -, h⟩ := bind_eq_ok.1 h
  have hidxsEq : (if args.useDynamicBszBalance then dynamicBszBalance
      (groupSums (lens.map calculateWorkload) args.forceGroupSize) args.forceGroupSize
        (if 1 < args.forceGroupSize then parts.map (groupSamples args.forceGroupSize) else parts)
      else if 1 < args.forceGroupSize then parts.map (groupSamples args.forceGroupSize)
        else parts) = idxs := congrArg Prod.snd (Except.ok.inj h)
  refine ⟨hg, of_decide_eq_true (pyAssert_eq_ok.1 hcap), parts, hparts, fun part => ?_⟩
  rw [← hidxsEq]
  exact mem_microBszIdx parts args.useDynamicBszBalance

/-- The tokens of a micro-batch are those of a set of groups. -/
theorem within_gather_iff (hlens : seqLenEffective isNested batch = .ok (lens, maxLen))
    (hidxs : MicroBatchIdxs batch.batchSize args.forceGroupSize idxs) {p : List Nat}
    (hmem : rowsOfGroups args.forceGroupSize p ∈ idxs)
    (hlt : ∀ j ∈ p, j < lens.length / args.forceGroupSize) :
    Within isNested args.maxTokenLen (batch.gather (rowsOfGroups args.forceGroupSize p)) ↔
      (((gatherRows (groupSums lens args.forceGroupSize) p).sum : Nat) : Int) ≤
        args.maxTokenLen := by
  obtain ⟨maxLen', hgather⟩ := seqLenEffective_gather hlens (hidxs.nonempty _ hmem)
    (by rw [(length_seqLenEffective hlens).1]; exact hidxs.lt _ hmem)
  unfold Within
  rw [hgather, rowsOfGroups, ← sum_part hlt]
  constructor
  · simp
  · exact fun hle => ⟨_, _, rfl, hle⟩

theorem sum_gatherRows_singleton_le (hlens : seqLenEffective isNested batch = .ok (lens, maxLen))
    (hmask : MaskRows batch) (hg : args.forceGroupSize ≠ 0)
    (hcap : (maxLen : Int) ≤ args.maxTokenLen)
    (hgroups : 1 < args.forceGroupSize → ∀ t ∈ groupSums lens args.forceGroupSize, ((t : Nat) : Int) ≤ args.maxTokenLen)
    {j : Nat} (hj : j < lens.length / args.forceGroupSize) :
    (((gatherRows (groupSums lens args.forceGroupSize) [j]).sum : Nat) : Int) ≤
      args.maxTokenLen := by
  obtain ⟨t, ht⟩ : ∃ t, (groupSums lens args.forceGroupSize)[j]? = some t :=
    ⟨_, getElem?_eq_getElem (by rwa [length_groupSums _ (Nat.pos_of_ne_zero hg)])⟩
  have hsum : gatherRows (groupSums lens args.forceGroupSize) [j] = [t] :=
    filterMap_cons_some ht
  rw [hsum, sum_singleton]
  by_cases h1 : 1 < args.forceGroupSize
  · exact hgroups h1 t (mem_of_getElem? ht)
  · unfold groupSums at ht
    rw [if_neg h1] at ht
    have hle := le_of_seqLenEffective hlens hmask t (mem_of_getElem? ht)
    omega

end Parts

/-! ## Top theorem -/

/-- Every micro-batch is in the bound where the workloads leave no room for a set of groups that is
not; and it takes that the groups can be put into that many micro-batches at all. -/
theorem rearrangeMicroBatches_within [TokenRow τ] {isNested : Bool} {batch : TensorDict τ}
    {args : MicroBatchArgs} {microBatches : List (TensorDict τ)} {idxs : List (List Nat)}
    {lens : List Nat} {maxLen : Nat} {num : Int}
    (h : rearrangeMicroBatches isNested batch args = .ok (microBatches, idxs))
    (hlens : seqLenEffective isNested batch = .ok (lens, maxLen)) (hmask : MaskRows batch)
    (hgroups : 1 < args.forceGroupSize → ∀ t ∈ groupSums lens args.forceGroupSize, ((t : Nat) : Int) ≤ args.maxTokenLen)
    (hnum : numMicroBatches args (lens.length / args.forceGroupSize) lens.sum = .ok num) :
    (Fits args.maxTokenLen num.toNat (groupSums lens args.forceGroupSize)
        (groupSums (lens.map calculateWorkload) args.forceGroupSize) →
      ∀ mb ∈ microBatches, Within isNested args.maxTokenLen mb) ∧
    ((∀ mb ∈ microBatches, Within isNested args.maxTokenLen mb) →
      Packable args.maxTokenLen num.toNat (groupSums lens args.forceGroupSize)) := by
  obtain ⟨hidxs, hmbs, -⟩ := rearrangeMicroBatches_spec h
  obtain ⟨hg, hcap, parts, hparts, hmem⟩ := exists_parts_of_rearrangeMicroBatches h hlens hnum
  have hgpos := Nat.pos_of_ne_zero hg
  have hworkloads : (groupSums (lens.map calculateWorkload) args.forceGroupSize).length =
      lens.length / args.forceGroupSize := by
    rw [length_groupSums _ hgpos, length_map]
  have hpartition : IsPartition (lens.length / args.forceGroupSize) parts := by
    rw [← hworkloads]
    exact isPartition_of_balancedPartitions hparts
  obtain ⟨hnumEq, hpos, hbalanced⟩ := balancedPartitions_balanced hparts fun x hx => le_foldr_max hx
  have hk : num.toNat = parts.length := by omega
  have hlt : ∀ p ∈ parts, ∀ j ∈ p, j < lens.length / args.forceGroupSize := fun p hp j hj =>
    (hpartition.mem_iff j).2 ⟨p, hp, hj⟩
  have hwithin : ∀ p ∈ parts,
      Within isNested args.maxTokenLen (batch.gather (rowsOfGroups args.forceGroupSize p)) ↔
        (((gatherRows (groupSums lens args.forceGroupSize) p).sum : Nat) : Int) ≤
          args.maxTokenLen := fun p hp =>
    within_gather_iff hlens hidxs ((hmem _).2 ⟨p, hp, rfl⟩) (hlt p hp)
  have hall : (∀ mb ∈ microBatches, Within isNested args.maxTokenLen mb) ↔
      ∀ p ∈ parts, (((gatherRows (groupSums lens args.forceGroupSize) p).sum : Nat) : Int) ≤
        args.maxTokenLen := by grind
  rw [hall]
  constructor
  · rintro (hsingle | hheavy) p hp
    · -- every group is a micro-batch of its own
      rw [length_groupSums _ hgpos, hk] at hsingle
      obtain ⟨j, hj, rfl⟩ := hpartition.eq_singleton hsingle hp
      exact sum_gatherRows_singleton_le hlens hmask hg hcap hgroups hj
    · -- a set of groups beyond the bound would be too heavy
      by_contra hover
      have hbound := mul_sum_le_of_balanced (by rw [hworkloads]; exact hpartition.perm) hbalanced hp
      have hnodup := (nodup_flatten.1
        (hpartition.perm.nodup_iff.2 nodup_range)).1 p hp
      have hless := hheavy p hnodup
        (fun j hj => by rw [length_groupSums _ hgpos]; exact hlt p hp j hj) (by omega)
      rw [hk] at hless
      omega
  · intro hle
    refine ⟨parts, hk.symm, ?_, hle⟩
    rw [length_groupSums _ hgpos]
    exact hpartition.perm

/-- Nested rows of six tokens each. -/
def sixTokenRows (n : Nat) : TensorDict (List Nat) where
  batchSize := n
  columns := { items := [("input_ids", List.replicate n [1, 2, 3, 4, 5, 6])]
               nodup := nodup_singleton _ }
  rows_eq := by
    intro c hc
    rw [mem_singleton.1 hc, length_replicate]

def tenTokens : MicroBatchArgs := { maxTokenLen := 10 }

theorem rearrangeMicroBatches_within_pair :
    ∃ microBatches idxs, rearrangeMicroBatches true (sixTokenRows 2) tenTokens =
        .ok (microBatches, idxs) ∧ ∀ mb ∈ microBatches, Within true 10 mb := by
  cases h : rearrangeMicroBatches true (sixTokenRows 2) tenTokens with
  | error e =>
    have hok : (rearrangeMicroBatches true (sixTokenRows 2) tenTokens).isOk = true := by
      decide +kernel
    rw [h] at hok
    cases hok
  | ok r =>
    have hlens : seqLenEffective true (sixTokenRows 2) = .ok ([6, 6], 6) := rfl
    have hmask : MaskRows (sixTokenRows 2) := fun mask hget => by cases hget
    have hnum : numMicroBatches tenTokens ([6, 6].length / 1) [6, 6].sum = .ok 2 := by decide
    exact ⟨r.1, r.2, rfl, (rearrangeMicroBatches_within h hlens hmask
      (fun h1 => absurd h1 (by decide)) hnum).1 (.inl rfl)⟩

/-- Three rows of six tokens make two micro-batches, one of them with twelve tokens. -/
theorem rearrangeMicroBatches_twelve_tokens :
    ∃ microBatches idxs, rearrangeMicroBatches true (sixTokenRows 3) tenTokens =
        .ok (microBatches, idxs) ∧ ∃ mb ∈ microBatches, ¬Within true 10 mb := by
  have hidxs : (rearrangeMicroBatches true (sixTokenRows 3) tenTokens).map Prod.snd =
      .ok [[0, 1], [2]] := by decide +kernel
  obtain ⟨⟨microBatches, idxs⟩, h, rfl⟩ := except_map_eq_ok.1 hidxs
  obtain ⟨-, hmbs, -⟩ := rearrangeMicroBatches_spec h
  refine ⟨microBatches, _, h, (sixTokenRows 3).gather [0, 1], ?_, ?_⟩
  · grind
  · rintro ⟨lens, maxLen, hlens, hle⟩
    have hgather : seqLenEffective true ((sixTokenRows 3).gather [0, 1]) = .ok ([6, 6], 6) := rfl
    rw [hgather] at hlens
    cases hlens
    exact absurd hle (by decide)

end Verl
