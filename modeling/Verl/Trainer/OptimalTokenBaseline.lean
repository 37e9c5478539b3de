import Verl.Lib.Grouping
import Verl.Trainer.AggLoss

/-! # The optimal token baseline (`verl/trainer/ppo/core_algos.py`)

Every position of the responses to a prompt has a baseline of its own; the end of a response that is
longer than all others has none.  It is computed twice:

* `computeMultiTurnOptimalTokenBaselineAdvantage`: at the places among the unmasked positions, for
  the rows that have one.

    mask         1 1 1 0 0        1 1 1
                 1 1 0 0 0        1 1
                 0 0 0 0 0        (left out)

Where the masks are right-padded the two agree (`otb_eq_multiTurn`). -/

namespace Verl.OptimalTokenBaseline

open List

/-! ## Algorithm -/

/-- The tensors of a batch. -/
structure Batch (K G : Type) (bsz seqLen : Nat) where
  tokenLevelRewards : Fin bsz → Fin seqLen → K
  responseMask : Fin bsz → Fin seqLen → Bool
  index : Fin bsz → G
  oldLogProbs : Fin bsz → Fin seqLen → K
  sumPiSquared : Fin bsz → Fin seqLen → K
  rolloutIsWeights : Option (Fin bsz → Fin seqLen → K)

section Algorithm

variable {K : Type} [Field K] {bsz seqLen : Nat}

def cumsum {n : Nat} (xs : Fin n → K) (t : Fin n) : K := ∑ j ∈ Finset.Iic t, xs j

def flip {n : Nat} (xs : Fin n → K) (t : Fin n) : K := xs t.rev

namespace Batch

variable {G : Type} (x : Batch K G bsz seqLen)

def mask (i : Fin bsz) (t : Fin seqLen) : K := if x.responseMask i t then 1 else 0

/-- The rewards from a position on. -/
def returns (i : Fin bsz) : Fin seqLen → K :=
  flip (cumsum (flip fun t => x.tokenLevelRewards i t * x.mask i t))

def wPerTimestep (exp : K → K) (i : Fin bsz) (t : Fin seqLen) : K :=
  let piT := exp (x.oldLogProbs i t)
  let w := 1 - 2 * piT + x.sumPiSquared i t
  match x.rolloutIsWeights with
  | none => w
  | some weights => w * weights i t ^ 2

/-- The cumulative path variance. -/
def wCumulative (exp : K → K) (i : Fin bsz) : Fin seqLen → K :=
  cumsum fun t => x.wPerTimestep exp i t * x.mask i t

/-- The unmasked positions of a row. -/
def unmasked (i : Fin bsz) : List (Fin seqLen) :=
  (List.finRange seqLen).filter fun t => x.responseMask i t

/-- `response_mask.sum(dim=-1)`. -/
def responseLengths (i : Fin bsz) : Nat := (x.unmasked i).length

end Batch

/-- A `defaultdict(list)` of the rows. -/
def promptGroups {G : Type} [DecidableEq G] (index : Fin bsz → G) (rows : List (Fin bsz)) :
    List (G × List (Fin bsz)) :=
  rows.foldl (fun d i => appendAt d (index i) i) []

section Baselines

variable {C : Type}

/-- `baselines[traj_idx] = baseline`, for a baseline of each column. -/
def assign (g : List (Fin bsz)) (baseline : C → Option K) (baselines : Fin bsz → C → Option K) :
    Fin bsz → C → Option K :=
  fun i t => if i ∈ g then baseline t else baselines i t

/-- The one longest row of a group, with the length of the second longest one. -/
def longest (responseLengths : Fin bsz → Nat) (g : List (Fin bsz)) : Option (Fin bsz × Nat) :=
  let sortedLengths := (g.map responseLengths).insertionSort (· ≤ ·)
  let maxLength := sortedLengths.getD (sortedLengths.length - 1) 0
  let secondMaxLength := sortedLengths.getD (sortedLengths.length - 2) 0
  match g.filter fun i => responseLengths i = maxLength with
  | [row] => if secondMaxLength < maxLength then some (row, secondMaxLength) else none
  | _ => none

def inTail (responseLengths : Fin bsz → Nat) (g : List (Fin bsz)) (i : Fin bsz) (column : Nat) :
    Bool :=
  match longest responseLengths g with
  | none => false
  | some (row, secondMaxLength) => i = row ∧ secondMaxLength ≤ column

/-- `baselines[max_length_traj_idx, second_max_length:] = 0.0`. -/
def zeroTail (column : C → Nat) (responseLengths : Fin bsz → Nat) (g : List (Fin bsz))
    (baselines : Fin bsz → C → Option K) : Fin bsz → C → Option K :=
  fun i t => if inTail responseLengths g i (column t) then some 0 else baselines i t

end Baselines

variable [LinearOrder K] {G : Type} (exp : K → K) (x : Batch K G bsz seqLen)
  (handleZeroTail : Bool) (epsilon : K)

/-! ### `compute_optimal_token_baseline_advantage` -/

/-- `baseline_per_step` of a group; divided by zero it is no number. -/
def baselinePerStep (g : List (Fin bsz)) (t : Fin seqLen) : Option K :=
  let numerator := (g.map fun i => x.returns i t * x.wCumulative exp i t * x.mask i t).sum
  let denominator := (g.map fun i => x.wCumulative exp i t * x.mask i t).sum + epsilon
  tensorDiv numerator denominator

/-- The turn of a group. -/
def otbStep (baselines : Fin bsz → Fin seqLen → Option K) (g : List (Fin bsz)) :
    Fin bsz → Fin seqLen → Option K :=
  if g.length = 1 then baselines
  else
    let baselines := assign g (baselinePerStep exp x epsilon g) baselines
    if handleZeroTail then zeroTail Fin.val x.responseLengths g baselines else baselines

/-- The advantages, and the returns. -/
def computeOptimalTokenBaselineAdvantage [DecidableEq G] :
    (Fin bsz → Fin seqLen → Option K) × (Fin bsz → Fin seqLen → K) :=
  let baselines := (promptGroups x.index (List.finRange bsz)).foldl
    (fun b p => otbStep exp x handleZeroTail epsilon b p.2) fun _ _ => some 0
  let advantages := fun i t => (baselines i t).map fun b => (x.returns i t - b) * x.mask i t
  (advantages, x.returns)

/-! ### `compute_multi_turn_optimal_token_baseline_advantage` -/

/-- `values[i, mask]` at the front of a row of zeros. -/
def compact (values : Fin bsz → Fin seqLen → K) (i : Fin bsz) (column : Nat) : K :=
  ((x.unmasked i).map (values i)).getD column 0

/-- The place of a position among the unmasked ones of the row. -/
def place (i : Fin bsz) (t : Fin seqLen) : Nat := ((x.unmasked i).filter fun s => s < t).length

def bStar (g : List (Fin bsz)) (column : Nat) : Option K :=
  let wGroup := compact x (x.wCumulative exp)
  let rGroup := compact x x.returns
  tensorDiv (g.map fun i => rGroup i column * wGroup i column).sum
    ((g.map fun i => wGroup i column).sum + epsilon)

/-- The turn of a group. -/
def multiTurnStep (baselines : Fin bsz → Nat → Option K) (g : List (Fin bsz)) :
    Fin bsz → Nat → Option K :=
  if g.length = 1 then assign g (fun _ => some 0) baselines
  else
    let baselines := assign g (bStar exp x epsilon g) baselines
    if handleZeroTail then zeroTail id x.responseLengths g baselines else baselines

/-- The advantages, and the returns. -/
def computeMultiTurnOptimalTokenBaselineAdvantage [DecidableEq G] :
    (Fin bsz → Fin seqLen → Option K) × (Fin bsz → Fin seqLen → K) :=
  let rows := (List.finRange bsz).filter fun i => x.responseLengths i ≠ 0
  let baselines := (promptGroups x.index rows).foldl
    (fun b p => multiTurnStep exp x handleZeroTail epsilon b p.2) fun _ _ => some 0
  let allAdvantages := fun i column =>
    (baselines i column).map fun b => compact x x.returns i column - b
  let advantages := fun i t =>
    (if x.responseMask i t then allAdvantages i (place x i t) else some 0).map (· * x.mask i t)
  (advantages, x.returns)

end Algorithm

/-- Every row of the mask is a run of ones followed by zeros. -/
def Batch.RightPadded {K G : Type} {bsz seqLen : Nat} (x : Batch K G bsz seqLen) : Prop :=
  ∀ i s t, s ≤ t → x.responseMask i t = true → x.responseMask i s = true

/-! ## Right-padded rows -/

section RightPadded

variable {K G : Type} [Field K] {bsz seqLen : Nat} {x : Batch K G bsz seqLen}

theorem filter_eq_take {α : Type} {p : α → Bool} {xs : List α}
    (h : xs.Pairwise fun a b => p b = true → p a = true) :
    xs.filter p = xs.take (xs.filter p).length := by
  induction xs with
  | nil => rfl
  | cons a xs ih =>
    rw [pairwise_cons] at h
    by_cases ha : p a = true
    · grind
    · have hnil : xs.filter p = [] :=
        filter_eq_nil_iff.2 fun b hb hpb => ha (h.1 b hb hpb)
      rw [filter_cons_of_neg ha, hnil]
      rfl

omit [Field K] in
theorem unmasked_eq (h : x.RightPadded) (i : Fin bsz) :
    x.unmasked i = (finRange seqLen).take (x.responseLengths i) := by
  refine filter_eq_take ?_
  have hsorted : (finRange seqLen).Pairwise (· < ·) := pairwise_lt_finRange seqLen
  exact hsorted.imp fun hst => h i _ _ hst.le

omit [Field K] in
theorem getElem?_unmasked (h : x.RightPadded) (i : Fin bsz) (t : Fin seqLen) :
    (x.unmasked i)[t.val]? = if t.val < x.responseLengths i then some t else none := by
  rw [unmasked_eq h, getElem?_take]
  refine if_congr Iff.rfl ?_ rfl
  rw [getElem?_eq_getElem (by rw [length_finRange]; exact t.isLt), getElem_finRange]
  rfl

omit [Field K] in
theorem responseMask_iff (h : x.RightPadded) (i : Fin bsz) (t : Fin seqLen) :
    x.responseMask i t = true ↔ t.val < x.responseLengths i := by
  have hmem : t ∈ x.unmasked i ↔ x.responseMask i t = true := by simp [Batch.unmasked]
  rw [← hmem]
  constructor
  · intro ht
    rw [unmasked_eq h] at ht
    obtain ⟨k, hk, rfl⟩ := mem_iff_getElem.1 ht
    rw [length_take] at hk
    rw [getElem_take, getElem_finRange]
    exact lt_of_lt_of_le hk (min_le_left _ _)
  · intro ht
    have hget := getElem?_unmasked h i t
    rw [if_pos ht] at hget
    exact mem_of_getElem? hget

theorem compact_eq (h : x.RightPadded) (values : Fin bsz → Fin seqLen → K) (i : Fin bsz)
    (t : Fin seqLen) :
    compact x values i t.val = if x.responseMask i t then values i t else 0 := by
  unfold compact
  rw [getD_eq_getElem?_getD, getElem?_map, getElem?_unmasked h]
  by_cases ht : t.val < x.responseLengths i
  · rw [if_pos ht, if_pos ((responseMask_iff h i t).2 ht)]
    rfl
  · rw [if_neg ht, if_neg fun hm => ht ((responseMask_iff h i t).1 hm)]
    rfl

omit [Field K] in
theorem place_eq (h : x.RightPadded) {i : Fin bsz} {t : Fin seqLen}
    (ht : x.responseMask i t = true) : place x i t = t.val := by
  have hbefore : (x.unmasked i).filter (fun s => s < t) =
      (finRange seqLen).filter fun s => s < t := by
    unfold Batch.unmasked
    rw [filter_filter]
    refine filter_congr fun s _ => ?_
    by_cases hs : s < t
    · rw [decide_eq_true hs, h i s t hs.le ht]
      rfl
    · grind
  unfold place
  rw [hbefore, length_filter_finRange, Finset.filter_gt_eq_Iio, Fin.card_Iio]

end RightPadded

/-! ## The longest row -/

section Longest

variable {bsz : Nat} {lengths : Fin bsz → Nat} {g : List (Fin bsz)}

theorem insertionSort_eq (xs : List Nat) : xs.insertionSort (· ≤ ·) = replicate (xs.count 0) 0 ++
      (xs.filter (· ≠ 0)).insertionSort (· ≤ ·) := by
  have hzeros : xs.filter (· == 0) = replicate (xs.count 0) 0 := filter_beq 0
  have hperm : (xs.insertionSort (· ≤ ·)).Perm (replicate (xs.count 0) 0 ++
      (xs.filter (· ≠ 0)).insertionSort (· ≤ ·)) := by
    refine (perm_insertionSort _ xs).trans ?_
    rw [← hzeros]
    refine (filter_append_perm (· == 0) xs).symm.trans (Perm.append_left _ ?_)
    refine Perm.trans (Perm.of_eq ?_) (perm_insertionSort _ _).symm
    exact filter_congr fun n _ => by by_cases hn : n = 0 <;> simp [hn]
  refine hperm.eq_of_pairwise' (pairwise_insertionSort _ _) ?_
  refine pairwise_append.2 ⟨pairwise_replicate.2 (.inr (Nat.le_refl 0)),
    pairwise_insertionSort _ _, fun a ha b _ => ?_⟩
  rw [eq_of_mem_replicate ha]
  exact Nat.zero_le b

/-- The `k`-th largest length, from zero. -/
def kthLargest (xs : List Nat) (k : Nat) : Nat :=
  (xs.insertionSort (· ≤ ·)).getD (xs.length - 1 - k) 0

theorem kthLargest_filter (xs : List Nat) {k : Nat} (hk : k < xs.length) :
    kthLargest xs k = if k < (xs.filter (· ≠ 0)).length then kthLargest (xs.filter (· ≠ 0)) k
      else 0 := by
  have hlength := congrArg length (insertionSort_eq xs)
  rw [length_insertionSort, length_append,
    length_insertionSort] at hlength
  unfold kthLargest
  rw [insertionSort_eq xs]
  split
  · grind
  · grind

theorem kthLargest_mem {xs : List Nat} {k : Nat} (hk : k < xs.length) : kthLargest xs k ∈ xs := by
  unfold kthLargest
  rw [← mem_insertionSort (· ≤ ·), getD_eq_getElem _ _ (by
    rw [length_insertionSort]
    omega)]
  exact getElem_mem _

theorem longest_eq (lengths : Fin bsz → Nat) (g : List (Fin bsz)) : longest lengths g =
      match g.filter fun i => lengths i = kthLargest (g.map lengths) 0 with
      | [row] =>
        if kthLargest (g.map lengths) 1 < kthLargest (g.map lengths) 0 then
          some (row, kthLargest (g.map lengths) 1)
        else none
      | _ => none := by
  unfold longest kthLargest
  dsimp only
  rw [length_insertionSort, Nat.sub_zero, Nat.sub_sub]

theorem mem_of_longest {row : Fin bsz} {secondMaxLength : Nat}
    (h : longest lengths g = some (row, secondMaxLength)) : row ∈ g := by
  rw [longest_eq] at h
  split at h
  · next r hr =>
    split at h
    · cases h
      have hmem : row ∈ g.filter fun i => lengths i = kthLargest (g.map lengths) 0 := by grind
      exact mem_of_mem_filter hmem
    · cases h
  · cases h

theorem filter_longest {n : Nat} (hn : n ≠ 0) :
    (g.filter fun i => lengths i ≠ 0).filter (fun i => lengths i = n) =
      g.filter fun i => lengths i = n := by
  rw [filter_filter]
  refine filter_congr fun i _ => ?_
  by_cases hi : lengths i = n
  · grind
  · grind

theorem kthLargest_map_filter {k : Nat} (hk : k < g.length) : kthLargest (g.map lengths) k =
      if k < (g.filter fun i => lengths i ≠ 0).length then
        kthLargest ((g.filter fun i => lengths i ≠ 0).map lengths) k
      else 0 := by
  have hfilter : (g.map lengths).filter (· ≠ 0) = (g.filter fun i => lengths i ≠ 0).map lengths :=
    filter_map
  rw [kthLargest_filter _ (by rwa [length_map]), hfilter, length_map]

theorem longest_filter (h : 2 ≤ (g.filter fun i => lengths i ≠ 0).length) :
    longest lengths (g.filter fun i => lengths i ≠ 0) = longest lengths g := by
  have hle := length_filter_le (fun i => decide (lengths i ≠ 0)) g
  have hmem : kthLargest ((g.filter fun i => lengths i ≠ 0).map lengths) 0 ∈
      (g.filter fun i => lengths i ≠ 0).map lengths :=
    kthLargest_mem (by rw [length_map]; omega)
  have hne : kthLargest ((g.filter fun i => lengths i ≠ 0).map lengths) 0 ≠ 0 := by grind
  have hlargest : kthLargest (g.map lengths) 0 =
      kthLargest ((g.filter fun i => lengths i ≠ 0).map lengths) 0 := by
    rw [kthLargest_map_filter (by omega), if_pos (by omega)]
  have hsecond : kthLargest (g.map lengths) 1 =
      kthLargest ((g.filter fun i => lengths i ≠ 0).map lengths) 1 := by
    rw [kthLargest_map_filter (by omega), if_pos (by omega)]
  rw [longest_eq lengths g, hlargest, hsecond, ← filter_longest hne, ← longest_eq]

theorem longest_of_singleton {row : Fin bsz} (h : (g.filter fun i => lengths i ≠ 0) = [row])
    (hlength : 2 ≤ g.length) : longest lengths g = some (row, 0) := by
  have hrow : lengths row ≠ 0 := by
    have hmem : row ∈ g.filter fun i => lengths i ≠ 0 := by grind
    exact of_decide_eq_true (mem_filter.1 hmem).2
  have hmax : kthLargest (g.map lengths) 0 = lengths row := by
    rw [kthLargest_map_filter (by omega), h]
    rfl
  have hsecond : kthLargest (g.map lengths) 1 = 0 := by
    rw [kthLargest_map_filter (by omega), h]
    rfl
  have hself : [row].filter (fun i => lengths i = lengths row) = [row] :=
    filter_cons_of_pos (decide_eq_true rfl)
  rw [longest_eq, hmax, hsecond, ← filter_longest hrow, h, hself]
  exact if_pos (Nat.pos_of_ne_zero hrow)

end Longest

/-! ## The loops over the groups -/

section Loops

variable {K : Type} [Field K] {bsz seqLen : Nat}

theorem mem_of_inTail {lengths : Fin bsz → Nat} {g : List (Fin bsz)} {i : Fin bsz} {column : Nat}
    (h : inTail lengths g i column = true) : i ∈ g := by
  unfold inTail at h
  split at h
  · cases h
  · next row secondMaxLength hlongest =>
    rw [(of_decide_eq_true h).1]
    exact mem_of_longest hlongest

/-- The baselines of a row in the turn of its group. -/
def groupRow {C : Type} (column : C → Nat) (lengths : Fin bsz → Nat) (handleZeroTail : Bool)
    (baseline : List (Fin bsz) → C → Option K) (g : List (Fin bsz)) (i : Fin bsz) (t : C) :
    Option K :=
  if handleZeroTail && inTail lengths g i (column t) then some 0 else baseline g t

theorem assign_zeroTail {C : Type} (column : C → Nat) (lengths : Fin bsz → Nat)
    (handleZeroTail : Bool) (baseline : List (Fin bsz) → C → Option K)
    (baselines : Fin bsz → C → Option K) (g : List (Fin bsz)) (i : Fin bsz) :
    (if handleZeroTail then zeroTail column lengths g (assign g (baseline g) baselines)
      else assign g (baseline g) baselines) i =
      if i ∈ g then groupRow column lengths handleZeroTail baseline g i else baselines i := by
  by_cases hi : i ∈ g
  · rw [if_pos hi]
    funext t
    have hassign : assign g (baseline g) baselines i t = baseline g t := if_pos hi
    cases handleZeroTail with
    | false => exact hassign
    | true =>
      show (if inTail lengths g i (column t) then some 0
        else assign g (baseline g) baselines i t) = _
      rw [hassign]
      rfl
  · rw [if_neg hi]
    funext t
    have hassign : assign g (baseline g) baselines i t = baselines i t := if_neg hi
    cases handleZeroTail with
    | false => exact hassign
    | true => exact (if_neg fun htail => hi (mem_of_inTail htail)).trans hassign

variable {G : Type}

/-- The rows of the prompt of a row. -/
def groupOf [DecidableEq G] (index : Fin bsz → G) (rows : List (Fin bsz)) (i : Fin bsz) : List (Fin bsz) :=
  rows.filter fun j => index j = index i

theorem foldl_promptGroups [DecidableEq G] (index : Fin bsz → G) (rows : List (Fin bsz)) {B : Type}
    {step : (Fin bsz → B) → List (Fin bsz) → Fin bsz → B}
    {row : List (Fin bsz) → Fin bsz → B → B}
    (hstep : ∀ b g i, step b g i = if i ∈ g then row g i (b i) else b i) (b : Fin bsz → B)
    {i : Fin bsz} (hi : i ∈ rows) :
    (promptGroups index rows).foldl (fun b p => step b p.2) b i =
      row (groupOf index rows i) i (b i) := by
  have hkeys : ((promptGroups index rows).map Prod.fst).Nodup :=
    nodup_keys_foldl_appendAt index id rows [] nodup_nil
  have hlist : listAt (promptGroups index rows) (index i) = groupOf index rows i := by
    have hfold := listAt_foldl_appendAt index id rows [] (index i)
    rw [map_id] at hfold
    exact hfold
  have hmem : i ∈ groupOf index rows i :=
    mem_filter.2 ⟨hi, decide_eq_true rfl⟩
  rw [foldl_groups index hkeys (fun p hp j hj => label_of_mem_foldl_appendAt index rows hp hj) hstep,
    hlist, if_pos hmem]

variable [LinearOrder K] (exp : K → K) (x : Batch K G bsz seqLen) (handleZeroTail : Bool)
  (epsilon : K)

def otbRow (g : List (Fin bsz)) (i : Fin bsz) (previous : Fin seqLen → Option K) :
    Fin seqLen → Option K :=
  if g.length = 1 then previous
  else groupRow Fin.val x.responseLengths handleZeroTail (baselinePerStep exp x epsilon) g i

theorem otbStep_apply (baselines : Fin bsz → Fin seqLen → Option K) (g : List (Fin bsz))
    (i : Fin bsz) :
    otbStep exp x handleZeroTail epsilon baselines g i =
      if i ∈ g then otbRow exp x handleZeroTail epsilon g i (baselines i) else baselines i := by
  unfold otbStep otbRow
  by_cases hone : g.length = 1
  · rw [if_pos hone, if_pos hone, ite_self]
  · rw [if_neg hone, if_neg hone]
    exact assign_zeroTail Fin.val x.responseLengths handleZeroTail (baselinePerStep exp x epsilon)
      baselines g i

def multiTurnRow (g : List (Fin bsz)) (i : Fin bsz) (_previous : Nat → Option K) :
    Nat → Option K :=
  if g.length = 1 then fun _ => some 0
  else groupRow id x.responseLengths handleZeroTail (bStar exp x epsilon) g i

theorem multiTurnStep_apply (baselines : Fin bsz → Nat → Option K) (g : List (Fin bsz))
    (i : Fin bsz) :
    multiTurnStep exp x handleZeroTail epsilon baselines g i =
      if i ∈ g then multiTurnRow exp x handleZeroTail epsilon g i (baselines i)
      else baselines i := by
  unfold multiTurnStep multiTurnRow
  by_cases hone : g.length = 1
  · rw [if_pos hone]
    unfold assign
    split <;> rfl
  · rw [if_neg hone, if_neg hone]
    exact assign_zeroTail id x.responseLengths handleZeroTail (bStar exp x epsilon) baselines g i

end Loops

/-! ## Both computations -/

section Agree

variable {K G : Type} [Field K] [LinearOrder K] [DecidableEq G] {bsz seqLen : Nat} (exp : K → K)
  (x : Batch K G bsz seqLen) (epsilon : K)

/-- The rows with a response. -/
def responseRows (x : Batch K G bsz seqLen) : List (Fin bsz) :=
  (List.finRange bsz).filter fun i => x.responseLengths i ≠ 0

omit [Field K] [LinearOrder K] in
theorem groupOf_responseRows (i : Fin bsz) : groupOf x.index (responseRows x) i =
      (groupOf x.index (finRange bsz) i).filter fun j => x.responseLengths j ≠ 0 := by
  unfold groupOf responseRows
  rw [filter_filter, filter_filter]
  exact filter_congr fun j _ => Bool.and_comm _ _

omit [LinearOrder K] in
theorem sum_map_filter_of_zero {α : Type} {p : α → Bool} {f : α → K} {xs : List α}
    (h : ∀ a ∈ xs, p a = false → f a = 0) : ((xs.filter p).map f).sum = (xs.map f).sum := by
  induction xs with
  | nil => rfl
  | cons a xs ih =>
    have ih := ih fun b hb => h b (mem_cons_of_mem a hb)
    cases ha : p a with
    | true => rw [filter_cons_of_pos ha, map_cons, sum_cons, ih, map_cons,
        sum_cons]
    | false =>
      rw [filter_cons_of_neg (by rw [ha]; exact Bool.false_ne_true), ih, map_cons,
        sum_cons, h a mem_cons_self ha, zero_add]

omit [DecidableEq G] in
theorem bStar_eq (h : x.RightPadded) (g : List (Fin bsz)) (t : Fin seqLen) :
    bStar exp x epsilon (g.filter fun j => x.responseLengths j ≠ 0) t.val =
      baselinePerStep exp x epsilon g t := by
  have hempty : ∀ j, decide (x.responseLengths j ≠ 0) = false → x.mask j t = 0 := by
    intro j hj
    have hzero : x.responseLengths j = 0 := not_not.1 (of_decide_eq_false hj)
    exact if_neg fun hm => by
      have hlt := (responseMask_iff h j t).1 hm
      omega
  have hw : ∀ j, compact x (x.wCumulative exp) j t.val = x.wCumulative exp j t * x.mask j t := by
    intro j
    rw [compact_eq h]
    unfold Batch.mask
    split
    · rw [mul_one]
    · rw [mul_zero]
  have hr : ∀ j, compact x x.returns j t.val * compact x (x.wCumulative exp) j t.val =
      x.returns j t * x.wCumulative exp j t * x.mask j t := by
    intro j
    rw [compact_eq h, compact_eq h]
    unfold Batch.mask
    split
    · rw [mul_one]
    · rw [mul_zero, mul_zero]
  unfold bStar baselinePerStep
  simp only [hr]
  simp only [hw]
  rw [sum_map_filter_of_zero fun j _ hj => by rw [hempty j hj, mul_zero],
    sum_map_filter_of_zero fun j _ hj => by rw [hempty j hj, mul_zero]]

theorem baselines_eq (h : x.RightPadded) {i : Fin bsz} {t : Fin seqLen}
    (ht : x.responseMask i t = true) :
    (promptGroups x.index (finRange bsz)).foldl
        (fun b p => otbStep exp x true epsilon b p.2) (fun _ _ => some 0) i t =
      (promptGroups x.index (responseRows x)).foldl
        (fun b p => multiTurnStep exp x true epsilon b p.2) (fun _ _ => some 0) i t.val := by
  have hlength : x.responseLengths i ≠ 0 := by
    have hlt := (responseMask_iff h i t).1 ht
    omega
  have hrow : i ∈ responseRows x :=
    mem_filter.2 ⟨mem_finRange i, decide_eq_true hlength⟩
  have hmem : i ∈ groupOf x.index (finRange bsz) i :=
    mem_filter.2 ⟨mem_finRange i, decide_eq_true rfl⟩
  have hmem' : i ∈ groupOf x.index (responseRows x) i :=
    mem_filter.2 ⟨hrow, decide_eq_true rfl⟩
  rw [foldl_promptGroups x.index (finRange bsz) (otbStep_apply exp x true epsilon) _
      (mem_finRange i),
    foldl_promptGroups x.index (responseRows x) (multiTurnStep_apply exp x true epsilon) _ hrow]
  unfold otbRow multiTurnRow
  rw [groupOf_responseRows] at hmem' ⊢
  set g := groupOf x.index (finRange bsz) i
  by_cases hone : (g.filter fun j => x.responseLengths j ≠ 0).length = 1
  · rw [if_pos hone]
    -- the only response of its prompt
    obtain ⟨row, hsingle⟩ := length_eq_one_iff.1 hone
    obtain rfl : i = row := by grind
    by_cases hall : g.length = 1
    · rw [if_pos hall]
    · have hpos := length_pos_of_mem hmem
      have htail : inTail x.responseLengths g i t.val = true := by
        simp [inTail, longest_of_singleton hsingle (by omega)]
      rw [if_neg hall]
      unfold groupRow
      rw [htail]
      rfl
  · have hpos := length_pos_of_mem hmem'
    have hle := length_filter_le (fun j => decide (x.responseLengths j ≠ 0)) g
    rw [if_neg hone, if_neg (by omega)]
    unfold groupRow inTail
    rw [bStar_eq exp x epsilon h, longest_filter (by omega)]
    rfl

end Agree

/-! ## Top theorem -/

/-- With right-padded masks both computations give every unmasked position the same advantage, and
every position the same return. -/
theorem otb_eq_multiTurn {K G : Type} [Field K] [LinearOrder K] [DecidableEq G] {bsz seqLen : Nat}
    (exp : K → K) (x : Batch K G bsz seqLen) (epsilon : K) (h : x.RightPadded) :
    (∀ i t, x.responseMask i t = true →
      (computeOptimalTokenBaselineAdvantage exp x true epsilon).1 i t =
        (computeMultiTurnOptimalTokenBaselineAdvantage exp x true epsilon).1 i t) ∧
    ∀ i t, (computeOptimalTokenBaselineAdvantage exp x true epsilon).2 i t =
      (computeMultiTurnOptimalTokenBaselineAdvantage exp x true epsilon).2 i t := by
  refine ⟨fun i t ht => ?_, fun i t => rfl⟩
  have hmask : x.mask i t = 1 := if_pos ht
  have hreturn : compact x x.returns i t.val = x.returns i t := by
    rw [compact_eq h, if_pos ht]
  have hbaseline := baselines_eq exp x epsilon h ht
  unfold computeOptimalTokenBaselineAdvantage computeMultiTurnOptimalTokenBaselineAdvantage
  dsimp only
  rw [hbaseline, if_pos ht, place_eq h ht, hreturn, Option.map_map]
  rfl

/-- Three responses to one prompt, of the lengths 3, 2 and 0. -/
def threeLengths : Batch ℚ String 3 3 where
  tokenLevelRewards := fun i t => i + t
  responseMask := fun i t => t.val < ![3, 2, 0] i
  index := fun _ => "uid"
  oldLogProbs := fun _ _ => 1 / 2
  sumPiSquared := fun _ _ => 1
  rolloutIsWeights := none

theorem otb_eq_multiTurn_threeLengths : (∀ i t, threeLengths.responseMask i t = true →
      (computeOptimalTokenBaselineAdvantage id threeLengths true (1 / 10 ^ 8)).1 i t =
        (computeMultiTurnOptimalTokenBaselineAdvantage id threeLengths true (1 / 10 ^ 8)).1 i t) ∧
    ∀ i t, (computeOptimalTokenBaselineAdvantage id threeLengths true (1 / 10 ^ 8)).2 i t =
      (computeMultiTurnOptimalTokenBaselineAdvantage id threeLengths true (1 / 10 ^ 8)).2 i t :=
  otb_eq_multiTurn id threeLengths (1 / 10 ^ 8) (by unfold Batch.RightPadded; decide)

end Verl.OptimalTokenBaseline
