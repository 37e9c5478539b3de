import Verl.Lib.Shards
import Verl.Lib.Softmax

/-! # The vocabulary-parallel distillation loss (`trainer/distillation/megatron/losses.py`)

The `tp` ranks of a tensor-parallel group have the logits of `p` vocabulary entries each.
`_VocabParallelKLDivergence` compares the student with the top-k entries of the teacher, each rank
for the entries of its own shard:

    logits -- vocab_parallel_log_softmax --> log-probs of the shard
           -- gather, clamp, mask        --> terms of the shard -- all_reduce --> loss, masses
    saved  -- scale, scatter_add_        --> gradient of the shard

* `vocabParallelLogSoftmax_eq`: the shards have the log-softmax of the whole row.
* `forward_eq`, `backward_eq`: loss, masses and gradient as sums over the teacher's entries in
  which the cut of the vocabulary does not appear.
* `vocabParallel_eq_single`: the run on the shards against the run on one shard.
* `backendsAgree_iff`: when the loss of FSDP has the same masses; the shards sum the clamped
  entries, FSDP the entries as they are. -/

namespace Verl.VocabParallelKL

open Shards

/-- The functions of Megatron that the loss calls. -/
structure Megatron where
  /-- The row as floats, and its greatest entry. -/
  calculateLogitsMax : {p : Nat} → (Fin p → ℝ) → (Fin p → ℝ) × ℝ
  /-- The first entry of the vocabulary that a rank has, and the end of its range. -/
  vocabRange : (partitionVocabSize rank worldSize : Nat) → Nat × Nat
  logits_eq : ∀ {p : Nat} (row : Fin p → ℝ), (calculateLogitsMax row).1 = row
  vocabRange_eq : ∀ partitionVocabSize rank worldSize,
    vocabRange partitionVocabSize rank worldSize =
      (rank * partitionVocabSize, rank * partitionVocabSize + partitionVocabSize)

/-! ## One token -/

section Token

variable (megatron : Megatron) {tp p topk : Nat}

/-- `all_reduce` with `ReduceOp.SUM`; every rank has the result. -/
def allReduceSum (parts : Fin tp → ℝ) : ℝ := ∑ rank, parts rank

/-- `all_reduce` with `ReduceOp.MAX`. -/
noncomputable def allReduceMax [NeZero tp] (parts : Fin tp → ℝ) : ℝ :=
  Finset.univ.sup' Finset.univ_nonempty parts

noncomputable def vocabParallelLogSoftmax [NeZero tp] (vpLogits : Fin tp → Fin p → ℝ) :
    Fin tp → Fin p → ℝ :=
  let logitsMax := allReduceMax fun rank => (megatron.calculateLogitsMax (vpLogits rank)).2
  let shifted rank i := (megatron.calculateLogitsMax (vpLogits rank)).1 i - logitsMax
  let sumExpLogits := allReduceSum fun rank => ∑ i, Real.exp (shifted rank i)
  fun rank i => shifted rank i - Real.log sumExpLogits

/-- `topk_indices_in_vocab_mask`. -/
def inVocab (p : Nat) (rank : Fin tp) (index : Int) : Bool :=
  let range := megatron.vocabRange p rank tp
  decide ((range.1 : Int) ≤ index) && decide (index < range.2)

/-- The index on the shard, 0 as a dummy for an entry of another shard. -/
def localIndex (p : Nat) (rank : Fin tp) (index : Int) : Int :=
  if inVocab megatron p rank index then index - (megatron.vocabRange p rank tp).1 else 0

/-- `clamp_min`, if there is a clamp. -/
noncomputable def clampMin (logProbMinClamp : Option ℝ) (x : ℝ) : ℝ :=
  match logProbMinClamp with
  | none => x
  | some c => max x c

/-- The top-k entries of the teacher for a token, with ids of the whole vocabulary. -/
structure Teacher (topk : Nat) where
  topkLogps : Fin topk → ℝ
  topkIndices : Fin topk → Int

variable (teacher : Teacher topk) (logProbMinClamp : Option ℝ)

/-- `target_topk_probs` before the mask. -/
noncomputable def targetProb (i : Fin topk) : ℝ :=
  Real.exp (clampMin logProbMinClamp (teacher.topkLogps i))

noncomputable def targetTopkMass : ℝ := ∑ i, targetProb teacher logProbMinClamp i

section Shard

variable (rank : Fin tp) (vpSourceLogps : Fin p → ℝ) (i : Fin topk)

noncomputable def maskedTargetProb : ℝ :=
  if inVocab megatron p rank (teacher.topkIndices i) then targetProb teacher logProbMinClamp i else 0

noncomputable def maskedTargetLogp : ℝ :=
  if inVocab megatron p rank (teacher.topkIndices i) then
    clampMin logProbMinClamp (teacher.topkLogps i)
  else 0

/-- `vp_source_topk_logps` before the clamp. -/
noncomputable def sourceTopkLogp : ℝ :=
  Shards.gather vpSourceLogps (localIndex megatron p rank (teacher.topkIndices i))

noncomputable def activeMask : Bool :=
  inVocab megatron p rank (teacher.topkIndices i) &&
    match logProbMinClamp with
    | none => true
    | some c => decide (c < sourceTopkLogp megatron teacher rank vpSourceLogps i)

noncomputable def maskedSourceLogp : ℝ :=
  if inVocab megatron p rank (teacher.topkIndices i) then
    clampMin logProbMinClamp (sourceTopkLogp megatron teacher rank vpSourceLogps i)
  else 0

/-- `target_active_probs`. -/
noncomputable def activeProb : ℝ :=
  if activeMask megatron teacher logProbMinClamp rank vpSourceLogps i then
    maskedTargetProb megatron (p := p) teacher logProbMinClamp rank i
  else 0

end Shard

/-- The tensors that `save_for_backward` keeps. -/
structure Saved (p topk : Nat) where
  vpSourceProbs : Fin p → ℝ
  targetTopkProbs : Fin topk → ℝ
  targetTopkIndices : Fin topk → Int
  activeMask : Fin topk → Bool
  targetActiveMass : ℝ

structure Output (p topk : Nat) where
  loss : ℝ
  sourceMass : ℝ
  targetMass : ℝ
  saved : Saved p topk

/-- `forward` on every rank. -/
noncomputable def forward [NeZero tp] (vpLogits : Fin tp → Fin p → ℝ) (rank : Fin tp) :
    Output p topk :=
  let vpSourceLogps := vocabParallelLogSoftmax megatron vpLogits
  let targetActiveMass :=
    match logProbMinClamp with
    | some c => allReduceSum fun rank =>
        ∑ i, activeProb megatron teacher (some c) rank (vpSourceLogps rank) i
    | none => targetTopkMass teacher none
  { loss := allReduceSum fun rank => ∑ i,
      maskedTargetProb megatron (p := p) teacher logProbMinClamp rank i *
        (maskedTargetLogp megatron (p := p) teacher logProbMinClamp rank i -
          maskedSourceLogp megatron teacher logProbMinClamp rank (vpSourceLogps rank) i)
    sourceMass := allReduceSum fun rank => ∑ i,
      Real.exp (maskedSourceLogp megatron teacher logProbMinClamp rank (vpSourceLogps rank) i) *
        (if inVocab megatron p rank (teacher.topkIndices i) then 1 else 0)
    targetMass := targetTopkMass teacher logProbMinClamp
    saved :=
      { vpSourceProbs := fun j => Real.exp (vpSourceLogps rank j)
        targetTopkProbs := maskedTargetProb megatron (p := p) teacher logProbMinClamp rank
        targetTopkIndices := fun i => localIndex megatron p rank (teacher.topkIndices i)
        activeMask := activeMask megatron teacher logProbMinClamp rank (vpSourceLogps rank)
        targetActiveMass := targetActiveMass } }

/-- `scatter_add_` along the vocabulary; repeated indices accumulate. -/
def scatterAdd (row : Fin p → ℝ) (index : Fin topk → Int) (src : Fin topk → ℝ) (j : Fin p) : ℝ :=
  row j + ∑ i with index i = (j : Nat), src i

noncomputable def backward (saved : Saved p topk) (gradLoss : ℝ) (j : Fin p) : ℝ :=
  let gradInput j := saved.vpSourceProbs j * saved.targetActiveMass
  let sub i := saved.targetTopkProbs i * if saved.activeMask i then 1 else 0
  scatterAdd gradInput saved.targetTopkIndices (fun i => -sub i) j * gradLoss

end Token

section Tensors

variable (megatron : Megatron) {tp p topk n : Nat} [NeZero tp] (logProbMinClamp : Option ℝ)

/-- `_VocabParallelKLDivergence.forward` for all tokens. -/
noncomputable def forwardTokens (vpLogits : Fin tp → Fin n → Fin p → ℝ)
    (teacher : Fin n → Teacher topk) (rank : Fin tp) (t : Fin n) : Output p topk :=
  forward megatron (teacher t) logProbMinClamp (fun rank => vpLogits rank t) rank

/-- The gradient of the logits on every rank. -/
noncomputable def gradInput (vpLogits : Fin tp → Fin n → Fin p → ℝ)
    (teacher : Fin n → Teacher topk) (gradLoss : Fin n → ℝ) (rank : Fin tp) (t : Fin n) :
    Fin p → ℝ :=
  backward (forwardTokens megatron logProbMinClamp vpLogits teacher rank t).saved (gradLoss t)

end Tensors

/-! ## The log-softmax -/

section LogSoftmax

variable (megatron : Megatron) {tp p : Nat} [NeZero tp]

theorem vocabParallelLogSoftmax_eq (vpLogits : Fin tp → Fin p → ℝ) (rank : Fin tp) (i : Fin p) :
    vocabParallelLogSoftmax megatron vpLogits rank i =
      vpLogits rank i - Real.log (∑ rank, ∑ i, Real.exp (vpLogits rank i)) := by
  unfold vocabParallelLogSoftmax allReduceSum
  simp only [megatron.logits_eq]
  set shift := allReduceMax fun rank => (megatron.calculateLogitsMax (vpLogits rank)).2
  have hpos : 0 < ∑ rank, ∑ i, Real.exp (vpLogits rank i) := by
    refine Finset.sum_pos (fun rank _ => ?_) ⟨rank, Finset.mem_univ _⟩
    exact Finset.sum_pos (fun i _ => Real.exp_pos _) ⟨i, Finset.mem_univ _⟩
  have hsum : ∑ rank, ∑ i, Real.exp (vpLogits rank i - shift) =
      (∑ rank, ∑ i, Real.exp (vpLogits rank i)) * Real.exp (-shift) := by
    simp [Finset.sum_mul, ← Real.exp_add, sub_eq_add_neg]
  rw [hsum, Real.log_mul hpos.ne' (Real.exp_pos _).ne', Real.log_exp]
  ring

theorem vocabParallelLogSoftmax_shard (logits : Fin (tp * p) → ℝ) (rank : Fin tp) :
    vocabParallelLogSoftmax megatron (shard logits) rank =
      shard (Softmax.logSoftmax logits) rank := by
  funext i
  rw [vocabParallelLogSoftmax_eq]
  show logits (globalIndex rank i) -
    Real.log (∑ rank, ∑ i, Real.exp (logits (globalIndex rank i))) = _
  rw [sum_globalIndex fun v => Real.exp (logits v)]
  rfl

theorem vocabParallelLogSoftmax_single {V : Nat} (logits : Fin V → ℝ) (rank : Fin 1) :
    vocabParallelLogSoftmax megatron (fun _ => logits) rank = Softmax.logSoftmax logits := by
  funext i
  rw [vocabParallelLogSoftmax_eq, Fin.sum_univ_one]
  rfl

end LogSoftmax

/-! ## Sums over the entries of the teacher -/

section Entries

variable (megatron : Megatron) {tp p topk V : Nat} (teacher : Teacher topk)
  (logProbMinClamp : Option ℝ) (logps : Fin V → ℝ)

/-- The id is one of the vocabulary. -/
def Known (V : Nat) (index : Int) : Prop := 0 ≤ index ∧ index < V

instance (index : Int) : Decidable (Known V index) := by
  unfold Known
  infer_instance

/-- Known, and above the clamp for the student. -/
def Active (i : Fin topk) : Prop :=
  Known V (teacher.topkIndices i) ∧
    ∀ c, logProbMinClamp = some c → c < Shards.gather logps (teacher.topkIndices i)

noncomputable def klLoss : ℝ :=
  ∑ i, if Known V (teacher.topkIndices i) then
    targetProb teacher logProbMinClamp i * (clampMin logProbMinClamp (teacher.topkLogps i) -
      clampMin logProbMinClamp (Shards.gather logps (teacher.topkIndices i)))
  else 0

noncomputable def studentMass : ℝ :=
  ∑ i, if Known V (teacher.topkIndices i) then
    Real.exp (clampMin logProbMinClamp (Shards.gather logps (teacher.topkIndices i)))
  else 0

open Classical in
/-- `m_A`; without a clamp it is the whole mass of the teacher. -/
noncomputable def activeMass : ℝ :=
  match logProbMinClamp with
  | some c => ∑ i, if Active teacher (some c) logps i then targetProb teacher (some c) i else 0
  | none => targetTopkMass teacher none

open Classical in
noncomputable def gradient (gradLoss : ℝ) (index : Int) : ℝ :=
  (Real.exp (Shards.gather logps index) * activeMass teacher logProbMinClamp logps -
    ∑ i, if Active teacher logProbMinClamp logps i ∧ teacher.topkIndices i = index then
      targetProb teacher logProbMinClamp i else 0) * gradLoss

/-- The ranks have the log-probs of the vocabulary, one shard each. -/
structure CutOf (vpLogps : Fin tp → Fin p → ℝ) (logps : Fin V → ℝ) : Prop where
  size : V = tp * p
  gather_eq : ∀ rank index, Owns p rank index →
    Shards.gather (vpLogps rank) (index - (rank * p : Nat)) = Shards.gather logps index

theorem cutOf_shard [NeZero tp] (logits : Fin (tp * p) → ℝ) :
    CutOf (vocabParallelLogSoftmax megatron (shard logits)) (Softmax.logSoftmax logits) := by
  refine ⟨rfl, fun rank index howns => ?_⟩
  rw [vocabParallelLogSoftmax_shard, gather_shard _ howns]

theorem cutOf_single (logits : Fin V → ℝ) :
    CutOf (vocabParallelLogSoftmax megatron fun _ : Fin 1 => logits)
      (Softmax.logSoftmax logits) := by
  refine ⟨(one_mul V).symm, fun rank index _ => ?_⟩
  rw [vocabParallelLogSoftmax_single]
  simp

variable {logps} {vpLogps : Fin tp → Fin p → ℝ} (rank : Fin tp) (i : Fin topk)

theorem inVocab_iff (index : Int) : inVocab megatron p rank index = true ↔ Owns p rank index := by
  unfold inVocab Owns
  rw [megatron.vocabRange_eq, Bool.and_eq_true, decide_eq_true_iff, decide_eq_true_iff]

theorem localIndex_eq {index : Int} (h : Owns p rank index) :
    localIndex megatron p rank index = index - (rank * p : Nat) := by
  unfold localIndex
  rw [if_pos ((inVocab_iff megatron rank index).2 h), megatron.vocabRange_eq]

theorem maskedTargetProb_eq : maskedTargetProb megatron (p := p) teacher logProbMinClamp rank i =
      if Owns p rank (teacher.topkIndices i) then targetProb teacher logProbMinClamp i else 0 := by
  unfold maskedTargetProb
  simp only [inVocab_iff]

theorem sourceTopkLogp_eq (hcut : CutOf vpLogps logps) (h : Owns p rank (teacher.topkIndices i)) :
    sourceTopkLogp megatron teacher rank (vpLogps rank) i =
      Shards.gather logps (teacher.topkIndices i) := by
  unfold sourceTopkLogp
  rw [localIndex_eq megatron rank h, hcut.gather_eq rank _ h]

theorem activeMask_iff (hcut : CutOf vpLogps logps) :
    activeMask megatron teacher logProbMinClamp rank (vpLogps rank) i = true ↔
      Owns p rank (teacher.topkIndices i) ∧ Active teacher logProbMinClamp logps i := by
  unfold activeMask Active Known
  rw [Bool.and_eq_true, inVocab_iff]
  apply and_congr_right
  intro howns
  have hknown := howns.mem_row
  rw [← hcut.size] at hknown
  rw [and_iff_right hknown]
  cases logProbMinClamp with
  | none => simp
  | some c =>
    rw [sourceTopkLogp_eq megatron teacher rank i hcut howns]
    simp

theorem sum_ranks (hcut : CutOf vpLogps logps) (term : Fin topk → ℝ) :
    (∑ rank : Fin tp, ∑ i, if Owns p rank (teacher.topkIndices i) then term i else 0) =
      ∑ i, if Known V (teacher.topkIndices i) then term i else 0 := by
  rw [Finset.sum_comm]
  refine Finset.sum_congr rfl fun i _ => ?_
  rw [sum_owner, ← hcut.size]
  rfl

/-! ## The run on the ranks -/

variable [NeZero tp] {vpLogits : Fin tp → Fin p → ℝ}

theorem loss_forward (hcut : CutOf (vocabParallelLogSoftmax megatron vpLogits) logps) :
    (forward megatron teacher logProbMinClamp vpLogits rank).loss =
      klLoss teacher logProbMinClamp logps := by
  unfold klLoss
  rw [← sum_ranks teacher hcut]
  show ∑ rank : Fin tp, ∑ i : Fin topk, _ = _
  refine Finset.sum_congr rfl fun rank _ => Finset.sum_congr rfl fun i _ => ?_
  unfold maskedTargetProb maskedTargetLogp maskedSourceLogp
  by_cases howns : Owns p rank (teacher.topkIndices i)
  · have hmask := (inVocab_iff megatron rank _).2 howns
    rw [if_pos hmask, if_pos hmask, if_pos hmask, if_pos howns,
      sourceTopkLogp_eq megatron teacher rank i hcut howns]
  · have hmask := mt (inVocab_iff megatron rank _).1 howns
    rw [if_neg hmask, if_neg howns, zero_mul]

theorem sourceMass_forward (hcut : CutOf (vocabParallelLogSoftmax megatron vpLogits) logps) :
    (forward megatron teacher logProbMinClamp vpLogits rank).sourceMass =
      studentMass teacher logProbMinClamp logps := by
  unfold studentMass
  rw [← sum_ranks teacher hcut]
  show ∑ rank : Fin tp, ∑ i : Fin topk, _ = _
  refine Finset.sum_congr rfl fun rank _ => Finset.sum_congr rfl fun i _ => ?_
  unfold maskedSourceLogp
  by_cases howns : Owns p rank (teacher.topkIndices i)
  · have hmask := (inVocab_iff megatron rank _).2 howns
    rw [if_pos hmask, if_pos hmask, if_pos howns, mul_one,
      sourceTopkLogp_eq megatron teacher rank i hcut howns]
  · have hmask := mt (inVocab_iff megatron rank _).1 howns
    rw [if_neg hmask, if_neg hmask, if_neg howns, mul_zero]

omit [NeZero tp] in
open Classical in
theorem activeProb_eq (hcut : CutOf vpLogps logps) :
    activeProb megatron teacher logProbMinClamp rank (vpLogps rank) i =
      if Owns p rank (teacher.topkIndices i) then
        if Active teacher logProbMinClamp logps i then targetProb teacher logProbMinClamp i else 0
      else 0 := by
  unfold activeProb
  have hactive := activeMask_iff megatron teacher logProbMinClamp rank i hcut
  by_cases howns : Owns p rank (teacher.topkIndices i)
  · rw [if_pos howns, maskedTargetProb_eq, if_pos howns]
    by_cases h : Active teacher logProbMinClamp logps i
    · grind
    · grind
  · grind

theorem targetActiveMass_forward (hcut : CutOf (vocabParallelLogSoftmax megatron vpLogits) logps) :
    (forward megatron teacher logProbMinClamp vpLogits rank).saved.targetActiveMass =
      activeMass teacher logProbMinClamp logps := by
  classical
  cases logProbMinClamp with
  | none => rfl
  | some c =>
    show ∑ rank, ∑ i, activeProb megatron teacher (some c) rank _ i = _
    simp only [activeProb_eq megatron teacher (some c) _ _ hcut]
    rw [sum_ranks teacher hcut]
    refine Finset.sum_congr rfl fun i _ => ?_
    by_cases hknown : Known V (teacher.topkIndices i)
    · rw [if_pos hknown]
    · rw [if_neg hknown, if_neg fun h => hknown h.1]

theorem backward_forward (hcut : CutOf (vocabParallelLogSoftmax megatron vpLogits) logps)
    (gradLoss : ℝ) (j : Fin p) :
    backward (forward megatron teacher logProbMinClamp vpLogits rank).saved gradLoss j =
      gradient teacher logProbMinClamp logps gradLoss (rank * p + j : Nat) := by
  classical
  have howns : Owns p rank (rank * p + j : Nat) := by
    unfold Owns
    omega
  have hprob : vocabParallelLogSoftmax megatron vpLogits rank j =
      Shards.gather logps (rank * p + j : Nat) := by
    have hlocal : ((rank * p + j : Nat) : Int) - (rank * p : Nat) = (j : Nat) := by omega
    rw [← hcut.gather_eq rank _ howns, hlocal, gather_val]
  have hsub : ∀ i, (if localIndex megatron p rank (teacher.topkIndices i) = (j : Nat) then
      -(maskedTargetProb megatron (p := p) teacher logProbMinClamp rank i *
        if activeMask megatron teacher logProbMinClamp rank
          (vocabParallelLogSoftmax megatron vpLogits rank) i then 1 else 0) else 0) =
      -(if Active teacher logProbMinClamp logps i ∧
          teacher.topkIndices i = (rank * p + j : Nat) then
        targetProb teacher logProbMinClamp i else 0) := by
    intro i
    have hactive := activeMask_iff megatron teacher logProbMinClamp rank i hcut
    rw [maskedTargetProb_eq]
    by_cases hi : Owns p rank (teacher.topkIndices i)
    · rw [localIndex_eq megatron rank hi]
      by_cases hsame : teacher.topkIndices i = (rank * p + j : Nat)
      · grind
      · grind
    · grind
  have hscatter : ∑ i with localIndex megatron p rank (teacher.topkIndices i) = (j : Nat),
      -(maskedTargetProb megatron (p := p) teacher logProbMinClamp rank i *
        if activeMask megatron teacher logProbMinClamp rank
          (vocabParallelLogSoftmax megatron vpLogits rank) i then 1 else 0) =
      -∑ i, if Active teacher logProbMinClamp logps i ∧
          teacher.topkIndices i = (rank * p + j : Nat) then
        targetProb teacher logProbMinClamp i else 0 := by
    rw [Finset.sum_filter, Finset.sum_congr rfl fun i _ => hsub i, Finset.sum_neg_distrib]
  have hmass := targetActiveMass_forward megatron teacher logProbMinClamp rank hcut
  unfold gradient
  rw [sub_eq_add_neg, ← hscatter, ← hmass, ← hprob]
  rfl

omit [NeZero tp] in
theorem sum_gradient [NeZero V] (logits : Fin V → ℝ)
    (hknown : ∀ i, Known V (teacher.topkIndices i)) (gradLoss : ℝ) :
    ∑ v : Fin V, gradient teacher logProbMinClamp (Softmax.logSoftmax logits) gradLoss
      ((v : Nat) : Int) = 0 := by
  classical
  set logps := Softmax.logSoftmax logits with hlogps
  have hprobs : ∑ v : Fin V, Real.exp (Shards.gather logps ((v : Nat) : Int)) = 1 := by
    simp only [gather_val, hlogps, Softmax.exp_logSoftmax]
    exact Softmax.sum_softmax logits
  have hmass : activeMass teacher logProbMinClamp logps =
      ∑ i, if Active teacher logProbMinClamp logps i then targetProb teacher logProbMinClamp i
        else 0 := by
    cases logProbMinClamp with
    | some c => rfl
    | none =>
      show ∑ i, targetProb teacher none i = _
      apply Finset.sum_congr rfl
      intro i _
      rw [if_pos ⟨hknown i, fun c hc => by cases hc⟩]
  have hplaces : (∑ v : Fin V, ∑ i, if Active teacher logProbMinClamp logps i ∧
      teacher.topkIndices i = ((v : Nat) : Int) then targetProb teacher logProbMinClamp i else 0) =
      activeMass teacher logProbMinClamp logps := by
    rw [Finset.sum_comm, hmass]
    apply Finset.sum_congr rfl
    intro i _
    obtain ⟨hpos, hlt⟩ := hknown i
    have hplace : ∀ v : Fin V, teacher.topkIndices i = ((v : Nat) : Int) ↔
        v = ⟨(teacher.topkIndices i).toNat, by omega⟩ := by grind
    by_cases h : Active teacher logProbMinClamp logps i
    · simp [h, hplace]
    · simp [h]
  unfold gradient
  rw [← Finset.sum_mul, Finset.sum_sub_distrib, ← Finset.sum_mul, hprobs, one_mul, hplaces,
    sub_self, zero_mul]

end Entries

/-! ## Every cut of the vocabulary gives the same -/

theorem vocabParallel_eq_single (megatron : Megatron) {tp p topk n : Nat} [NeZero tp] [NeZero p]
    (logits : Fin n → Fin (tp * p) → ℝ) (teacher : Fin n → Teacher topk)
    (logProbMinClamp : Option ℝ) (gradLoss : Fin n → ℝ) (t : Fin n) :
    (∀ rank : Fin tp,
      let out := forwardTokens megatron logProbMinClamp (fun rank t => shard (logits t) rank)
        teacher rank t
      let single := forwardTokens megatron logProbMinClamp (fun _ : Fin 1 => logits) teacher 0 t
      out.loss = single.loss ∧ out.sourceMass = single.sourceMass ∧
        out.targetMass = single.targetMass) ∧
    concat (fun rank => gradInput megatron logProbMinClamp (fun rank t => shard (logits t) rank)
        teacher gradLoss rank t) =
      gradInput megatron logProbMinClamp (fun _ : Fin 1 => logits) teacher gradLoss 0 t ∧
    ((∀ i, Known (tp * p) ((teacher t).topkIndices i)) →
      ∑ v, gradInput megatron logProbMinClamp (fun _ : Fin 1 => logits) teacher gradLoss 0 t v =
        0) := by
  have hshard := cutOf_shard megatron (logits t)
  have hsingle := cutOf_single megatron (logits t)
  refine ⟨fun rank => ⟨?_, ?_, rfl⟩, ?_, ?_⟩
  · exact (loss_forward megatron (teacher t) logProbMinClamp rank hshard).trans
      (loss_forward megatron (teacher t) logProbMinClamp 0 hsingle).symm
  · exact (sourceMass_forward megatron (teacher t) logProbMinClamp rank hshard).trans
      (sourceMass_forward megatron (teacher t) logProbMinClamp 0 hsingle).symm
  · apply concat_eq
    intro rank j
    have h := backward_forward megatron (teacher t) logProbMinClamp 0 hsingle (gradLoss t)
      (globalIndex rank j)
    rw [val_globalIndex] at h
    refine (backward_forward megatron (teacher t) logProbMinClamp rank hshard (gradLoss t) j).trans
      (Eq.trans ?_ h.symm)
    congr 2
    simp
  · intro hknown
    rw [← sum_gradient (teacher t) logProbMinClamp (logits t) hknown (gradLoss t)]
    refine Finset.sum_congr rfl fun v _ => ?_
    refine (backward_forward megatron (teacher t) logProbMinClamp 0 hsingle (gradLoss t) v).trans ?_
    congr 2
    simp

/-- The functions as Megatron has them. -/
noncomputable def megatronCore : Megatron where
  calculateLogitsMax {p} row := (row, ⨆ i : Fin p, row i)
  vocabRange partitionVocabSize rank _ :=
    (rank * partitionVocabSize, rank * partitionVocabSize + partitionVocabSize)
  logits_eq _ := rfl
  vocabRange_eq _ _ _ := rfl

/-- The most likely id twice, and an entry under the clamp. -/
noncomputable def repeatedTeacher : Teacher 3 where
  topkLogps := ![-1, -1, -20]
  topkIndices := ![2, 2, 0]

theorem vocabParallel_two_ranks :
    ∑ v, gradInput megatronCore (some (-10)) (fun _ : Fin 1 => fun _ : Fin 1 => ![0, 1, 2, 3])
      (fun _ => repeatedTeacher) (fun _ => 1) 0 0 v = 0 :=
  (@vocabParallel_eq_single megatronCore 2 2 3 1 _ _ (fun _ => ![0, 1, 2, 3])
    (fun _ => repeatedTeacher) (some (-10)) (fun _ => 1) 0).2.2 (by
      intro i
      fin_cases i <;> simp [Known, repeatedTeacher])

/-! ## The FSDP backend (`trainer/distillation/fsdp/losses.py`) -/

/-- What `compute_forward_kl_topk` gives for a token. -/
structure Losses where
  distillationLosses : ℝ
  studentMass : ℝ
  teacherMass : ℝ

noncomputable def klDivergence {topk : Nat} (logQ logP : Fin topk → ℝ) : ℝ :=
  ∑ i, Real.exp (logP i) * (logP i - logQ i)

section Backends

variable (megatron : Megatron) {topk V n : Nat} (logProbMinClamp : Option ℝ)

/-- `compute_forward_kl_topk` of FSDP for a token; both masses are summed before the clamp. -/
noncomputable def fsdpToken (logits : Fin V → ℝ) (teacher : Teacher topk) : Losses :=
  let studentTopkLogProbs i :=
    Shards.gather (Softmax.logSoftmax logits) (teacher.topkIndices i)
  { distillationLosses := klDivergence (fun i => clampMin logProbMinClamp (studentTopkLogProbs i))
      fun i => clampMin logProbMinClamp (teacher.topkLogps i)
    studentMass := ∑ i, Real.exp (studentTopkLogProbs i)
    teacherMass := ∑ i, Real.exp (teacher.topkLogps i) }

/-- The tokens of a batch; `torch.gather` raises on an id outside of the vocabulary. -/
noncomputable def fsdpForwardKlTopk (logits : Fin n → Fin V → ℝ) (teacher : Fin n → Teacher topk) :
    Option (Fin n → Losses) :=
  if ∀ t i, Known V ((teacher t).topkIndices i) then
    some fun t => fsdpToken logProbMinClamp (logits t) (teacher t)
  else none

/-- The same function of Megatron on one tensor and context parallel rank. -/
noncomputable def megatronForwardKlTopk (logits : Fin n → Fin V → ℝ)
    (teacher : Fin n → Teacher topk) (t : Fin n) : Losses :=
  let out := forwardTokens megatron logProbMinClamp (fun _ : Fin 1 => logits) teacher 0 t
  { distillationLosses := out.loss, studentMass := out.sourceMass, teacherMass := out.targetMass }

/-- Both backends return the same loss and the same masses for every token. -/
def BackendsAgree (logits : Fin n → Fin V → ℝ) (teacher : Fin n → Teacher topk) : Prop :=
  fsdpForwardKlTopk logProbMinClamp logits teacher =
    some (megatronForwardKlTopk megatron logProbMinClamp logits teacher)

/-- No entry of the token is under the clamp, for the teacher or for the student. -/
def Unclamped (logits : Fin V → ℝ) (teacher : Teacher topk) : Prop :=
  ∀ c, logProbMinClamp = some c → ∀ i, c ≤ teacher.topkLogps i ∧
    c ≤ Shards.gather (Softmax.logSoftmax logits) (teacher.topkIndices i)

theorem sum_exp_clampMin_iff (logps : Fin topk → ℝ) :
    ∑ i, Real.exp (logps i) = ∑ i, Real.exp (clampMin logProbMinClamp (logps i)) ↔
      ∀ c, logProbMinClamp = some c → ∀ i, c ≤ logps i := by
  cases logProbMinClamp with
  | none => simp [clampMin]
  | some c =>
    have hle : ∀ i ∈ Finset.univ, Real.exp (logps i) ≤ Real.exp (clampMin (some c) (logps i)) := by
      intro i _
      exact Real.exp_le_exp.2 (le_max_left _ _)
    rw [Finset.sum_eq_sum_iff_of_le hle]
    simp [clampMin]

variable {logProbMinClamp} (logits : Fin V → ℝ) (teacher : Teacher topk)

theorem loss_fsdp (hknown : ∀ i, Known V (teacher.topkIndices i)) :
    (fsdpToken logProbMinClamp logits teacher).distillationLosses =
      klLoss teacher logProbMinClamp (Softmax.logSoftmax logits) := by
  show ∑ i : Fin topk, _ = _
  apply Finset.sum_congr rfl
  intro i _
  rw [if_pos (hknown i)]
  rfl

theorem fsdpToken_eq_iff (hknown : ∀ i, Known V (teacher.topkIndices i)) :
    fsdpToken logProbMinClamp logits teacher =
        { distillationLosses := klLoss teacher logProbMinClamp (Softmax.logSoftmax logits)
          studentMass := studentMass teacher logProbMinClamp (Softmax.logSoftmax logits)
          teacherMass := targetTopkMass teacher logProbMinClamp } ↔
      Unclamped logProbMinClamp logits teacher := by
  have hstudent : studentMass teacher logProbMinClamp (Softmax.logSoftmax logits) = ∑ i, Real.exp
      (clampMin logProbMinClamp
        (Shards.gather (Softmax.logSoftmax logits) (teacher.topkIndices i))) := by
    apply Finset.sum_congr rfl
    intro i _
    rw [if_pos (hknown i)]
  rw [Losses.mk.injEq, ← loss_fsdp logits teacher hknown, hstudent]
  have hmass := sum_exp_clampMin_iff logProbMinClamp fun i =>
    Shards.gather (Softmax.logSoftmax logits) (teacher.topkIndices i)
  have hteacher := sum_exp_clampMin_iff logProbMinClamp teacher.topkLogps
  refine (and_iff_right rfl).trans ((and_congr hmass hteacher).trans ?_)
  unfold Unclamped
  grind

theorem megatronForwardKlTopk_eq (logits : Fin n → Fin V → ℝ) (teacher : Fin n → Teacher topk)
    (t : Fin n) :
    megatronForwardKlTopk megatron logProbMinClamp logits teacher t =
      { distillationLosses := klLoss (teacher t) logProbMinClamp (Softmax.logSoftmax (logits t))
        studentMass := studentMass (teacher t) logProbMinClamp (Softmax.logSoftmax (logits t))
        teacherMass := targetTopkMass (teacher t) logProbMinClamp } := by
  have hcut := cutOf_single megatron (logits t)
  rw [← loss_forward megatron (teacher t) logProbMinClamp 0 hcut,
    ← sourceMass_forward megatron (teacher t) logProbMinClamp 0 hcut]
  rfl

theorem backendsAgree_iff (logits : Fin n → Fin V → ℝ) (teacher : Fin n → Teacher topk) :
    BackendsAgree megatron logProbMinClamp logits teacher ↔
      (∀ t i, Known V ((teacher t).topkIndices i)) ∧
        ∀ t, Unclamped logProbMinClamp (logits t) (teacher t) := by
  unfold BackendsAgree fsdpForwardKlTopk
  by_cases hknown : ∀ t i, Known V ((teacher t).topkIndices i)
  · rw [if_pos hknown, Option.some_inj, funext_iff, and_iff_right hknown]
    apply forall_congr'
    intro t
    rw [megatronForwardKlTopk_eq]
    exact fsdpToken_eq_iff (logits t) (teacher t) (hknown t)
  · rw [if_neg hknown]
    exact iff_of_false nofun fun h => hknown h.1

end Backends

/-- A likely id, and one that the teacher has under the clamp. -/
noncomputable def clampedTeacher : Teacher 2 where
  topkLogps := ![-1, -20]
  topkIndices := ![2, 0]

theorem not_backendsAgree_clamped : Function.Injective clampedTeacher.topkIndices ∧
      ¬ BackendsAgree megatronCore (some (-10)) (fun _ : Fin 1 => ![1, 2, 3])
        fun _ => clampedTeacher := by
  refine ⟨by decide, fun h => ?_⟩
  unfold BackendsAgree fsdpForwardKlTopk at h
  split at h
  · have hmass := congrArg Losses.teacherMass (congrFun (Option.some.inj h) 0)
    have hle := (sum_exp_clampMin_iff (some (-10)) clampedTeacher.topkLogps).1 hmass _ rfl 1
    norm_num [clampedTeacher] at hle
  · cases h

end Verl.VocabParallelKL
