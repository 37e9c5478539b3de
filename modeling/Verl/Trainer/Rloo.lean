import Verl.Lib.Grouping
import Verl.Lib.Python

/-! # RLOO advantages (`verl/trainer/ppo/core_algos.py`)

The score of a sample less the mean score of the other samples of its prompt, computed twice:

* `computeRlooOutcomeAdvantage`: a list of scores for each prompt, then a loop over the samples.
* `computeRlooVectorizedOutcomeAdvantage`: `bincount` over the numbers of the prompts.

They agree on every prompt with two samples or more.  A prompt with one sample has no other one to
compare with: the loop leaves the score, the vectorized version gives zero. -/

namespace Verl

/-! ## Algorithm -/

section Algorithm

variable {K : Type} [Field K] {G : Type} {bsz responseLength : Nat}

/-- `token_level_rewards.sum(dim=-1)`. -/
def outcomeScores (tokenLevelRewards : Fin bsz → Fin responseLength → K) (i : Fin bsz) : K :=
  ∑ t, tokenLevelRewards i t

/-- `scores.unsqueeze(-1) * response_mask`. -/
def maskScores (scores : Fin bsz → K) (responseMask : Fin bsz → Fin responseLength → K) :
    Fin bsz → Fin responseLength → K :=
  fun i t => scores i * responseMask i t

def id2score [DecidableEq G] (index : Fin bsz → G) (scores : Fin bsz → K) : List (G × List K) :=
  (List.finRange bsz).foldl (fun d i => appendAt d (index i) (scores i)) []

/-- The entry of `id2mean`. -/
def rlooMean [ToString G] (idx : G) (scores : List K) : Except PyErr K :=
  if scores.length = 1 then .ok 0
  else if scores.length > 1 then .ok (scores.sum / scores.length)
  else .error (.valueError s!"no score in prompt index: {idx}")

/-- One turn of the last loop. -/
def rlooStep [DecidableEq G] [ToString G] (id2score : List (G × List K)) (id2mean : List (G × K))
    (index : Fin bsz → G) (scores : Fin bsz → K) (i : Fin bsz) : Except PyErr (Fin bsz → K) :=
  let responseNum := (listAt id2score (index i)).length
  if responseNum > 1 then
    match id2mean.lookup (index i) with
    | none => .error (.keyError (toString (index i)))
    | some mean => .ok <| Function.update scores i <|
        scores i * responseNum / (responseNum - 1) - mean * responseNum / (responseNum - 1)
  else .ok scores

/-- The advantages, and the returns. -/
def computeRlooOutcomeAdvantage [DecidableEq G] [ToString G]
    (tokenLevelRewards responseMask : Fin bsz → Fin responseLength → K) (index : Fin bsz → G) :
    Except PyErr ((Fin bsz → Fin responseLength → K) × (Fin bsz → Fin responseLength → K)) := do
  let scores := outcomeScores tokenLevelRewards
  let id2score := id2score index scores
  let id2mean ← id2score.mapM fun p => do
    let mean ← rlooMean p.1 p.2
    return (p.1, mean)
  let scores ← (List.finRange bsz).foldlM (rlooStep id2score id2mean index) scores
  let scores := maskScores scores responseMask
  return (scores, scores)

/-- `xs[inv]` at one sample; every number of `inv` is an index of `xs`. -/
def gather (xs : List K) (inv : Fin bsz → Nat) (i : Fin bsz) : K := (xs[inv i]?).getD 0

def computeRlooVectorizedOutcomeAdvantage [LinearOrder K] [LinearOrder G]
    (tokenLevelRewards responseMask : Fin bsz → Fin responseLength → K) (index : Fin bsz → G) :
    (Fin bsz → Fin responseLength → K) × (Fin bsz → Fin responseLength → K) :=
  let scores := outcomeScores tokenLevelRewards
  let inv := uniqueInverse index
  let c := gather (bincount inv fun _ => (1 : K)) inv
  let adv := fun i => (c i * scores i - gather (bincount inv scores) inv i) / max (c i - 1) 1 *
    (if c i > 1 then 1 else 0)
  let adv := maskScores adv responseMask
  (adv, adv)

end Algorithm

/-! ## The loop -/

section Loop

variable {K : Type} [Field K] {G : Type} [DecidableEq G] {bsz responseLength : Nat}

/-- The samples of the prompt of sample `i`, itself among them. -/
def promptSamples (index : Fin bsz → G) (i : Fin bsz) : Finset (Fin bsz) := {j | index j = index i}

theorem mem_promptSamples (index : Fin bsz → G) (i : Fin bsz) : i ∈ promptSamples index i := by
  simp [promptSamples]

omit [Field K] in
theorem listAt_id2score (index : Fin bsz → G) (scores : Fin bsz → K) (i : Fin bsz) :
    listAt (id2score index scores) (index i) =
      ((List.finRange bsz).filter fun j => index j = index i).map scores := by
  unfold id2score
  rw [listAt_foldl_appendAt, listAt_nil, List.nil_append]

omit [Field K] in
theorem length_listAt_id2score (index : Fin bsz → G) (scores : Fin bsz → K) (i : Fin bsz) :
    (listAt (id2score index scores) (index i)).length = (promptSamples index i).card := by
  rw [listAt_id2score, List.length_map]
  rfl

theorem sum_listAt_id2score (index : Fin bsz → G) (scores : Fin bsz → K) (i : Fin bsz) :
    (listAt (id2score index scores) (index i)).sum = ∑ j ∈ promptSamples index i, scores j := by
  rw [listAt_id2score]
  rfl

/-- `rlooMean` of a prompt with a sample. -/
def rlooMeanOf (scores : List K) : K :=
  if scores.length = 1 then 0 else scores.sum / scores.length

theorem rlooMean_of_ne_nil {G : Type} [ToString G] (idx : G) {scores : List K} (h : scores ≠ []) :
    rlooMean idx scores = .ok (rlooMeanOf scores) := by
  have hpos := List.length_pos_iff.2 h
  unfold rlooMean rlooMeanOf
  by_cases hone : scores.length = 1
  · rw [if_pos hone, if_pos hone]
  · grind

theorem id2mean_eq [ToString G] (index : Fin bsz → G) (scores : Fin bsz → K) :
    ((id2score index scores).mapM fun p => do
      let mean ← rlooMean p.1 p.2
      return (p.1, mean)) =
      .ok ((id2score index scores).map fun p => (p.1, rlooMeanOf p.2)) := by
  apply mapM_eq_ok_map
  intro p hp
  have hne := foldl_appendAt_ne_nil index scores (List.finRange bsz) [] (by simp) p hp
  rw [rlooMean_of_ne_nil p.1 hne]
  rfl

/-- The score that the loop leaves at a sample of a prompt with the given scores. -/
def rlooScore (promptScores : List K) (score : K) : K :=
  if promptScores.length > 1 then
    score * promptScores.length / (promptScores.length - 1) -
      rlooMeanOf promptScores * promptScores.length / (promptScores.length - 1)
  else score

theorem rlooStep_eq [ToString G] (index : Fin bsz → G) (initial scores : Fin bsz → K) (i : Fin bsz) :
    rlooStep (id2score index initial)
        ((id2score index initial).map fun p => (p.1, rlooMeanOf p.2)) index scores i =
      .ok (Function.update scores i
        (rlooScore (listAt (id2score index initial) (index i)) (scores i))) := by
  unfold rlooStep rlooScore
  by_cases h : (listAt (id2score index initial) (index i)).length > 1
  · have hne : listAt (id2score index initial) (index i) ≠ [] :=
      List.ne_nil_of_length_pos (by omega)
    rw [if_pos h, if_pos h, lookup_map_snd, lookup_eq_listAt hne]
    rfl
  · rw [if_neg h, if_neg h, Function.update_eq_self]

theorem computeRlooOutcomeAdvantage_eq [ToString G]
    (tokenLevelRewards responseMask : Fin bsz → Fin responseLength → K) (index : Fin bsz → G) :
    let scores := outcomeScores tokenLevelRewards
    let advantages := maskScores
      (fun i => rlooScore (listAt (id2score index scores) (index i)) (scores i)) responseMask
    computeRlooOutcomeAdvantage tokenLevelRewards responseMask index =
      .ok (advantages, advantages) := by
  intro scores advantages
  have hloop := foldlM_eq_ok_foldl _ _ (List.finRange bsz)
    (fun xs i _ => rlooStep_eq index scores xs i) scores
  rw [foldl_update_finRange fun i => rlooScore (listAt (id2score index scores) (index i))] at hloop
  show ((id2score index scores).mapM _ >>= _) = _
  rw [id2mean_eq, ok_bind]
  rw [hloop]
  rfl

end Loop

section Values

variable {K : Type} [Field K] [CharZero K] {G : Type} [DecidableEq G] {bsz : Nat}

/-- The score of a sample less the mean score of the other samples of its prompt. -/
def leaveOneOut (index : Fin bsz → G) (scores : Fin bsz → K) (i : Fin bsz) : K :=
  scores i - (∑ j ∈ (promptSamples index i).erase i, scores j) /
    ((promptSamples index i).erase i).card

section

variable (index : Fin bsz → G) (scores : Fin bsz → K) (i : Fin bsz)
  (h : 1 < (promptSamples index i).card)
include index scores i h

theorem leaveOneOut_eq : leaveOneOut index scores i =
      ((promptSamples index i).card * scores i - ∑ j ∈ promptSamples index i, scores j) /
        ((promptSamples index i).card - 1) := by
  have hmem := mem_promptSamples index i
  have hcast : (((promptSamples index i).erase i).card : K) = (promptSamples index i).card - 1 := by
    rw [Finset.card_erase_of_mem hmem, Nat.cast_sub (by omega), Nat.cast_one]
  have hpos : ((promptSamples index i).card : K) - 1 ≠ 0 := by
    rw [sub_ne_zero, Nat.cast_ne_one]
    omega
  unfold leaveOneOut
  rw [hcast, ← Finset.sum_erase_add _ _ hmem]
  field_simp
  ring

theorem rlooScore_of_many : rlooScore (listAt (id2score index scores) (index i)) (scores i) =
      leaveOneOut index scores i := by
  have hpos : ((promptSamples index i).card : K) ≠ 0 := by
    rw [Nat.cast_ne_zero]
    omega
  unfold rlooScore rlooMeanOf
  rw [length_listAt_id2score, sum_listAt_id2score, if_pos h, if_neg (by omega),
    leaveOneOut_eq index scores i h, div_mul_cancel₀ _ hpos]
  ring

end

omit [CharZero K] in
theorem rlooScore_of_one (index : Fin bsz → G) (scores : Fin bsz → K) (i : Fin bsz)
    (h : (promptSamples index i).card = 1) :
    rlooScore (listAt (id2score index scores) (index i)) (scores i) = scores i := by
  unfold rlooScore
  rw [length_listAt_id2score, if_neg (by omega)]

end Values

/-! ## The vectorized version -/

section Vectorized

variable {K : Type} [Field K] {G : Type} [LinearOrder G] {bsz responseLength : Nat}

theorem gather_bincount (index : Fin bsz → G) (weights : Fin bsz → K) (i : Fin bsz) :
    gather (bincount (uniqueInverse index) weights) (uniqueInverse index) i =
      ∑ j ∈ promptSamples index i, weights j := by
  unfold gather promptSamples
  rw [getElem?_bincount]
  simp only [uniqueInverse_eq_iff, Option.getD_some]

variable [LinearOrder K] [IsStrictOrderedRing K]

theorem rlooVectorized_score (index : Fin bsz → G) (scores : Fin bsz → K) (i : Fin bsz) :
    let inv := uniqueInverse index
    let c := gather (bincount inv fun _ => (1 : K)) inv
    (c i * scores i - gather (bincount inv scores) inv i) / max (c i - 1) 1 *
        (if c i > 1 then 1 else 0) =
      if 1 < (promptSamples index i).card then leaveOneOut index scores i else 0 := by
  intro inv c
  have hc : c i = (promptSamples index i).card := by
    show gather (bincount (uniqueInverse index) fun _ => (1 : K)) (uniqueInverse index) i = _
    rw [gather_bincount, Finset.sum_const, nsmul_one]
  rw [hc, gather_bincount]
  by_cases h : 1 < (promptSamples index i).card
  · have hgt : ((promptSamples index i).card : K) > 1 := by exact_mod_cast h
    have hge : (1 : K) ≤ (promptSamples index i).card - 1 := by
      rw [le_sub_iff_add_le]
      exact_mod_cast h
    rw [if_pos h, if_pos hgt, mul_one, max_eq_left hge, leaveOneOut_eq index scores i h]
  · have hle : ¬((promptSamples index i).card : K) > 1 := by
      rw [gt_iff_lt, Nat.one_lt_cast]
      exact h
    rw [if_neg h, if_neg hle, mul_zero]

theorem computeRlooVectorizedOutcomeAdvantage_eq
    (tokenLevelRewards responseMask : Fin bsz → Fin responseLength → K) (index : Fin bsz → G) :
    let advantages := maskScores (fun i => if 1 < (promptSamples index i).card then
      leaveOneOut index (outcomeScores tokenLevelRewards) i else 0) responseMask
    computeRlooVectorizedOutcomeAdvantage tokenLevelRewards responseMask index =
      (advantages, advantages) := by
  intro advantages
  have hscores := funext (rlooVectorized_score index (outcomeScores tokenLevelRewards))
  unfold computeRlooVectorizedOutcomeAdvantage
  dsimp only at ⊢
  rw [hscores]

end Vectorized

/-! ## Top theorem -/

/-- Both versions return; in a prompt with another sample they give the score less the mean score
of the other samples.  A sample without another one has its score from the loop and zero from the
vectorized version. -/
theorem rloo_eq_vectorized {K : Type} [Field K] [LinearOrder K] [IsStrictOrderedRing K] {G : Type}
    [LinearOrder G] [ToString G] {bsz responseLength : Nat}
    (tokenLevelRewards responseMask : Fin bsz → Fin responseLength → K) (index : Fin bsz → G) :
    ∃ advantages vectorized,
      computeRlooOutcomeAdvantage tokenLevelRewards responseMask index =
        .ok (advantages, advantages) ∧
      computeRlooVectorizedOutcomeAdvantage tokenLevelRewards responseMask index =
        (vectorized, vectorized) ∧
      ∀ i t,
        (2 ≤ (promptSamples index i).card →
          advantages i t = vectorized i t ∧
          advantages i t =
            leaveOneOut index (outcomeScores tokenLevelRewards) i * responseMask i t) ∧
        ((promptSamples index i).card = 1 →
          advantages i t = outcomeScores tokenLevelRewards i * responseMask i t ∧
          vectorized i t = 0) := by
  refine ⟨_, _, computeRlooOutcomeAdvantage_eq tokenLevelRewards responseMask index,
    computeRlooVectorizedOutcomeAdvantage_eq tokenLevelRewards responseMask index, ?_⟩
  intro i t
  unfold maskScores
  dsimp only
  constructor
  · intro h
    have hmany : 1 < (promptSamples index i).card := h
    rw [if_pos hmany, rlooScore_of_many index _ i hmany]
    exact ⟨rfl, rfl⟩
  · intro h
    rw [if_neg (by omega), rlooScore_of_one index _ i h, zero_mul]
    exact ⟨rfl, rfl⟩

/-- Three samples of one prompt and a masked token. -/
theorem rloo_eq_vectorized_threeSamples : ∃ advantages vectorized,
      computeRlooOutcomeAdvantage (fun i (_ : Fin 2) => (i : ℚ)) (fun _ t => (t : ℚ))
        (fun _ : Fin 3 => 7) = .ok (advantages, advantages) ∧
      computeRlooVectorizedOutcomeAdvantage (fun i (_ : Fin 2) => (i : ℚ)) (fun _ t => (t : ℚ))
        (fun _ : Fin 3 => 7) = (vectorized, vectorized) ∧
      advantages 2 1 = vectorized 2 1 ∧ advantages 2 1 = 3 ∧ advantages 2 0 = 0 := by
  obtain ⟨advantages, vectorized, hloop, hvectorized, h⟩ := rloo_eq_vectorized
    (fun i (_ : Fin 2) => (i : ℚ)) (fun _ t => (t : ℚ)) (fun _ : Fin 3 => 7)
  have hcard : 2 ≤ (promptSamples (fun _ : Fin 3 => 7) 2).card := by decide
  have herase : (promptSamples (fun _ : Fin 3 => 7) 2).erase 2 = {0, 1} := by decide
  refine ⟨advantages, vectorized, hloop, hvectorized, ((h 2 1).1 hcard).1, ?_, ?_⟩
  · rw [((h 2 1).1 hcard).2]
    unfold leaveOneOut
    rw [herase]
    norm_num [outcomeScores]
  · rw [((h 2 0).1 hcard).2]
    norm_num

/-- One sample with reward one. -/
theorem rloo_oneSample_ne :
    computeRlooOutcomeAdvantage (fun (_ : Fin 1) (_ : Fin 1) => (1 : ℚ)) (fun _ _ => 1)
        (fun _ => 7) ≠
      .ok (computeRlooVectorizedOutcomeAdvantage (fun (_ : Fin 1) (_ : Fin 1) => (1 : ℚ))
        (fun _ _ => 1) (fun _ => 7)) := by
  intro h
  rw [computeRlooOutcomeAdvantage_eq, computeRlooVectorizedOutcomeAdvantage_eq] at h
  have hcard : (promptSamples (fun _ : Fin 1 => 7) 0).card = 1 := by decide
  have hentry := congrFun (congrFun (congrArg Prod.fst (Except.ok.inj h)) 0) 0
  unfold maskScores at hentry
  dsimp only at hentry
  rw [rlooScore_of_one _ _ 0 hcard, if_neg (by omega)] at hentry
  norm_num [outcomeScores] at hentry

end Verl
