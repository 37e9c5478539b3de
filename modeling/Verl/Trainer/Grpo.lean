import Verl.Trainer.Rloo
import Verl.Utils.Groupwise

/-! # GRPO advantages (`verl/trainer/ppo/core_algos.py`)

The score of a sample, normalised over the samples of its prompt, computed twice:

* `computeGrpoOutcomeAdvantage`: a list of scores for each prompt, then a loop over the samples.
* `computeGrpoVectorizedOutcomeAdvantage`: numbers for the labels (`asTorchIndex`), then
  `groupMeanStd`, whose variance is at least `epsilon`.

Over the reals they agree on a sample unless it is normalised in a prompt whose variance is below
that floor (`grpo_eq_vectorized_iff`). -/

namespace Verl

/-! ## Algorithm -/

section Algorithm

variable {K : Type} [Field K] {bsz responseLength : Nat}

/-- `torch.mean`. -/
def torchMean (xs : List K) : K := xs.sum / xs.length

/-- `torch.std`. -/
def torchStd (sqrt : K → K) (xs : List K) : K :=
  sqrt ((xs.map fun x => (x - torchMean xs) ^ 2).sum / (xs.length - 1))

/-- The entries of `id2mean` and `id2std`. -/
def grpoMeanStd {G : Type} [ToString G] (sqrt : K → K) (idx : G) (scores : List K) :
    Except PyErr (K × K) :=
  if scores.length = 1 then .ok (0, 1)
  else if scores.length > 1 then .ok (torchMean scores, torchStd sqrt scores)
  else .error (.valueError s!"no score in prompt index: {idx}")

def normalise (normAdvByStdInGrpo : Bool) (epsilon mean std score : K) : K :=
  if normAdvByStdInGrpo then (score - mean) / (std + epsilon) else score - mean

/-- One turn of the last loop. -/
def grpoStep {G : Type} [DecidableEq G] [ToString G] (id2meanStd : List (G × K × K))
    (index : Fin bsz → G) (epsilon : K) (normAdvByStdInGrpo : Bool) (scores : Fin bsz → K)
    (i : Fin bsz) : Except PyErr (Fin bsz → K) :=
  match id2meanStd.lookup (index i) with
  | none => .error (.keyError (toString (index i)))
  | some (mean, std) => .ok <| Function.update scores i <|
      normalise normAdvByStdInGrpo epsilon mean std (scores i)

/-- The advantages, and the returns. -/
def computeGrpoOutcomeAdvantage {G : Type} [DecidableEq G] [ToString G] (sqrt : K → K)
    (tokenLevelRewards responseMask : Fin bsz → Fin responseLength → K) (index : Fin bsz → G)
    (epsilon : K) (normAdvByStdInGrpo : Bool) :
    Except PyErr ((Fin bsz → Fin responseLength → K) × (Fin bsz → Fin responseLength → K)) := do
  let scores := outcomeScores tokenLevelRewards
  let id2score := id2score index scores
  let id2meanStd ← id2score.mapM fun p => do
    let meanStd ← grpoMeanStd sqrt p.1 p.2
    return (p.1, meanStd)
  let scores ← (List.finRange bsz).foldlM
    (grpoStep id2meanStd index epsilon normAdvByStdInGrpo) scores
  let scores := maskScores scores responseMask
  return (scores, scores)

def computeGrpoVectorizedOutcomeAdvantage [LinearOrder K] {G : Type} [LinearOrder G]
    (sqrt : K → K) (labelType : LabelType G)
    (tokenLevelRewards responseMask : Fin bsz → Fin responseLength → K) (index : GroupIndex G bsz)
    (epsilon : K) (normAdvByStdInGrpo : Bool) :
    Except PyErr ((Fin bsz → Fin responseLength → K) × (Fin bsz → Fin responseLength → K)) := do
  let scores := outcomeScores tokenLevelRewards
  let g := asTorchIndex labelType index
  let (meanG, stdG, _) ← groupMeanStd sqrt scores g epsilon
  let mean ← indexRows meanG g
  let scalars ← if normAdvByStdInGrpo then do
      let std ← indexRows stdG g
      pure fun i => normalise true epsilon (mean i) (std i) (scores i)
    else pure fun i => normalise false epsilon (mean i) 0 (scores i)
  let advantages := maskScores scalars responseMask
  return (advantages, advantages)

end Algorithm

/-! ## The loop -/

section Loop

variable {K : Type} [Field K] {G : Type} [DecidableEq G] {bsz responseLength : Nat}

/-- `grpoMeanStd` of a prompt with a sample. -/
def grpoMeanStdOf (sqrt : K → K) (scores : List K) : K × K :=
  if scores.length = 1 then (0, 1) else (torchMean scores, torchStd sqrt scores)

theorem grpoMeanStd_of_ne_nil {G : Type} [ToString G] (sqrt : K → K) (idx : G) {scores : List K}
    (h : scores ≠ []) : grpoMeanStd sqrt idx scores = .ok (grpoMeanStdOf sqrt scores) := by
  have hpos := List.length_pos_iff.mpr h
  unfold grpoMeanStd grpoMeanStdOf
  by_cases hone : scores.length = 1
  · rw [if_pos hone, if_pos hone]
  · grind

theorem id2meanStd_eq [ToString G] (sqrt : K → K) (index : Fin bsz → G) (scores : Fin bsz → K) :
    ((id2score index scores).mapM fun p => do
      let meanStd ← grpoMeanStd sqrt p.1 p.2
      return (p.1, meanStd)) =
      .ok ((id2score index scores).map fun p => (p.1, grpoMeanStdOf sqrt p.2)) := by
  apply mapM_eq_ok_map
  intro p hp
  have hne := foldl_appendAt_ne_nil index scores (List.finRange bsz) [] (by simp) p hp
  rw [grpoMeanStd_of_ne_nil sqrt p.1 hne]
  rfl

theorem grpoMeanStdOf_listAt (sqrt : K → K) (index : Fin bsz → G) (scores : Fin bsz → K)
    (i : Fin bsz) :
    grpoMeanStdOf sqrt (listAt (id2score index scores) (index i)) =
      if (promptSamples index i).card = 1 then (0, 1)
      else (sampleMean (promptSamples index i) scores,
        sqrt (sampleVariance (promptSamples index i) scores)) := by
  have hmean : torchMean (listAt (id2score index scores) (index i)) =
      sampleMean (promptSamples index i) scores := by
    unfold torchMean sampleMean
    rw [length_listAt_id2score, sum_listAt_id2score]
  have hsquares : ((listAt (id2score index scores) (index i)).map fun x =>
      (x - sampleMean (promptSamples index i) scores) ^ 2).sum =
      ∑ j ∈ promptSamples index i, (scores j - sampleMean (promptSamples index i) scores) ^ 2 := by
    rw [listAt_id2score, List.map_map]
    exact sum_map_filter_finRange (fun j => index j = index i) _
  unfold grpoMeanStdOf torchStd
  rw [length_listAt_id2score, hmean, hsquares]
  rfl

theorem grpoStep_eq [ToString G] (sqrt : K → K) (index : Fin bsz → G) (initial scores : Fin bsz → K)
    (epsilon : K) (norm : Bool) (i : Fin bsz) :
    grpoStep ((id2score index initial).map fun p => (p.1, grpoMeanStdOf sqrt p.2)) index epsilon
        norm scores i =
      .ok (Function.update scores i
        (normalise norm epsilon
          (grpoMeanStdOf sqrt (listAt (id2score index initial) (index i))).1
          (grpoMeanStdOf sqrt (listAt (id2score index initial) (index i))).2 (scores i))) := by
  have hne : listAt (id2score index initial) (index i) ≠ [] := by
    apply List.ne_nil_of_length_pos
    rw [length_listAt_id2score]
    exact Finset.card_pos.mpr ⟨i, mem_promptSamples index i⟩
  unfold grpoStep
  rw [lookup_map_snd, lookup_eq_listAt hne]
  rfl

/-- The mean that a sample is compared with: a sample alone has none. -/
def groupMean (index : Fin bsz → G) (scores : Fin bsz → K) (i : Fin bsz) : K :=
  if (promptSamples index i).card = 1 then 0 else sampleMean (promptSamples index i) scores

/-- The standard deviation, from the variance that `floor` makes of the sample variance. -/
def groupStd (sqrt floor : K → K) (index : Fin bsz → G) (scores : Fin bsz → K) (i : Fin bsz) : K :=
  if (promptSamples index i).card = 1 then 1
  else sqrt (floor (sampleVariance (promptSamples index i) scores))

theorem computeGrpoOutcomeAdvantage_eq [ToString G] (sqrt : K → K)
    (tokenLevelRewards responseMask : Fin bsz → Fin responseLength → K) (index : Fin bsz → G)
    (epsilon : K) (norm : Bool) :
    let scores := outcomeScores tokenLevelRewards
    let advantages := maskScores (fun i => normalise norm epsilon (groupMean index scores i)
      (groupStd sqrt id index scores i) (scores i)) responseMask
    computeGrpoOutcomeAdvantage sqrt tokenLevelRewards responseMask index epsilon norm =
      .ok (advantages, advantages) := by
  intro scores advantages
  have hloop := foldlM_eq_ok_foldl _ _ (List.finRange bsz)
    (fun xs i _ => grpoStep_eq sqrt index scores xs epsilon norm i) scores
  rw [foldl_update_finRange fun i => normalise norm epsilon
    (grpoMeanStdOf sqrt (listAt (id2score index scores) (index i))).1
    (grpoMeanStdOf sqrt (listAt (id2score index scores) (index i))).2] at hloop
  have hscores : (fun i => normalise norm epsilon
      (grpoMeanStdOf sqrt (listAt (id2score index scores) (index i))).1
      (grpoMeanStdOf sqrt (listAt (id2score index scores) (index i))).2 (scores i)) =
      fun i => normalise norm epsilon (groupMean index scores i)
        (groupStd sqrt id index scores i) (scores i) := by
    funext i
    rw [grpoMeanStdOf_listAt]
    unfold groupMean groupStd
    split
    · rfl
    · rfl
  show ((id2score index scores).mapM _ >>= _) = _
  rw [id2meanStd_eq, ok_bind]
  rw [hloop, hscores]
  rfl

end Loop

/-! ## The vectorized version -/

section Vectorized

variable {K : Type} [Field K] [LinearOrder K] [IsStrictOrderedRing K] {G : Type} [LinearOrder G]
  {bsz responseLength : Nat}

omit [LinearOrder K] [IsStrictOrderedRing K] in
theorem sum_one_eq_card (gidx : Fin bsz → Int) (i : Fin bsz) :
    (∑ j with gidx j = gidx i, (1 : K)) = (promptSamples gidx i).card := by
  rw [Finset.sum_const, nsmul_one]
  rfl

variable (gidx : Fin bsz → Int) (i : Fin bsz) (sqrt : K → K) {labelType : LabelType G}

theorem one_le_card :
    (1 : K) ≤ (promptSamples gidx i).card := by
  rw [Nat.one_le_cast]
  exact Finset.card_pos.mpr ⟨i, mem_promptSamples gidx i⟩

theorem card_le_one_iff :
    ((promptSamples gidx i).card : K) ≤ 1 ↔ (promptSamples gidx i).card = 1 := by
  have hpos : 1 ≤ (promptSamples gidx i).card :=
    Finset.card_pos.mpr ⟨i, mem_promptSamples gidx i⟩
  rw [Nat.cast_le_one]
  omega

theorem meanOf_group (scores : Fin bsz → K) (i : Fin bsz) :
    meanOf (∑ j with gidx j = gidx i, 1) (∑ j with gidx j = gidx i, scores j) =
      groupMean gidx scores i := by
  unfold meanOf
  rw [sum_one_eq_card, max_eq_left (one_le_card gidx i)]
  simp only [card_le_one_iff]
  rfl

theorem stdOf_group (gidx : Fin bsz → Int) (scores : Fin bsz → K) (epsilon : K) (i : Fin bsz) :
    stdOf sqrt epsilon (∑ j with gidx j = gidx i, 1) (∑ j with gidx j = gidx i, scores j)
        (∑ j with gidx j = gidx i, scores j * scores j) =
      groupStd sqrt (max · epsilon) gidx scores i := by
  have hone : (1 : K) ≤ (promptSamples gidx i).card := one_le_card gidx i
  unfold stdOf groupStd
  rw [sum_one_eq_card, max_eq_left hone]
  simp only [card_le_one_iff]
  by_cases hcard : (promptSamples gidx i).card = 1
  · rw [if_pos hcard, if_pos hcard]
  · have hgt : 1 < (promptSamples gidx i).card :=
      lt_of_le_of_ne (Nat.one_le_cast.mp hone) (Ne.symm hcard)
    have htwo : (1 : K) ≤ (promptSamples gidx i).card - 1 := by
      rw [le_sub_iff_add_le]
      exact_mod_cast hgt
    have hne : ((promptSamples gidx i).card : K) ≠ 0 :=
      (zero_lt_one.trans_le hone).ne'
    rw [if_neg hcard, if_neg hcard, max_eq_left htwo]
    unfold sampleVariance
    rw [sum_sub_sampleMean_sq _ _ hne]
    rfl

theorem promptSamples_asTorchIndex {index : GroupIndex G bsz}
    (h : KeepsGroups labelType index) (i : Fin bsz) :
    promptSamples (asTorchIndex labelType index) i = promptSamples index.label i := by
  unfold promptSamples
  simp only [h.eq_iff]

theorem computeGrpoVectorizedOutcomeAdvantage_eq (tokenLevelRewards responseMask : Fin bsz → Fin responseLength → K)
    {index : GroupIndex G bsz} (h : KeepsGroups labelType index) (epsilon : K) (norm : Bool) :
    let scores := outcomeScores tokenLevelRewards
    let advantages := maskScores (fun i => normalise norm epsilon (groupMean index.label scores i)
      (groupStd sqrt (max · epsilon) index.label scores i) (scores i)) responseMask
    computeGrpoVectorizedOutcomeAdvantage sqrt labelType tokenLevelRewards responseMask index
      epsilon norm = .ok (advantages, advantages) := by
  intro scores advantages
  obtain ⟨size, hsize⟩ := exists_numGroups_eq h.1
  have hmean := indexRows_range h.1 hsize fun g =>
    meanOf (∑ j with asTorchIndex labelType index j = g, (1 : K))
      (∑ j with asTorchIndex labelType index j = g, scores j)
  have hstd := indexRows_range h.1 hsize fun g =>
    stdOf sqrt epsilon (∑ j with asTorchIndex labelType index j = g, (1 : K))
      (∑ j with asTorchIndex labelType index j = g, scores j)
      (∑ j with asTorchIndex labelType index j = g, scores j * scores j)
  simp only [Int.toNat_of_nonneg (h.1 _), meanOf_group, stdOf_group, groupMean, groupStd,
    promptSamples_asTorchIndex h] at hmean hstd
  show (groupMeanStd sqrt scores _ epsilon >>= _) = _
  rw [groupMeanStd_eq sqrt scores epsilon h.1 hsize]
  show (indexRows _ _ >>= _) = _
  rw [hmean]
  cases norm with
  | false => rfl
  | true =>
    rw [hstd]
    rfl

end Vectorized

/-! ## Relative advantages -/

/-- With a positive `epsilon` two deviations give one score only where they are equal, or the score
is the mean. -/
theorem normalise_eq_iff {epsilon mean score a b : ℝ} (norm : Bool) (hepsilon : 0 < epsilon)
    (ha : 0 ≤ a) (hb : 0 ≤ b) :
    normalise norm epsilon mean a score = normalise norm epsilon mean b score ↔
      norm = false ∨ score = mean ∨ a = b := by
  have hane : a + epsilon ≠ 0 := (add_pos_of_nonneg_of_pos ha hepsilon).ne'
  have hbne : b + epsilon ≠ 0 := (add_pos_of_nonneg_of_pos hb hepsilon).ne'
  cases norm with
  | false => exact ⟨fun _ => .inl rfl, fun _ => rfl⟩
  | true =>
    show (score - mean) / (a + epsilon) = (score - mean) / (b + epsilon) ↔ _
    constructor
    · grind
    · grind

theorem sqrt_eq_sqrt_max_iff {variance epsilon : ℝ} (h : 0 ≤ variance) :
    Real.sqrt variance = Real.sqrt (max variance epsilon) ↔ epsilon ≤ variance := by grind

/-- The advantages of a sample, with the sample variance and with the floor. -/
theorem grpoAdvantage_eq_iff {G : Type} [DecidableEq G] {bsz responseLength : Nat}
    (index : Fin bsz → G) (scores : Fin bsz → ℝ) (responseMask : Fin bsz → Fin responseLength → ℝ)
    {epsilon : ℝ} (hepsilon : 0 < epsilon) (norm : Bool) (i : Fin bsz) (t : Fin responseLength) :
    maskScores (fun i => normalise norm epsilon (groupMean index scores i)
        (groupStd Real.sqrt id index scores i) (scores i)) responseMask i t =
      maskScores (fun i => normalise norm epsilon (groupMean index scores i)
        (groupStd Real.sqrt (max · epsilon) index scores i) (scores i)) responseMask i t ↔
      norm = false ∨ responseMask i t = 0 ∨ (promptSamples index i).card = 1 ∨
        scores i = sampleMean (promptSamples index i) scores ∨
        epsilon ≤ sampleVariance (promptSamples index i) scores := by
  have hvar : 0 ≤ sampleVariance (promptSamples index i) scores :=
    sampleVariance_nonneg scores (Finset.card_pos.mpr ⟨i, mem_promptSamples index i⟩)
  show _ * _ = _ * _ ↔ _
  rw [mul_eq_mul_right_iff]
  unfold groupMean groupStd
  by_cases hcard : (promptSamples index i).card = 1
  · grind
  · simp only [if_neg hcard]
    rw [normalise_eq_iff norm hepsilon (Real.sqrt_nonneg _) (Real.sqrt_nonneg _), id_eq,
      sqrt_eq_sqrt_max_iff hvar]
    tauto

/-- On labels that `asTorchIndex` keeps apart both versions return.  A sample has one advantage in
both unless its score is normalised, it differs from the mean of a group of two or more, and the
variance of that group is below `epsilon`; there the vectorized version puts `epsilon` in the place
of the variance. -/
theorem grpo_eq_vectorized_iff {G : Type} [LinearOrder G] [ToString G]
    {labelType : LabelType G} {bsz responseLength : Nat}
    (tokenLevelRewards responseMask : Fin bsz → Fin responseLength → ℝ)
    {index : GroupIndex G bsz} (hindex : KeepsGroups labelType index) {epsilon : ℝ}
    (hepsilon : 0 < epsilon) (norm : Bool) :
    let group := promptSamples index.label
    let scores := outcomeScores tokenLevelRewards
    ∃ advantages vectorized,
      computeGrpoOutcomeAdvantage Real.sqrt tokenLevelRewards responseMask index.label epsilon
        norm = .ok (advantages, advantages) ∧
      computeGrpoVectorizedOutcomeAdvantage Real.sqrt labelType tokenLevelRewards responseMask
        index epsilon norm = .ok (vectorized, vectorized) ∧
      ∀ i t,
        (advantages i t = vectorized i t ↔
          norm = false ∨ responseMask i t = 0 ∨ (group i).card = 1 ∨
            scores i = sampleMean (group i) scores ∨
            epsilon ≤ sampleVariance (group i) scores) ∧
        (2 ≤ (group i).card → sampleVariance (group i) scores < epsilon →
          vectorized i t = normalise norm epsilon (sampleMean (group i) scores)
            (Real.sqrt epsilon) (scores i) * responseMask i t) := by
  intro group scores
  refine ⟨_, _, computeGrpoOutcomeAdvantage_eq Real.sqrt tokenLevelRewards responseMask index.label
    epsilon norm, computeGrpoVectorizedOutcomeAdvantage_eq Real.sqrt tokenLevelRewards responseMask
    hindex epsilon norm, fun i t => ⟨?_, fun hcard hvar => ?_⟩⟩
  · exact grpoAdvantage_eq_iff index.label scores responseMask hepsilon norm i t
  · have hne : ¬(promptSamples index.label i).card = 1 := by grind
    show _ * _ = _ * _
    unfold groupMean groupStd
    dsimp only
    rw [if_neg hne, if_neg hne, max_eq_right hvar.le]

/-- UUIDs. -/
def uuidLabels : LabelType String where
  toInt64? := fun _ => none
  comparable := fun _ _ => true
  str := id

/-- Two samples of one prompt with the scores 0 and 1/1000, at the default `epsilon`. -/
theorem grpo_ne_vectorized_tinyVariance :
    computeGrpoOutcomeAdvantage Real.sqrt (fun (i : Fin 2) (_ : Fin 1) => (i : ℝ) / 1000)
        (fun _ _ => 1) (GroupIndex.object fun _ => "f3a9").label (1 / 10 ^ 6) true ≠
      computeGrpoVectorizedOutcomeAdvantage Real.sqrt uuidLabels
        (fun (i : Fin 2) (_ : Fin 1) => (i : ℝ) / 1000) (fun _ _ => 1)
        (.object fun _ => "f3a9") (1 / 10 ^ 6) true := by
  intro h
  have hindex : KeepsGroups uuidLabels (.object fun _ : Fin 2 => "f3a9") :=
    keepsGroups_object (i := 0) rfl fun _ _ => rfl
  have hgroup : promptSamples (GroupIndex.object fun _ : Fin 2 => "f3a9").label 1 =
      Finset.univ := by decide
  rw [computeGrpoOutcomeAdvantage_eq, computeGrpoVectorizedOutcomeAdvantage_eq _ _ _ hindex] at h
  have hentry := congrFun (congrFun (congrArg Prod.fst (Except.ok.inj h)) 1) 0
  rw [grpoAdvantage_eq_iff _ _ _ (by norm_num), hgroup] at hentry
  norm_num [sampleVariance, sampleMean, outcomeScores, Fin.sum_univ_two] at hentry

/-- Two samples of one prompt with the scores 0 and 1, and one of another prompt. -/
theorem grpo_eq_vectorized_threeSamples : ∃ advantages vectorized,
      computeGrpoOutcomeAdvantage Real.sqrt (fun (i : Fin 3) (_ : Fin 1) => (i : ℝ) / 2)
        (fun _ _ => 1) (GroupIndex.object fun i => if i = 1 then "07bc" else "f3a9").label
        (1 / 10 ^ 6) true = .ok (advantages, advantages) ∧
      computeGrpoVectorizedOutcomeAdvantage Real.sqrt uuidLabels
        (fun (i : Fin 3) (_ : Fin 1) => (i : ℝ) / 2) (fun _ _ => 1)
        (.object fun i => if i = 1 then "07bc" else "f3a9") (1 / 10 ^ 6) true =
          .ok (vectorized, vectorized) ∧
      advantages = vectorized := by
  have hindex : KeepsGroups uuidLabels
      (.object fun i : Fin 3 => if i = 1 then "07bc" else "f3a9") :=
    keepsGroups_object (i := 0) rfl fun _ _ => rfl
  have hepsilon : (0 : ℝ) < 1 / 10 ^ 6 := by norm_num
  obtain ⟨advantages, vectorized, hloop, hvectorized, h⟩ := grpo_eq_vectorized_iff
    (fun (i : Fin 3) (_ : Fin 1) => (i : ℝ) / 2) (fun _ _ => 1) hindex hepsilon true
  refine ⟨advantages, vectorized, hloop, hvectorized, funext fun i => funext fun t => ?_⟩
  rw [(h i t).1]
  have hgroup : ∀ i : Fin 3, (promptSamples (GroupIndex.object
      fun i : Fin 3 => if i = 1 then "07bc" else "f3a9").label i).card = 1 ∨
      promptSamples (GroupIndex.object
        fun i : Fin 3 => if i = 1 then "07bc" else "f3a9").label i = {0, 2} := by decide
  rcases hgroup i with hone | htwo
  · exact .inr (.inr (.inl hone))
  · have hcard : ({0, 2} : Finset (Fin 3)).card = 2 := rfl
    have hsum : ∀ x : Fin 3 → ℝ, ∑ j ∈ {0, 2}, x j = x 0 + x 2 := fun x =>
      Finset.sum_pair (by decide)
    refine .inr (.inr (.inr (.inr ?_)))
    rw [htwo]
    unfold sampleVariance sampleMean
    rw [hcard, hsum]
    norm_num [outcomeScores]

end Verl
