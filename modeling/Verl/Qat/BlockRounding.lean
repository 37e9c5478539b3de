import Verl.Qat.Quantizer

/-! # A block in training and in the export

Both sides round a block with one FP8 scale: the forward with `block_max_quant`, the export with
`weight_scale / weight_global_scale`.  With one amax these are the same number, `blockStep`, except
where it is small:

    blockStep             forward rounds in units of     export rounds in units of
    1e-5 or more          blockStep                      blockStep
    below 1e-5            1                              blockStep
    0                     1                              amax / 21504 -/

namespace Verl.Qat

/-- The largest absolute value of a block over 6, rounded as a multiple of `amax / 2688`. -/
def blockStep (amax blockMax : ℚ) : ℚ := e4m3.round (448 * blockMax / amax) * (amax / (6 * 448))

/-- The packed value times `weight_scale` over `weight_global_scale`. -/
def dequantized (scale globalScale x : ℚ) : ℚ :=
  castToFp4 (x * globalScale / scale) * scale / globalScale

/-- What is scaled with `scale / globalScale` is rounded with that. -/
theorem dequantized_eq {scale globalScale : ℚ} (hscale : 0 < scale) (hglobal : 0 < globalScale)
    (x : ℚ) : dequantized scale globalScale x = rescaled (scale / globalScale) x := by
  have hquot : x * globalScale / scale = x / (scale / globalScale) := by
    field_simp
  have hstep : 0 < scale / globalScale := div_pos hscale hglobal
  have hsign : 0 ≤ x / (scale / globalScale) ↔ 0 ≤ x := by
    rw [le_div_iff₀ hstep, zero_mul]
  unfold dequantized castToFp4 rescaled
  rw [hquot, abs_div, abs_of_pos hstep, mul_div_assoc]
  by_cases hx : 0 ≤ x
  · rw [if_pos (hsign.2 hx), if_pos hx]
  · grind

section Step

variable {amax blockMax : ℚ}

section

variable (hpos : 0 < amax)
include hpos

theorem blockMax_div_le (hle : blockMax ≤ amax) : 448 * blockMax / amax ≤ 448 := by
  rw [div_le_iff₀ hpos]
  linarith

theorem blockStep_nonneg (h0 : 0 ≤ blockMax) : 0 ≤ blockStep amax blockMax :=
  mul_nonneg (MiniFloat.round_nonneg (by positivity)) (by positivity)

theorem blockMaxQuant_eq (hle : blockMax ≤ amax) : blockMaxQuant (amax / (6 * 448)) blockMax =
      if 1 / 10 ^ 5 ≤ blockStep amax blockMax then blockStep amax blockMax else 1 := by
  have hglobal : 0 < amax / (6 * 448) := by positivity
  have hscaled : blockMax / (6 * (amax / (6 * 448))) = 448 * blockMax / amax := by
    field_simp
  unfold blockMaxQuant
  dsimp only
  rw [if_pos hglobal, hscaled, min_eq_left (blockMax_div_le hpos hle)]
  rfl

theorem blockwiseScale_eq (h0 : 0 ≤ blockMax) (hle : blockMax ≤ amax) :
    blockwiseScale (generateGparam amax) blockMax =
      if e4m3.round (448 * blockMax / amax) = 0 then 1 / 8
      else e4m3.round (448 * blockMax / amax) := by
  have hprod : generateGparam amax * (blockMax / 6) = 448 * blockMax / amax := by
    unfold generateGparam
    field_simp
  have hlow : -448 ≤ 448 * blockMax / amax := by
    have hnonneg : 0 ≤ 448 * blockMax / amax := by positivity
    linarith
  unfold blockwiseScale
  dsimp only
  rw [hprod, max_eq_left hlow, min_eq_left (blockMax_div_le hpos hle)]

theorem blockStep_eq_zero_iff :
    blockStep amax blockMax = 0 ↔ e4m3.round (448 * blockMax / amax) = 0 := by
  have hglobal : amax / (6 * 448) ≠ 0 := by positivity
  unfold blockStep
  rw [mul_eq_zero, or_iff_left hglobal]

/-- The largest value of a block is more than the step, unless this is zero. -/
theorem blockStep_lt (h0 : 0 ≤ blockMax) (hne : blockStep amax blockMax ≠ 0) :
    blockStep amax blockMax / 4 < blockMax ∧ blockMax ≤ 12 * blockStep amax blockMax := by
  have hnonneg : 0 ≤ 448 * blockMax / amax := by positivity
  have hfar : e4m3.least / 2 < 448 * blockMax / amax := by
    rw [← not_le, ← MiniFloat.round_eq_zero_iff hnonneg]
    exact mt (blockStep_eq_zero_iff hpos).2 hne
  have hlt := MiniFloat.round_lt_two_mul hfar
  have hle := MiniFloat.le_two_mul_round hfar
  have hglobal : 0 < amax / (6 * 448) := by positivity
  have hmax : blockMax = 6 * ((448 * blockMax / amax) * (amax / (6 * 448))) := by
    field_simp
  have hlt' := mul_lt_mul_of_pos_right hlt hglobal
  have hle' := mul_le_mul_of_nonneg_right hle hglobal.le
  have hstep : blockStep amax blockMax =
      e4m3.round (448 * blockMax / amax) * (amax / (6 * 448)) := rfl
  constructor <;> linarith

theorem le_of_blockStep_eq_zero (h0 : 0 ≤ blockMax)
    (hzero : blockStep amax blockMax = 0) : blockMax ≤ amax / (448 * 1024) := by
  have hnonneg : 0 ≤ 448 * blockMax / amax := by positivity
  have hle := (MiniFloat.round_eq_zero_iff hnonneg).1 ((blockStep_eq_zero_iff hpos).1 hzero)
  rw [div_le_iff₀ hpos] at hle
  have hleast : e4m3.least = 1 / 512 := rfl
  rw [hleast] at hle
  linarith

end

end Step

/-! ## Blocks -/

/-- The two sides round with one step, or they both round to zero. -/
def StepFits (amax blockMax : ℚ) : Prop :=
  1 / 10 ^ 5 ≤ blockStep amax blockMax ∨ blockStep amax blockMax = 0 ∧ blockMax ≤ 1 / 4

theorem dequantized_eq_zero {amax blockMax x : ℚ} (hpos : 0 < amax) (h0 : 0 ≤ blockMax)
    (hle : blockMax ≤ amax) (hx : |x| ≤ blockMax) (hzero : blockStep amax blockMax = 0) :
    dequantized (blockwiseScale (generateGparam amax) blockMax) (generateGparam amax) x = 0 := by
  have hglobal : 0 < generateGparam amax := div_pos (by norm_num) hpos
  have hsmall := le_of_blockStep_eq_zero hpos h0 hzero
  rw [blockwiseScale_eq hpos h0 hle, if_pos ((blockStep_eq_zero_iff hpos).1 hzero),
    dequantized_eq (by norm_num) hglobal, rescaled_eq_zero_iff (by positivity)]
  have hscale : 1 / 8 / generateGparam amax / 4 = amax / 86016 := by
    unfold generateGparam
    field_simp
    norm_num
  linarith

/-- An exported entry of another block is rounded with the step. -/
theorem dequantized_eq_rescaled {amax blockMax : ℚ} (hpos : 0 < amax) (h0 : 0 ≤ blockMax)
    (hle : blockMax ≤ amax) (hne : blockStep amax blockMax ≠ 0) (x : ℚ) :
    dequantized (blockwiseScale (generateGparam amax) blockMax) (generateGparam amax) x =
      rescaled (blockStep amax blockMax) x := by
  have hglobal : 0 < generateGparam amax := div_pos (by norm_num) hpos
  have hround : e4m3.round (448 * blockMax / amax) ≠ 0 := mt (blockStep_eq_zero_iff hpos).2 hne
  have hround_pos : 0 < e4m3.round (448 * blockMax / amax) :=
    lt_of_le_of_ne (MiniFloat.round_nonneg (by positivity)) (Ne.symm hround)
  rw [blockwiseScale_eq hpos h0 hle, if_neg hround, dequantized_eq hround_pos hglobal]
  have hstep : e4m3.round (448 * blockMax / amax) / generateGparam amax =
      blockStep amax blockMax := by
    unfold generateGparam blockStep
    rw [div_div_eq_mul_div, mul_div_assoc, mul_comm (448 : ℚ) 6]
  rw [hstep]

theorem exists_abs_eq_amax {block : List ℚ} (h : block ≠ []) : ∃ x ∈ block, |x| = amax block := by
  induction block with
  | nil => exact absurd rfl h
  | cons y block ih =>
    have hcons : amax (y :: block) = max |y| (amax block) := rfl
    cases block with
    | nil =>
      refine ⟨y, List.mem_cons_self, ?_⟩
      exact (max_eq_left (abs_nonneg y)).symm
    | cons z block =>
      rcases max_choice |y| (amax (z :: block)) with hmax | hmax
      · exact ⟨y, List.mem_cons_self, by rw [hcons, hmax]⟩
      · grind

theorem abs_le_amax {block : List ℚ} {x : ℚ} (h : x ∈ block) : |x| ≤ amax block := by
  induction block with
  | nil => cases h
  | cons y block ih =>
    rcases List.mem_cons.1 h with rfl | h
    · exact le_max_left _ _
    · exact le_max_of_le_right (ih h)

/-- For which blocks the forward and the export have the same values. -/
theorem agree_iff {globalAmax : ℚ} {block : List ℚ} (hpos : 0 < globalAmax) (hne : block ≠ [])
    (hle : amax block ≤ globalAmax) :
    (∀ x ∈ block, rescaled (blockMaxQuant (globalAmax / (6 * 448)) (amax block)) x =
      dequantized (blockwiseScale (generateGparam globalAmax) (amax block))
        (generateGparam globalAmax) x) ↔ StepFits globalAmax (amax block) := by
  have h0 : 0 ≤ amax block := largest_nonneg _
  obtain ⟨top, htop, htop_eq⟩ := exists_abs_eq_amax hne
  rw [blockMaxQuant_eq hpos hle]
  by_cases hzero : blockStep globalAmax (amax block) = 0
  · -- the export has zeros only
    have hexport : ∀ x ∈ block, dequantized (blockwiseScale (generateGparam globalAmax)
        (amax block)) (generateGparam globalAmax) x = 0 := fun x hx =>
      dequantized_eq_zero hpos h0 hle (abs_le_amax hx) hzero
    have hsmall : ¬1 / 10 ^ 5 ≤ blockStep globalAmax (amax block) := by
      rw [hzero]
      norm_num
    rw [if_neg hsmall]
    constructor
    · intro h
      have htop_zero := (h top htop).trans (hexport top htop)
      rw [rescaled_eq_zero_iff one_pos, htop_eq] at htop_zero
      exact Or.inr ⟨hzero, htop_zero⟩
    · rintro (h | ⟨-, h⟩) x hx
      · exact absurd h hsmall
      · rw [hexport x hx, rescaled_eq_zero_iff one_pos]
        exact (abs_le_amax hx).trans h
  · have hbounds := blockStep_lt hpos h0 hzero
    have hstep_pos : 0 < blockStep globalAmax (amax block) :=
      lt_of_le_of_ne (blockStep_nonneg hpos h0) (Ne.symm hzero)
    simp only [dequantized_eq_rescaled hpos h0 hle hzero]
    constructor
    · intro h
      by_contra hfits
      have hsmall : ¬1 / 10 ^ 5 ≤ blockStep globalAmax (amax block) := fun hle =>
        hfits (Or.inl hle)
      -- the forward has a zero where the export has none
      have hforward : rescaled 1 top = 0 := by
        rw [rescaled_eq_zero_iff one_pos]
        linarith
      have heq := h top htop
      rw [if_neg hsmall, hforward, eq_comm, rescaled_eq_zero_iff hstep_pos] at heq
      linarith
    · rintro (h | ⟨h, -⟩) x -
      · rw [if_pos h]
      · exact absurd h hzero

end Verl.Qat
