import Verl.Lib.Numerals

/-! # Small floating point formats

A format has numbers with a fixed distance next to zero; from `least * 2 ^ (mantissa + 1)` on, the
distance doubles with every power of two.  Rounding is to the nearest number, a tie to the even one.

    e4m3     0, 1/512, 2/512, ..., 15/512, 16/512, 18/512, ...

* `MiniFloat.round`: the number that stands for a rational number.
* `round_eq_zero_iff`: what is rounded to zero.
* `round_lt_two_mul`, `le_two_mul_round`: rounding is up to a factor of two otherwise. -/

namespace Verl

/-! ## Integers -/

/-- The nearest integer, a tie to the even one. -/
def roundHalfEven (x : ℚ) : ℤ :=
  let below := ⌊x⌋
  if x - below < 1 / 2 then below
  else if 1 / 2 < x - below then below + 1
  else if below % 2 = 0 then below else below + 1

theorem abs_roundHalfEven_sub_le (x : ℚ) : |(roundHalfEven x : ℚ) - x| ≤ 1 / 2 := by
  have hle := Int.floor_le x
  have hlt := Int.lt_floor_add_one x
  unfold roundHalfEven
  dsimp only
  rw [abs_le]
  split
  · constructor <;> linarith
  · split
    · grind
    · split
      · constructor <;> linarith
      · grind

theorem roundHalfEven_nonneg {x : ℚ} (h : 0 ≤ x) : 0 ≤ roundHalfEven x := by
  have hfloor := Int.floor_nonneg.2 h
  unfold roundHalfEven
  dsimp only
  split
  · exact hfloor
  · omega

theorem roundHalfEven_eq_zero {x : ℚ} (h : 0 ≤ x) (hle : x ≤ 1 / 2) : roundHalfEven x = 0 := by
  have hfloor : ⌊x⌋ = 0 := Int.floor_eq_iff.2 ⟨by simpa using h, by push_cast; linarith⟩
  unfold roundHalfEven
  dsimp only
  rw [hfloor, Int.cast_zero, sub_zero, if_neg (not_lt.2 hle)]
  split <;> simp

/-! ## Formats -/

structure MiniFloat where
  least : ℚ
  mantissa : Nat
  binades : Nat
  least_pos : 0 < least

namespace MiniFloat

variable (f : MiniFloat)

/-- The distance of the numbers around `y`, below the end of a binade. -/
def spacing (y : ℚ) : Nat → ℚ
  | 0 => f.least
  | k + 1 => if f.least * 2 ^ (f.mantissa + k + 1) ≤ y then f.least * 2 ^ (k + 1) else spacing y k

/-- The nearest number of the format, for a `y` that is not negative. -/
def round (y : ℚ) : ℚ :=
  roundHalfEven (y / f.spacing y f.binades) * f.spacing y f.binades

variable {f}

theorem spacing_pos (y : ℚ) (k : Nat) : 0 < f.spacing y k := by
  have hpos := f.least_pos
  induction k with
  | zero => exact hpos
  | succ k ih =>
    unfold spacing
    split
    · positivity
    · exact ih

/-- Next to zero the distance is the least one; further out it is no more than the number. -/
theorem spacing_le (y : ℚ) (k : Nat) : f.spacing y k = f.least ∨ f.spacing y k ≤ y := by
  induction k with
  | zero => exact Or.inl rfl
  | succ k ih =>
    unfold spacing
    split
    case isFalse => exact ih
    case isTrue h =>
      have hpow : (2 : ℚ) ^ (k + 1) ≤ 2 ^ (f.mantissa + k + 1) :=
        pow_le_pow_right₀ (by norm_num) (by omega)
      exact Or.inr ((mul_le_mul_of_nonneg_left hpow f.least_pos.le).trans h)

theorem least_le_spacing (y : ℚ) (k : Nat) : f.least ≤ f.spacing y k := by
  induction k with
  | zero => exact le_refl _
  | succ k ih =>
    unfold spacing
    split
    · exact le_mul_of_one_le_right f.least_pos.le (one_le_pow₀ (by norm_num))
    · exact ih

/-- The error is half of the distance at most. -/
theorem abs_round_sub_le (y : ℚ) : |f.round y - y| ≤ f.spacing y f.binades / 2 := by
  have hpos := f.spacing_pos y f.binades
  have hround := abs_roundHalfEven_sub_le (y / f.spacing y f.binades)
  have heq : f.round y - y =
      ((roundHalfEven (y / f.spacing y f.binades) : ℚ) - y / f.spacing y f.binades) *
        f.spacing y f.binades := by
    unfold round
    rw [sub_mul, div_mul_cancel₀ y hpos.ne']
  rw [heq, abs_mul, abs_of_pos hpos]
  calc |(roundHalfEven (y / f.spacing y f.binades) : ℚ) - y / f.spacing y f.binades| *
        f.spacing y f.binades
      ≤ 1 / 2 * f.spacing y f.binades := mul_le_mul_of_nonneg_right hround hpos.le
    _ = f.spacing y f.binades / 2 := by ring

theorem round_nonneg {y : ℚ} (h : 0 ≤ y) : 0 ≤ f.round y := by
  have hpos := f.spacing_pos y f.binades
  have hint : (0 : ℚ) ≤ roundHalfEven (y / f.spacing y f.binades) :=
    Int.cast_nonneg (roundHalfEven_nonneg (div_nonneg h hpos.le))
  exact mul_nonneg hint hpos.le

theorem round_of_le {y : ℚ} (h : 0 ≤ y) (hle : y ≤ f.least / 2) : f.round y = 0 := by
  have hpos := f.spacing_pos y f.binades
  have hleast := f.least_le_spacing y f.binades
  have hhalf : y / f.spacing y f.binades ≤ 1 / 2 := by
    rw [div_le_iff₀ hpos]
    linarith
  unfold round
  rw [roundHalfEven_eq_zero (div_nonneg h hpos.le) hhalf]
  simp

theorem round_pos {y : ℚ} (h : f.least / 2 < y) : 0 < f.round y := by
  have herr := (abs_le.1 (f.abs_round_sub_le y)).1
  have hpos := f.least_pos
  rcases f.spacing_le y f.binades with hs | hs <;> linarith

theorem round_eq_zero_iff {y : ℚ} (h : 0 ≤ y) : f.round y = 0 ↔ y ≤ f.least / 2 := by
  constructor
  · intro hzero
    by_contra hlt
    exact (f.round_pos (not_le.1 hlt)).ne' hzero
  · exact round_of_le h

theorem round_lt_two_mul {y : ℚ} (h : f.least / 2 < y) : f.round y < 2 * y := by
  have herr := (abs_le.1 (f.abs_round_sub_le y)).2
  have hpos := f.least_pos
  rcases f.spacing_le y f.binades with hs | hs <;> linarith

theorem le_two_mul_round {y : ℚ} (h : f.least / 2 < y) : y ≤ 2 * f.round y := by
  have herr := (abs_le.1 (f.abs_round_sub_le y)).1
  have hpos := f.spacing_pos y f.binades
  have hint : 0 < roundHalfEven (y / f.spacing y f.binades) := by
    by_contra hneg
    have hround : f.round y ≤ 0 := mul_nonpos_of_nonpos_of_nonneg
      (Int.cast_nonpos.2 (not_lt.1 hneg)) hpos.le
    exact (not_le.2 (f.round_pos h)) hround
  have hone : f.spacing y f.binades ≤ f.round y :=
    le_mul_of_one_le_left hpos.le (by exact_mod_cast hint)
  linarith

end MiniFloat

/-- FP8 with four bits of exponent and three of mantissa, up to 448. -/
def e4m3 : MiniFloat where
  least := 1 / 512
  mantissa := 3
  binades := 14
  least_pos := by norm_num

end Verl
