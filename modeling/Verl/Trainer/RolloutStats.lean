import Verl.Lib.Dict
import Verl.Lib.PyStr
import Verl.Trainer.Gae

/-! # Statistics of a rollout batch (`verl/trainer/ppo/rollout_corr_helper.py`)

What the rejection mask and the correction weights share: the safety clamp, sums and means over
the valid tokens of a sequence (`masked_sum` and `masked_mean` with `axis=-1`), and the largest,
the smallest and the spread of some values.

`rowSum_eq`, `rowCount_eq`: for a binary mask these are sums over the valid tokens. -/

namespace Verl.RolloutCorr

variable {K : Type} {bsz seqLength : Nat}

/-- Floats of Python and functions of torch. -/
structure FloatFns (K : Type) where
  /-- `float(s)`; it may raise a `ValueError`. -/
  ofStr : List Char → Option K
  str : K → List Char
  exp : K → K
  log : K → K
  sqrt : K → K

def FloatFns.float (fns : FloatFns K) (s : List Char) : Except PyErr K :=
  match fns.ofStr s with
  | some x => .ok x
  | none => .error (.valueError s!"could not convert string to float: '{String.ofList s}'")

/-- `rollout_rs_threshold` and `rollout_is_threshold` -/
inductive ThresholdSpec (K : Type) where
  | number (threshold : K)
  | string (spec : String)

section Field

variable [Field K]

/-- A bool as a number. -/
def indicator (b : Bool) : K := if b then 1 else 0

section Rows

variable [DecidableEq K] (values responseMask : Fin bsz → Fin seqLength → K)

/-- `masked_sum(values, response_mask, axis=-1)` -/
def rowSum (i : Fin bsz) : K :=
  ∑ t, (if responseMask i t ≠ 0 then values i t else 0) * responseMask i t

/-- `masked_mean(values, response_mask, axis=-1)` -/
def rowMean (i : Fin bsz) : K :=
  rowSum values responseMask i / ((∑ t, responseMask i t) + 1 / 10 ^ 8)

/-- The values at the valid tokens. -/
def validEntries : List K :=
  (List.finRange bsz).flatMap fun i =>
    ((List.finRange seqLength).filter fun t => responseMask i t ≠ 0).map (values i)

end Rows

/-- `xs.mean()` -/
def listMean (xs : List K) : K := xs.sum / xs.length

/-- `xs.std()`, or zero for a single value. -/
def listStd (fns : FloatFns K) (xs : List K) : K :=
  if 1 < xs.length then
    fns.sqrt ((xs.map fun x => (x - listMean xs) ^ 2).sum / (xs.length - 1))
  else 0

variable [LinearOrder K]

/-- Safety bound of the exponent. -/
def safetyBound : K := 20

/-- `torch.clamp(x, min=-SAFETY_BOUND, max=SAFETY_BOUND)` -/
def clampSafe (x : K) : K := min (max x (-safetyBound)) safetyBound

/-- A sequence with a valid token. -/
def seqValid (responseMask : Fin bsz → Fin seqLength → K) (i : Fin bsz) : Bool :=
  0 < ∑ t, responseMask i t

/-- `xs.max()`, for some values. -/
def listMax (xs : List K) : K := xs.max?.getD 0

/-- `xs.min()`, for some values. -/
def listMin (xs : List K) : K := xs.min?.getD 0

/-- The fraction of the values for which the test is true. -/
def fractionOf (test : K → Bool) (xs : List K) : K := listMean (xs.map fun x => indicator (test x))

end Field

/-! ## Lemmas -/

section Lemmas

variable [Field K] [DecidableEq K] {responseMask : Fin bsz → Fin seqLength → K}

section

variable (hmask : ∀ i t, responseMask i t = 0 ∨ responseMask i t = 1)
include hmask

variable (values : Fin bsz → Fin seqLength → K)

theorem rowSum_eq (i : Fin bsz) :
    rowSum values responseMask i = ∑ t with responseMask i t = 1, values i t := by
  rw [Finset.sum_filter]
  refine Finset.sum_congr rfl fun t _ => ?_
  rcases hmask i t with h | h
  · rw [h, mul_zero, if_neg zero_ne_one]
  · grind

theorem rowCount_eq (i : Fin bsz) : ∑ t, responseMask i t =
      ((Finset.univ.filter fun t => responseMask i t = 1).card : K) := by
  rw [← Finset.sum_boole]
  refine Finset.sum_congr rfl fun t _ => ?_
  rcases hmask i t with h | h
  · rw [h, if_neg zero_ne_one]
  · rw [h, if_pos rfl]

theorem rowMean_eq (i : Fin bsz) :
    rowMean values responseMask i = (∑ t with responseMask i t = 1, values i t) /
      ((Finset.univ.filter fun t => responseMask i t = 1).card + 1 / 10 ^ 8) := by
  unfold rowMean
  rw [rowSum_eq hmask, rowCount_eq hmask]

end

end Lemmas

end Verl.RolloutCorr
