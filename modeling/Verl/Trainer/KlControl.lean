import Verl.Lib.Python

/-! # The coefficient of the KL penalty (`verl/trainer/ppo/core_algos.py`)

`apply_kl_penalty` updates the controller once for each batch, with the mean KL of the batch and its
number of rows.  With `n` rows and the horizon `h` the adaptive one multiplies its value by
`1 - n / 5h` at least.  A value below zero would reward the divergence that it is to punish. -/

namespace Verl.KlControl

/-- `algorithm.kl_ctrl`. -/
structure KlCtrlConfig where
  type : String
  klCoef : ℚ
  targetKl : ℚ
  horizon : ℚ

structure AdaptiveKLController where
  value : ℚ
  target : ℚ
  horizon : ℚ
  horizon_pos : 0 < horizon

inductive KLController where
  | fixed (value : ℚ)
  | adaptive (c : AdaptiveKLController)

namespace KLController

def value : KLController → ℚ
  | fixed value => value
  | adaptive c => c.value

def update (currentKl : ℚ) (nSteps : Nat) : KLController → Except PyErr KLController
  | fixed value => .ok (fixed value)
  | adaptive c =>
    if c.target = 0 then .error .zeroDivisionError
    else
      -- `np.clip`
      let proportionalError := min (max (currentKl / c.target - 1) (-1 / 5)) (1 / 5)
      let mult := 1 + proportionalError * nSteps / c.horizon
      .ok (adaptive { c with value := c.value * mult })

/-- One update for each batch. -/
def updates (ctrl : KLController) (batches : List (ℚ × Nat)) : Except PyErr KLController :=
  batches.foldlM (fun ctrl batch => ctrl.update batch.1 batch.2) ctrl

end KLController

def getKlController (klCtrl : KlCtrlConfig) : Except PyErr KLController :=
  if klCtrl.type = "fixed" then .ok (.fixed klCtrl.klCoef)
  else if klCtrl.type = "adaptive" then
    if h : 0 < klCtrl.horizon then .ok (.adaptive ⟨klCtrl.klCoef, klCtrl.targetKl, klCtrl.horizon, h⟩)
    else .error (.assertionError s!"horizon must be larger than 0. Got {klCtrl.horizon}")
  else .error (.notImplementedError "")

/-- The value is positive, and stays so in batches of at most `n` rows. -/
def Live (n : Nat) : KLController → Prop
  | .fixed value => 0 < value
  | .adaptive c => 0 < c.value ∧ c.target ≠ 0 ∧ n < 5 * c.horizon

variable {ctrl : KLController} {n : Nat}

theorem Live.value_pos (h : Live n ctrl) : 0 < ctrl.value := by
  cases ctrl with
  | fixed value => exact h
  | adaptive c => exact h.1

theorem Live.update (h : Live n ctrl) (currentKl : ℚ) {nSteps : Nat} (hle : nSteps ≤ n) :
    ∃ ctrl', ctrl.update currentKl nSteps = .ok ctrl' ∧ Live n ctrl' := by
  cases ctrl with
  | fixed value => exact ⟨_, rfl, h⟩
  | adaptive c =>
    obtain ⟨hvalue, htarget, hlt⟩ := h
    refine ⟨_, if_neg htarget, mul_pos hvalue ?_, htarget, hlt⟩
    have hclip : (-1 / 5 : ℚ) ≤ min (max (currentKl / c.target - 1) (-1 / 5)) (1 / 5) :=
      le_min (le_max_right _ _) (by norm_num)
    have hsteps : (nSteps : ℚ) < 5 * c.horizon := (Nat.cast_le.mpr hle).trans_lt hlt
    have hmul := mul_le_mul_of_nonneg_right hclip (Nat.cast_nonneg (α := ℚ) nSteps)
    have hdiv : -1 < min (max (currentKl / c.target - 1) (-1 / 5)) (1 / 5) * nSteps / c.horizon := by
      rw [lt_div_iff₀ c.horizon_pos]
      linarith
    linarith

theorem Live.updates (h : Live n ctrl) {batches : List (ℚ × Nat)} (hle : ∀ b ∈ batches, b.2 ≤ n) :
    ∃ ctrl', ctrl.updates batches = .ok ctrl' ∧ Live n ctrl' := by
  induction batches generalizing ctrl with
  | nil => exact ⟨ctrl, rfl, h⟩
  | cons b batches ih =>
    obtain ⟨ctrl₁, hupdate, h₁⟩ := h.update b.1 (hle b List.mem_cons_self)
    obtain ⟨ctrl₂, hrest, h₂⟩ := ih h₁ fun b hb => hle b (List.mem_cons_of_mem _ hb)
    refine ⟨ctrl₂, ?_, h₂⟩
    unfold KLController.updates
    rw [List.foldlM_cons, hupdate]
    exact hrest

/-- The coefficient is positive after all runs with at most `n` rows a batch exactly if it is fixed,
or `n` is less than five times the horizon; the code asks for a positive horizon. -/
theorem value_pos_iff {klCtrl : KlCtrlConfig} (hctrl : getKlController klCtrl = .ok ctrl)
    (hcoef : 0 < klCtrl.klCoef) (htarget : klCtrl.targetKl ≠ 0) (n : Nat) :
    (∀ batches : List (ℚ × Nat), (∀ b ∈ batches, b.2 ≤ n) →
      ∃ ctrl', ctrl.updates batches = .ok ctrl' ∧ 0 < ctrl'.value) ↔
      klCtrl.type = "fixed" ∨ n < 5 * klCtrl.horizon := by
  trans Live n ctrl
  · constructor
    · intro h
      obtain ⟨_, ⟨⟩, hvalue⟩ := h [] (by simp)
      cases ctrl with
      | fixed value => exact hvalue
      | adaptive c =>
        -- a batch without divergence
        obtain ⟨ctrl', hrun, hvalue'⟩ := h [(0, n)] (by simp)
        by_cases htarget : c.target = 0
        · simp [KLController.updates, KLController.update, htarget] at hrun
        · simp only [KLController.updates, KLController.update, if_neg htarget,
            List.foldlM_cons, List.foldlM_nil] at hrun
          cases hrun
          refine ⟨hvalue, htarget, ?_⟩
          have hmult := pos_of_mul_pos_right hvalue' hvalue.le
          rw [zero_div, show min (max ((0 : ℚ) - 1) (-1 / 5)) (1 / 5) = -1 / 5 by norm_num] at hmult
          have hdiv : -1 < -1 / 5 * n / c.horizon := by linarith
          rw [lt_div_iff₀ c.horizon_pos] at hdiv
          linarith
    · intro h batches hle
      obtain ⟨ctrl', hrun, h'⟩ := h.updates hle
      exact ⟨ctrl', hrun, h'.value_pos⟩
  · unfold getKlController at hctrl
    split at hctrl
    · grind [Live]
    · grind [Live]

/-- The defaults, and two batches. -/
theorem value_pos_iff_default : ∃ ctrl',
    (KLController.adaptive ⟨1 / 1000, 1 / 10, 10000, by norm_num⟩).updates [(0, 256), (1, 200)] =
      .ok ctrl' ∧ 0 < ctrl'.value := by
  have hctrl : getKlController ⟨"adaptive", 1 / 1000, 1 / 10, 10000⟩ =
      .ok (.adaptive ⟨1 / 1000, 1 / 10, 10000, by norm_num⟩) := by simp [getKlController]
  refine (value_pos_iff hctrl ?_ ?_ 256).mpr (.inr ?_) _ ?_
  all_goals norm_num

end Verl.KlControl
