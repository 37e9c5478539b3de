import Verl.Trainer.Gae

/-! # Returns of REINFORCE++ and ReMax (`verl/trainer/ppo/core_algos.py`)

Both sum the rewards from a position to the end of its row.  REINFORCE++ goes through the positions
backward and multiplies what it carries by the mask ("Reset after EOS"); ReMax masks the rewards,
and takes `flip().cumsum().flip()`.  With `gamma = 1` and an outcome reward behind an observation:

    mask             1   1   0   0   1   1
    reward           0   0   0   0   0   5
    REINFORCE++      0   0   -   -   5   5
    ReMax            5   5   -   -   5   5

* `reinforcePlusPlusReturns`: the loop, before the advantages are whitened.
* `reinforcePlusPlusReturns_eq_iff`: both agree at the unmasked positions exactly if behind every
  gap of the mask the rewards sum to zero. -/

namespace Verl.RewardToGo

open Gae (maskedWhiten)

/-! ## Algorithm -/

section Algorithm

variable {K : Type} [Field K] {bsz responseLength : Nat}

structure AlgoConfig (K : Type) where
  gamma : K

/-- What goes from one turn of the loop to the next. -/
structure Carry (bsz responseLength : Nat) (K : Type) where
  runningReturn : Fin bsz → K
  returns : Fin bsz → Fin responseLength → K

def Carry.zero : Carry bsz responseLength K := ⟨fun _ => 0, fun _ _ => 0⟩

/-- The turn of position `t`. -/
def step (gamma : K) (tokenLevelRewards responseMask : Fin bsz → Fin responseLength → K)
    (c : Carry bsz responseLength K) (t : Fin responseLength) : Carry bsz responseLength K :=
  let runningReturn := fun i => tokenLevelRewards i t + gamma * c.runningReturn i
  let returns := fun i => Function.update (c.returns i) t (runningReturn i)
  -- Reset after EOS
  let runningReturn := fun i => runningReturn i * responseMask i t
  ⟨runningReturn, returns⟩

def reinforcePlusPlusReturns (gamma : K)
    (tokenLevelRewards responseMask : Fin bsz → Fin responseLength → K) :
    Fin bsz → Fin responseLength → K :=
  ((List.finRange responseLength).reverse.foldl (step gamma tokenLevelRewards responseMask)
    Carry.zero).returns

/-- `(advantages, returns)` -/
def computeReinforcePlusPlusOutcomeAdvantage [DecidableEq K] (rsqrt : K → K)
    (tokenLevelRewards responseMask : Fin bsz → Fin responseLength → K)
    (config : Option (AlgoConfig K)) :
    Except PyErr ((Fin bsz → Fin responseLength → K) × (Fin bsz → Fin responseLength → K)) := do
  match config with
  | none => throw (.assertionError "")
  | some config =>
    let returns := reinforcePlusPlusReturns config.gamma tokenLevelRewards responseMask
    let advantages ← maskedWhiten rsqrt returns responseMask
    return (fun i t => advantages i t * responseMask i t, returns)

/-- `x.flip(dims=[-1])` -/
def flip (x : Fin bsz → Fin responseLength → K) (i : Fin bsz) (t : Fin responseLength) : K :=
  x i t.rev

/-- `x.cumsum(dim=-1)` -/
def cumsum (x : Fin bsz → Fin responseLength → K) (i : Fin bsz) (t : Fin responseLength) : K :=
  ∑ j with j ≤ t, x i j

/-- `(advantages, returns)` -/
def computeRemaxOutcomeAdvantage (tokenLevelRewards : Fin bsz → Fin responseLength → K)
    (rewardBaselines : Fin bsz → K) (responseMask : Fin bsz → Fin responseLength → K) :
    (Fin bsz → Fin responseLength → K) × (Fin bsz → Fin responseLength → K) :=
  let returns := flip (cumsum (flip fun i t => tokenLevelRewards i t * responseMask i t))
  (fun i t => returns i t - rewardBaselines i * responseMask i t, returns)

end Algorithm

/-! ## Property -/

section Property

variable {K : Type} [Field K] {bsz responseLength : Nat}
  (tokenLevelRewards responseMask : Fin bsz → Fin responseLength → K)

/-- The unmasked rewards of a row from position `k` on. -/
def rewardToGo (i : Fin bsz) (k : Nat) : K :=
  ∑ j : Fin responseLength with k ≤ j.val, tokenLevelRewards i j * responseMask i j

/-- The returns of both are the same where the mask is one. -/
def ReturnsAgree (rewardBaselines : Fin bsz → K) : Prop :=
  ∀ i t, responseMask i t = 1 →
    reinforcePlusPlusReturns 1 tokenLevelRewards responseMask i t =
      (computeRemaxOutcomeAdvantage tokenLevelRewards rewardBaselines responseMask).2 i t

/-- Where an unmasked position is followed by a masked one, the rewards behind sum to zero. -/
def NoRewardBehindGaps : Prop :=
  ∀ i, ∀ t t' : Fin responseLength, t'.val = t.val + 1 → responseMask i t = 1 →
    responseMask i t' = 0 → rewardToGo tokenLevelRewards responseMask i t' = 0

end Property

/-! ## Lemmas -/

section Lemmas

variable {K : Type} [Field K] {bsz responseLength : Nat} (gamma : K)
  (tokenLevelRewards responseMask : Fin bsz → Fin responseLength → K)

/-! ### ReMax -/

theorem flip_cumsum_flip (x : Fin bsz → Fin responseLength → K) (i : Fin bsz)
    (t : Fin responseLength) : flip (cumsum (flip x)) i t = ∑ j with t ≤ j, x i j := by
  unfold flip
  refine Finset.sum_bij' (fun j _ => j.rev) (fun j _ => j.rev) ?_ ?_ ?_ ?_ ?_
  · grind
  · simp
  · exact fun j _ => Fin.rev_rev j
  · exact fun j _ => Fin.rev_rev j
  · exact fun j _ => rfl

theorem remaxReturns_eq (rewardBaselines : Fin bsz → K) (i : Fin bsz) (t : Fin responseLength) :
    (computeRemaxOutcomeAdvantage tokenLevelRewards rewardBaselines responseMask).2 i t =
      rewardToGo tokenLevelRewards responseMask i t :=
  flip_cumsum_flip (fun i t => tokenLevelRewards i t * responseMask i t) i t

variable (i : Fin bsz) {k : Nat}

theorem rewardToGo_eq (t : Fin responseLength) :
    rewardToGo tokenLevelRewards responseMask i t =
      tokenLevelRewards i t * responseMask i t +
        rewardToGo tokenLevelRewards responseMask i (t + 1) := by
  have hfilter : (Finset.univ.filter fun j : Fin responseLength => t.val ≤ j.val) =
      insert t (Finset.univ.filter fun j : Fin responseLength => t.val + 1 ≤ j.val) := by grind
  unfold rewardToGo
  rw [hfilter, Finset.sum_insert (by simp)]

theorem rewardToGo_of_le (h : responseLength ≤ k) (i : Fin bsz) :
    rewardToGo tokenLevelRewards responseMask i k = 0 := by
  apply Finset.sum_eq_zero
  intro j hj
  have hle := (Finset.mem_filter.1 hj).2
  omega

/-! ### REINFORCE++ -/

/-- What is carried when the positions from `k` on are through. -/
def carryFrom (k : Nat) : Carry bsz responseLength K :=
  ((List.finRange responseLength).drop k).foldr
    (fun t c => step gamma tokenLevelRewards responseMask c t) Carry.zero

theorem reinforcePlusPlusReturns_eq_carryFrom :
    reinforcePlusPlusReturns gamma tokenLevelRewards responseMask =
      (carryFrom gamma tokenLevelRewards responseMask 0).returns := by
  unfold reinforcePlusPlusReturns carryFrom
  rw [List.foldl_reverse, List.drop_zero]

theorem carryFrom_of_le (h : responseLength ≤ k) :
    carryFrom gamma tokenLevelRewards responseMask k = Carry.zero := by
  unfold carryFrom
  rw [List.drop_of_length_le (by rwa [List.length_finRange])]
  rfl

theorem carryFrom_eq (t : Fin responseLength) : carryFrom gamma tokenLevelRewards responseMask t =
      step gamma tokenLevelRewards responseMask
        (carryFrom gamma tokenLevelRewards responseMask (t + 1)) t := by
  have hlt : t.val < (List.finRange responseLength).length := by simp
  unfold carryFrom
  rw [List.drop_eq_getElem_cons hlt, List.getElem_finRange]
  rfl

theorem returns_carryFrom (t : Fin responseLength) {k : Nat} (h : k ≤ t) :
    (carryFrom gamma tokenLevelRewards responseMask k).returns i t =
      tokenLevelRewards i t +
        gamma * (carryFrom gamma tokenLevelRewards responseMask (t + 1)).runningReturn i := by
  obtain ⟨d, hd⟩ := Nat.exists_eq_add_of_le h
  induction d generalizing k with
  | zero =>
    rw [show k = t.val by omega, carryFrom_eq]
    exact Function.update_self _ _ _
  | succ d ih =>
    have hlt : k < responseLength := by
      omega
    have hne : t ≠ ⟨k, hlt⟩ := by grind
    rw [← ih (show k + 1 ≤ t by omega) (by omega)]
    rw [show k = (⟨k, hlt⟩ : Fin responseLength).val from rfl, carryFrom_eq]
    exact Function.update_of_ne hne _ _

theorem runningReturn_carryFrom (t : Fin responseLength) :
    (carryFrom gamma tokenLevelRewards responseMask t).runningReturn i =
      (tokenLevelRewards i t +
        gamma * (carryFrom gamma tokenLevelRewards responseMask (t + 1)).runningReturn i) *
          responseMask i t := by
  rw [carryFrom_eq]
  rfl

/-! ### GAE -/

/-- Without discounts, what GAE carries is what ReMax sums, for every mask and critic. -/
theorem lastgaelam_add_nextvalues (values : Fin bsz → Fin responseLength → K)
    (h : k ≤ responseLength) :
    let c := Gae.carryOf 1 1 tokenLevelRewards values responseMask
      ((List.finRange responseLength).drop k)
    c.lastgaelam i + c.nextvalues i = rewardToGo tokenLevelRewards responseMask i k := by
  induction h using Nat.decreasingInduction with
  | self =>
    rw [List.drop_of_length_le (by simp), rewardToGo_of_le _ _ (Nat.le_refl _)]
    exact add_zero 0
  | of_succ k hk ih =>
    rw [rewardToGo_eq tokenLevelRewards responseMask i ⟨k, hk⟩, ← ih,
      List.drop_eq_getElem_cons (by simpa using hk), List.getElem_finRange]
    dsimp only [Gae.carryOf, List.foldr_cons, Gae.step, Fin.cast_mk]
    ring

end Lemmas

/-! ## Top theorem -/

theorem returnsAgree_iff_noRewardBehindGaps {K : Type} [Field K] {bsz responseLength : Nat}
    (tokenLevelRewards : Fin bsz → Fin responseLength → K) (rewardBaselines : Fin bsz → K)
    {responseMask : Fin bsz → Fin responseLength → K}
    (hmask : ∀ i t, responseMask i t = 0 ∨ responseMask i t = 1) :
    ReturnsAgree tokenLevelRewards responseMask rewardBaselines ↔
      NoRewardBehindGaps tokenLevelRewards responseMask := by
  -- at an unmasked position both add to its reward what comes from the next one
  have hagree : ∀ i t, responseMask i t = 1 →
      (reinforcePlusPlusReturns 1 tokenLevelRewards responseMask i t =
          (computeRemaxOutcomeAdvantage tokenLevelRewards rewardBaselines responseMask).2 i t ↔
        (carryFrom 1 tokenLevelRewards responseMask (t + 1)).runningReturn i =
          rewardToGo tokenLevelRewards responseMask i (t + 1)) := by
    intro i t hone
    rw [reinforcePlusPlusReturns_eq_carryFrom, returns_carryFrom _ _ _ i t (Nat.zero_le _),
      remaxReturns_eq, rewardToGo_eq, hone, one_mul, mul_one]
    exact add_right_inj _
  constructor
  · intro h i t t' hnext hone hzero
    have heq := (hagree i t hone).1 (h i t hone)
    rw [← hnext, runningReturn_carryFrom, hzero, mul_zero] at heq
    exact heq.symm
  · intro h i t hone
    rw [hagree i t hone]
    -- backward over the positions
    induction hd : responseLength - t.val using Nat.strong_induction_on generalizing t with
    | _ d ih =>
      by_cases hlast : responseLength ≤ t.val + 1
      · rw [carryFrom_of_le _ _ _ hlast, rewardToGo_of_le _ _ hlast]
        rfl
      · obtain ⟨t', ht'⟩ : ∃ t' : Fin responseLength, t'.val = t.val + 1 :=
          ⟨⟨t.val + 1, by omega⟩, rfl⟩
        rw [← ht', runningReturn_carryFrom]
        rcases hmask i t' with hzero | hone'
        · rw [hzero, mul_zero, h i t t' ht' hone hzero]
        · rw [rewardToGo_eq, hone', one_mul, mul_one, mul_one,
            ih (responseLength - t'.val) (by omega) t' hone' rfl]

/-- An observation between two turns; the rewards behind it sum to zero. -/
theorem returnsAgree_observation :
    ReturnsAgree ![![3, 7, 2, -2]] ![![1, 0, 1, 1]] (fun _ : Fin 1 => (0 : ℚ)) := by
  have hmask : ∀ i t, (![![1, 0, 1, 1]] : Fin 1 → Fin 4 → ℚ) i t = 0 ∨
      (![![1, 0, 1, 1]] : Fin 1 → Fin 4 → ℚ) i t = 1 := by decide +kernel
  refine (returnsAgree_iff_noRewardBehindGaps _ _ hmask).2 ?_
  unfold NoRewardBehindGaps
  decide +kernel

/-- The outcome reward does not reach the turn before the observation. -/
theorem not_returnsAgree_outcomeReward :
    ¬ReturnsAgree ![![0, 0, 1]] ![![1, 0, 1]] (fun _ : Fin 1 => (0 : ℚ)) := by
  intro h
  exact absurd (h 0 0 rfl) (by decide +kernel)

/-- With `gamma = lam = 1`, the returns of GAE are those of ReMax where the mask is one. -/
theorem gaeReturns_eq_remaxReturns {K : Type} [Field K] [DecidableEq K] {bsz responseLength : Nat}
    {rsqrt : K → K} {tokenLevelRewards values responseMask : Fin bsz → Fin responseLength → K}
    {out : (Fin bsz → Fin responseLength → K) × (Fin bsz → Fin responseLength → K)}
    (h : Gae.computeGaeAdvantageReturn rsqrt tokenLevelRewards values responseMask 1 1 = .ok out)
    (rewardBaselines : Fin bsz → K) {i : Fin bsz} {t : Fin responseLength}
    (hone : responseMask i t = 1) :
    out.2 i t =
      (computeRemaxOutcomeAdvantage tokenLevelRewards rewardBaselines responseMask).2 i t := by
  obtain ⟨raw, hraw, hout⟩ := bind_eq_ok.1 h
  obtain ⟨advantages, -, hreturn⟩ := bind_eq_ok.1 hout
  cases hreturn
  have hcarry := lastgaelam_add_nextvalues tokenLevelRewards responseMask i values t.isLt.le
  rw [remaxReturns_eq, ← hcarry, ← Gae.rawAdvantages_eq_lastgaelam 1 1 _ _ _ hraw,
    List.drop_eq_getElem_cons (by simp), List.getElem_finRange]
  dsimp only [Gae.carryOf, List.foldr_cons, Gae.step, Fin.cast_mk]
  rw [hone]
  ring

theorem gaeReturns_eq_remaxReturns_turns : ∃ out,
    Gae.computeGaeAdvantageReturn id Gae.rewards Gae.critic Gae.turns 1 1 = .ok out ∧
      out.2 0 0 = (computeRemaxOutcomeAdvantage Gae.rewards 0 Gae.turns).2 0 0 := by
  have hok : (Gae.computeGaeAdvantageReturn id Gae.rewards Gae.critic Gae.turns 1 1).isOk := by
    decide +kernel
  cases h : Gae.computeGaeAdvantageReturn id Gae.rewards Gae.critic Gae.turns 1 1 with
  | error e =>
    rw [h] at hok
    cases hok
  | ok out => exact ⟨out, rfl, gaeReturns_eq_remaxReturns h 0 rfl⟩

end Verl.RewardToGo
