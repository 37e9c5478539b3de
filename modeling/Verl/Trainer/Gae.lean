import Verl.Lib.Python

/-! # Generalized advantage estimation (`verl/trainer/ppo/core_algos.py`)

`compute_gae_advantage_return` goes through the positions of a batch from the last to the first, and
carries the value and the advantage of the position behind; at a masked position both stay as they
are.

    mask                1   0   0   1   1   0
    carried from        3   3   3   4   -   -

* `advantage`: the textbook sum of the discounted temporal differences of a sequence. -/

namespace Verl.Gae

open List

/-! ## Algorithm -/

section Algorithm

variable {K : Type} [Field K] {bsz genLen : Nat}

/-- What is carried from one turn of the loop to the next. -/
structure Carry (bsz : Nat) (K : Type) where
  nextvalues : Fin bsz → K
  lastgaelam : Fin bsz → K
  advantagesReversed : List (Fin bsz → K)

def Carry.zero : Carry bsz K := ⟨fun _ => 0, fun _ => 0, []⟩

/-- The turn of position `t`. -/
def step (gamma lam : K) (tokenLevelRewards values responseMask : Fin bsz → Fin genLen → K)
    (c : Carry bsz K) (t : Fin genLen) : Carry bsz K :=
  let delta := fun i => tokenLevelRewards i t + gamma * c.nextvalues i - values i t
  let lastgaelam_ := fun i => delta i + gamma * lam * c.lastgaelam i
  let nextvalues := fun i =>
    values i t * responseMask i t + (1 - responseMask i t) * c.nextvalues i
  let lastgaelam := fun i =>
    lastgaelam_ i * responseMask i t + (1 - responseMask i t) * c.lastgaelam i
  ⟨nextvalues, lastgaelam, c.advantagesReversed ++ [lastgaelam]⟩

/-- `torch.stack(advantages_reversed[::-1], dim=1)`, after the loop. -/
def rawAdvantages (gamma lam : K)
    (tokenLevelRewards values responseMask : Fin bsz → Fin genLen → K) :
    Except PyErr (Fin bsz → Fin genLen → K) :=
  let c := (List.finRange genLen).reverse.foldl
    (step gamma lam tokenLevelRewards values responseMask) Carry.zero
  match c.advantagesReversed.reverse with
  | [] => .error (.runtimeError "stack expects a non-empty TensorList")
  | columns => .ok fun i t => columns.getD t (fun _ => 0) i

variable [DecidableEq K]

def maskedSum (values mask : Fin bsz → Fin genLen → K) : K :=
  ∑ i, ∑ t, (if mask i t ≠ 0 then values i t else 0) * mask i t

def maskedMean (values mask : Fin bsz → Fin genLen → K) : K :=
  maskedSum values mask / ((∑ i, ∑ t, mask i t) + 1 / 10 ^ 8)

def maskedVar (values mask : Fin bsz → Fin genLen → K) : Except PyErr K := do
  let mean := maskedMean values mask
  let variance := maskedMean (fun i t => (values i t - mean) ^ 2) mask
  let maskSum := ∑ i, ∑ t, mask i t
  if maskSum = 0 then
    throw (.valueError "At least one element in the mask has to be 1.")
  if maskSum = 1 then
    throw (.valueError "The sum of the mask is one, which can cause a division by zero.")
  return variance * (maskSum / (maskSum - 1))

/-- `masked_whiten`; `rsqrt` is `torch.rsqrt`. -/
def maskedWhiten (rsqrt : K → K) (values mask : Fin bsz → Fin genLen → K) :
    Except PyErr (Fin bsz → Fin genLen → K) := do
  let mean := maskedMean values mask
  let var ← maskedVar values mask
  return fun i t => (values i t - mean) * rsqrt (var + 1 / 10 ^ 8)

def computeGaeAdvantageReturn (rsqrt : K → K)
    (tokenLevelRewards values responseMask : Fin bsz → Fin genLen → K) (gamma lam : K) :
    Except PyErr ((Fin bsz → Fin genLen → K) × (Fin bsz → Fin genLen → K)) := do
  let advantages ← rawAdvantages gamma lam tokenLevelRewards values responseMask
  let returns := fun i t => advantages i t + values i t
  let advantages ← maskedWhiten rsqrt advantages responseMask
  return (advantages, returns)

end Algorithm

/-! ## The textbook -/

section Textbook

variable {K : Type} [Field K]

/-- `δ` of a position; the value behind the last one is zero. -/
def tdError (gamma : K) (rewards values : List K) (k : Nat) : K :=
  rewards.getD k 0 + gamma * values.getD (k + 1) 0 - values.getD k 0

def advantage (gamma lam : K) (rewards values : List K) (k : Nat) : K :=
  ∑ l ∈ Finset.range (rewards.length - k), (gamma * lam) ^ l * tdError gamma rewards values (k + l)

/-- The return that goes with the advantage. -/
def lambdaReturn (gamma lam : K) (rewards values : List K) (k : Nat) : K :=
  advantage gamma lam rewards values k + values.getD k 0

variable (gamma lam : K)

@[simp] theorem advantage_nil (values : List K) (k : Nat) :
    advantage gamma lam [] values k = 0 := by
  simp [advantage]

variable (r v : K) (rewards values : List K)

theorem tdError_cons_succ (k : Nat) :
    tdError gamma (r :: rewards) (v :: values) (k + 1) = tdError gamma rewards values k := by
  simp only [tdError, getD_cons_succ]

@[simp] theorem advantage_cons_succ (r v : K) (rewards values : List K) (k : Nat) :
    advantage gamma lam (r :: rewards) (v :: values) (k + 1) =
      advantage gamma lam rewards values k := by
  unfold advantage
  rw [length_cons, Nat.add_sub_add_right]
  refine Finset.sum_congr rfl fun l _ => ?_
  rw [Nat.add_right_comm, tdError_cons_succ]

theorem advantage_cons_zero :
    advantage gamma lam (r :: rewards) (v :: values) 0 =
      r + gamma * values.getD 0 0 - v + gamma * lam * advantage gamma lam rewards values 0 := by
  unfold advantage
  rw [Nat.sub_zero, length_cons, Finset.sum_range_succ', Finset.mul_sum,
    add_comm]
  congr 1
  · simp [tdError]
  · refine Finset.sum_congr rfl fun l _ => ?_
    rw [Nat.zero_add, tdError_cons_succ]
    ring

theorem advantage_append (rewards values rewards' values' : List K)
    (h : rewards.length = values.length) :
    advantage gamma lam (rewards ++ rewards') (values ++ values') rewards.length =
      advantage gamma lam rewards' values' 0 := by
  induction rewards generalizing values with
  | nil =>
    obtain rfl := length_eq_zero_iff.1 h.symm
    rfl
  | cons r rewards ih =>
    cases values with
    | nil => cases h
    | cons v values =>
      rw [cons_append, cons_append, length_cons, advantage_cons_succ]
      exact ih values (Nat.succ.inj h)

end Textbook

/-! ## Lemmas -/

section Lemmas

variable {K : Type} [Field K] {bsz genLen : Nat}

section Carry

variable (gamma lam : K) (tokenLevelRewards values responseMask : Fin bsz → Fin genLen → K)

/-- What is carried when the positions `ts` are through. -/
def carryOf (ts : List (Fin genLen)) : Carry bsz K :=
  ts.foldr (fun t c => step gamma lam tokenLevelRewards values responseMask c t) Carry.zero

theorem foldl_step_eq :
    (finRange genLen).reverse.foldl (step gamma lam tokenLevelRewards values responseMask)
      Carry.zero =
        carryOf gamma lam tokenLevelRewards values responseMask (finRange genLen) :=
  foldl_reverse

theorem getElem?_columns (before after : List (Fin genLen)) (t : Fin genLen) :
    (carryOf gamma lam tokenLevelRewards values responseMask
        (before ++ t :: after)).advantagesReversed.reverse[before.length]? =
      some (carryOf gamma lam tokenLevelRewards values responseMask (t :: after)).lastgaelam := by
  have hcons : ∀ s ts, (carryOf gamma lam tokenLevelRewards values responseMask
      (s :: ts)).advantagesReversed.reverse =
        (carryOf gamma lam tokenLevelRewards values responseMask (s :: ts)).lastgaelam ::
          (carryOf gamma lam tokenLevelRewards values responseMask ts).advantagesReversed.reverse :=
    fun s ts => reverse_concat
  induction before with
  | nil => rw [nil_append, hcons, length_nil, getElem?_cons_zero]
  | cons s before ih =>
    rw [cons_append, hcons]
    exact ih

end Carry

variable [DecidableEq K]

/-- The unmasked ones of some positions of a row. -/
def unmasked (responseMask : Fin bsz → Fin genLen → K) (i : Fin bsz) (ts : List (Fin genLen)) :
    List (Fin genLen) := ts.filter fun t => responseMask i t ≠ 0

variable (gamma lam : K) (tokenLevelRewards values : Fin bsz → Fin genLen → K)
  {responseMask : Fin bsz → Fin genLen → K}

variable {i : Fin bsz} {t : Fin genLen}

theorem unmasked_cons_of_ne (h : responseMask i t ≠ 0) (ts : List (Fin genLen)) :
    unmasked responseMask i (t :: ts) = t :: unmasked responseMask i ts :=
  filter_cons_of_pos (decide_eq_true h)

theorem unmasked_cons_of_eq (h : responseMask i t = 0) (ts : List (Fin genLen)) :
    unmasked responseMask i (t :: ts) = unmasked responseMask i ts :=
  filter_cons_of_neg (by simp [h])

/-- The value and the advantage of the first unmasked position of `ts`. -/
theorem carry_foldr (hmask : ∀ i t, responseMask i t = 0 ∨ responseMask i t = 1) (i : Fin bsz)
    (ts : List (Fin genLen)) :
    (carryOf gamma lam tokenLevelRewards values responseMask ts).nextvalues i =
        ((unmasked responseMask i ts).map (values i)).getD 0 0 ∧
      (carryOf gamma lam tokenLevelRewards values responseMask ts).lastgaelam i =
        advantage gamma lam ((unmasked responseMask i ts).map (tokenLevelRewards i))
          ((unmasked responseMask i ts).map (values i)) 0 := by
  induction ts with
  | nil => exact ⟨rfl, (advantage_nil gamma lam _ 0).symm⟩
  | cons t ts ih =>
    obtain ⟨hnext, hlast⟩ := ih
    show (step gamma lam tokenLevelRewards values responseMask
        (carryOf gamma lam tokenLevelRewards values responseMask ts) t).nextvalues i = _ ∧
      (step gamma lam tokenLevelRewards values responseMask
        (carryOf gamma lam tokenLevelRewards values responseMask ts) t).lastgaelam i = _
    unfold step
    dsimp only
    rw [hnext, hlast]
    rcases hmask i t with hzero | hone
    · rw [hzero, unmasked_cons_of_eq hzero]
      constructor
      · ring
      · ring
    · rw [hone, unmasked_cons_of_ne (hone.trans_ne one_ne_zero), map_cons, map_cons,
        advantage_cons_zero]
      constructor
      · simp
      · ring

/-- The unmasked positions of a row, in their order. -/
def keptPositions (responseMask : Fin bsz → Fin genLen → K) (i : Fin bsz) : List (Fin genLen) :=
  unmasked responseMask i (List.finRange genLen)

theorem exists_finRange_split (t : Fin genLen) :
    ∃ before after, finRange genLen = before ++ t :: after ∧ before.length = t ∧
      t ∉ before := by
  obtain ⟨before, after, hsplit⟩ := append_of_mem (mem_finRange t)
  have hnodup := nodup_finRange genLen
  rw [hsplit] at hnodup
  have hbefore : t ∉ before := fun h =>
    (nodup_append.1 hnodup).2.2 t h t mem_cons_self rfl
  have hidx := idxOf_finRange t
  rw [hsplit, idxOf_append_of_notMem hbefore, idxOf_cons_self] at hidx
  exact ⟨before, after, hsplit, hidx, hbefore⟩

omit [DecidableEq K] in
theorem rawAdvantages_eq_lastgaelam {raw : Fin bsz → Fin genLen → K}
    (responseMask) (h : rawAdvantages gamma lam tokenLevelRewards values responseMask = .ok raw) (i : Fin bsz)
    (t : Fin genLen) :
    raw i t = (carryOf gamma lam tokenLevelRewards values responseMask
      ((finRange genLen).drop t)).lastgaelam i := by
  obtain ⟨before, after, hsplit, hlength, -⟩ := exists_finRange_split t
  have hcolumn := getElem?_columns gamma lam tokenLevelRewards values responseMask before after t
  unfold rawAdvantages at h
  rw [foldl_step_eq] at h
  rw [hsplit, ← hlength, drop_left]
  rw [← hsplit, hlength] at hcolumn
  dsimp only at h
  split at h
  · cases h
  · cases h
    dsimp only
    rw [getD_eq_getElem?_getD, hcolumn, Option.getD_some]

theorem keptPositions_split (ht : responseMask i t ≠ 0) {before after : List (Fin genLen)}
    (hsplit : finRange genLen = before ++ t :: after) (hbefore : t ∉ before) :
    keptPositions responseMask i =
        unmasked responseMask i before ++ t :: unmasked responseMask i after ∧
      (keptPositions responseMask i).idxOf t = (unmasked responseMask i before).length := by
  have hkept : keptPositions responseMask i =
      unmasked responseMask i before ++ t :: unmasked responseMask i after := by
    unfold keptPositions
    rw [hsplit, ← unmasked_cons_of_ne ht]
    exact filter_append _ _
  have hnot : t ∉ unmasked responseMask i before := fun h => hbefore (mem_of_mem_filter h)
  refine ⟨hkept, ?_⟩
  rw [hkept, idxOf_append_of_notMem hnot, idxOf_cons_self]
  rfl

theorem rawAdvantages_eq (hmask : ∀ i t, responseMask i t = 0 ∨ responseMask i t = 1) (i : Fin bsz)
    (t : Fin genLen) (ht : responseMask i t = 1) :
    ∃ raw, rawAdvantages gamma lam tokenLevelRewards values responseMask = .ok raw ∧
      raw i t = advantage gamma lam ((keptPositions responseMask i).map (tokenLevelRewards i))
        ((keptPositions responseMask i).map (values i))
        ((keptPositions responseMask i).idxOf t) := by
  have hne : responseMask i t ≠ 0 := ht.trans_ne one_ne_zero
  obtain ⟨before, after, hsplit, hlength, hbefore⟩ := exists_finRange_split t
  obtain ⟨hkept, hplace⟩ := keptPositions_split hne hsplit hbefore
  have hcolumn := getElem?_columns gamma lam tokenLevelRewards values responseMask before after t
  rw [← hsplit, hlength] at hcolumn
  refine ⟨fun i t => (carryOf gamma lam tokenLevelRewards values responseMask
    (finRange genLen)).advantagesReversed.reverse.getD t (fun _ => 0) i, ?_, ?_⟩
  · unfold rawAdvantages
    rw [foldl_step_eq]
    dsimp only
    split
    · grind
    · rfl
  · dsimp only
    rw [getD_eq_getElem?_getD, hcolumn, Option.getD_some,
      (carry_foldr gamma lam tokenLevelRewards values hmask i (t :: after)).2, hplace, hkept,
      unmasked_cons_of_ne hne, map_append, map_append,
      ← length_map (tokenLevelRewards i), advantage_append]
    rw [length_map, length_map]

theorem getD_keptPositions (ht : responseMask i t ≠ 0) :
    ((keptPositions responseMask i).map (values i)).getD
      ((keptPositions responseMask i).idxOf t) 0 = values i t := by
  obtain ⟨before, after, hsplit, -, hbefore⟩ := exists_finRange_split t
  obtain ⟨hkept, hplace⟩ := keptPositions_split ht hsplit hbefore
  rw [hplace, hkept, getD_eq_getElem?_getD, getElem?_map,
    getElem?_append_right (Nat.le_refl _), Nat.sub_self]
  rfl

/-- At an unmasked position, the advantage that is whitened and the return are the textbook's of the
row without the masked positions. -/
theorem computeGaeAdvantageReturn_eq (rsqrt : K → K)
    (hmask : ∀ i t, responseMask i t = 0 ∨ responseMask i t = 1) (i : Fin bsz) (t : Fin genLen)
    (ht : responseMask i t = 1) :
    ∃ raw, rawAdvantages gamma lam tokenLevelRewards values responseMask = .ok raw ∧
      computeGaeAdvantageReturn rsqrt tokenLevelRewards values responseMask gamma lam =
        (maskedWhiten rsqrt raw responseMask).map
          (fun advantages => (advantages, fun i t => raw i t + values i t)) ∧
      raw i t = advantage gamma lam ((keptPositions responseMask i).map (tokenLevelRewards i))
        ((keptPositions responseMask i).map (values i))
        ((keptPositions responseMask i).idxOf t) ∧
      raw i t + values i t = lambdaReturn gamma lam
        ((keptPositions responseMask i).map (tokenLevelRewards i))
        ((keptPositions responseMask i).map (values i))
        ((keptPositions responseMask i).idxOf t) := by
  obtain ⟨raw, hraw, hadvantage⟩ :=
    rawAdvantages_eq gamma lam tokenLevelRewards values hmask i t ht
  refine ⟨raw, hraw, ?_, hadvantage, ?_⟩
  · unfold computeGaeAdvantageReturn
    rw [hraw]
    rfl
  · unfold lambdaReturn
    rw [← hadvantage, getD_keptPositions values (ht.trans_ne one_ne_zero)]

omit [DecidableEq K] in
theorem advantage_of_lam_one (rewards values : List K) (k : Nat) :
    advantage gamma 1 rewards values k = ∑ l ∈ Finset.range (rewards.length - k),
        gamma ^ l * rewards.getD (k + l) 0 +
      gamma ^ (rewards.length - k) * values.getD (k + (rewards.length - k)) 0 -
        values.getD k 0 := by
  unfold advantage
  -- the values in between cancel
  induction rewards.length - k with
  | zero => simp
  | succ n ih =>
    rw [Finset.sum_range_succ, ih, Finset.sum_range_succ, tdError, ← Nat.add_assoc]
    ring

/-- With `lam = 1` the return at an unmasked position is the discounted sum of the unmasked rewards
from there on, whatever the critic says. -/
theorem returns_of_lam_one
    (tokenLevelRewards values responseMask : Fin bsz → Fin genLen → K) (gamma : K)
    (hmask : ∀ i t, responseMask i t = 0 ∨ responseMask i t = 1) (i : Fin bsz) (t : Fin genLen)
    (ht : responseMask i t = 1) :
    let kept := keptPositions responseMask i
    ∃ raw, rawAdvantages gamma 1 tokenLevelRewards values responseMask = .ok raw ∧
      raw i t + values i t = ∑ l ∈ Finset.range (kept.length - kept.idxOf t),
        gamma ^ l * (kept.map (tokenLevelRewards i)).getD (kept.idxOf t + l) 0 := by
  intro kept
  obtain ⟨raw, hraw, hadvantage⟩ := rawAdvantages_eq gamma 1 tokenLevelRewards values hmask i t ht
  have hlast : (kept.map (values i)).getD kept.length 0 = 0 := by simp
  refine ⟨raw, hraw, ?_⟩
  rw [hadvantage, advantage_of_lam_one, getD_keptPositions values (ht.trans_ne one_ne_zero),
    length_map, Nat.add_sub_cancel' idxOf_le_length, hlast, mul_zero, add_zero, sub_add_cancel]

end Lemmas

/-! ## A row with an observation in the middle -/

def rewards : Fin 1 → Fin 3 → ℚ := fun _ t => (t : Nat)

def critic : Fin 1 → Fin 3 → ℚ := fun _ _ => 4

def turns : Fin 1 → Fin 3 → ℚ := fun _ t => if t = 1 then 0 else 1

theorem computeGaeAdvantageReturn_turns :
    ∃ raw, rawAdvantages (1 / 2) 1 rewards critic turns = .ok raw ∧
      computeGaeAdvantageReturn id rewards critic turns (1 / 2) 1 =
        (maskedWhiten id raw turns).map
          (fun advantages => (advantages, fun i t => raw i t + critic i t)) ∧
      raw 0 0 = advantage (1 / 2) 1 [0, 2] [4, 4] 0 ∧
      raw 0 0 + 4 = lambdaReturn (1 / 2) 1 [0, 2] [4, 4] 0 :=
  computeGaeAdvantageReturn_eq (1 / 2) 1 rewards critic id (by decide +kernel) 0 0 rfl

theorem returns_of_lam_one_turns : ∃ raw, rawAdvantages (1 / 2) 1 rewards critic turns = .ok raw ∧
      raw 0 0 + 4 = ∑ l ∈ Finset.range 2, (1 / 2) ^ l * [0, 2].getD (0 + l) 0 :=
  returns_of_lam_one rewards critic turns (1 / 2) (by decide +kernel) 0 0 rfl

end Verl.Gae
