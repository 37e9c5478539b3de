import Verl.Lib.Python

/-! # The split of a merge into pipeline stages (`model_merger/megatron_model_merger.py`)

`get_dynamic_pipeline_shards` tries every number of layers for the middle stages and keeps the most
uniform split.  The first and the last stage may not have more layers than a middle one, so that
for some numbers there is no split to keep (`uniform_iff`).
-/

namespace Verl.PipelineShards

open List

/-- A pass of the loop over `middle_layer_num`. -/
def strategy (layerNum middleSize middleLayerNum : Nat) : Option (List Int × Int) :=
  let firstLast : Int := layerNum - middleLayerNum * middleSize
  let first := firstLast / 2
  let last := firstLast - firstLast / 2
  if 0 < first ∧ first ≤ middleLayerNum ∧ 0 < last ∧ last ≤ middleLayerNum then
    some ([first] ++ List.replicate middleSize (middleLayerNum : Int) ++ [last],
      |first - middleLayerNum|)
  else none

def getDynamicPipelineShards (layerNum ppSize : Nat) : Except PyErr (List Int) :=
  if layerNum < ppSize then
    .error (.valueError s!"layer_num {layerNum} must be greater than pp_size {ppSize}.")
  else if ppSize < 1 then
    .error (.valueError s!"pp_size must be at least 1, got {ppSize}.")
  else if ppSize = 1 then .ok [(layerNum : Int)]
  else if ppSize = 2 then .ok [(layerNum : Int) / 2, layerNum - (layerNum : Int) / 2]
  else do
    let shardsStrategy := (List.range layerNum).filterMap (strategy layerNum (ppSize - 2))
    let res ← pyGetItem (pySorted (fun a b => decide (a.2 < b.2)) shardsStrategy) 0
    pyAssert (res.1.sum == layerNum)
      s!"sum(res)={res.1.sum} != layer_num={layerNum}, pp_size={ppSize}"
    return res.1

/-- A positive number of layers for every stage, the middle stages alike. -/
structure Uniform (layerNum ppSize : Nat) (shards : List Int) : Prop where
  length : shards.length = ppSize
  pos : ∀ n ∈ shards, 0 < n
  sum : shards.sum = layerNum
  middle : ∀ m ∈ shards.tail.dropLast, ∀ n ∈ shards.tail.dropLast, m = n

section Strategy

variable {layerNum middleSize middleLayerNum : Nat}

theorem strategy_isSome_iff : (strategy layerNum middleSize middleLayerNum).isSome = true ↔
    middleLayerNum * middleSize + 2 ≤ layerNum ∧
      layerNum ≤ middleLayerNum * middleSize + 2 * middleLayerNum := by
  unfold strategy
  dsimp only
  split
  · simp only [Option.isSome_some, true_iff]
    omega
  · simp only [Option.isSome_none, Bool.false_eq_true, false_iff]
    omega

theorem uniform_of_strategy {res : List Int × Int}
    (h : strategy layerNum middleSize middleLayerNum = some res) :
    Uniform layerNum (middleSize + 2) res.1 := by
  unfold strategy at h
  dsimp only at h
  split at h
  · rename_i hbounds
    obtain ⟨hfirst, hle, hlast, -⟩ := hbounds
    cases h
    constructor
    · simp
    · intro n hn
      simp only [cons_append, mem_cons, mem_append, mem_replicate] at hn
      obtain rfl | ⟨-, rfl⟩ | rfl | hn := hn
      · exact hfirst
      · omega
      · exact hlast
      · cases hn
    · simp only [sum_cons, sum_append, sum_replicate, sum_nil]
      ring
    · intro m hm n hn
      simp only [cons_append, tail_cons, dropLast_concat] at hm hn
      rw [eq_of_mem_replicate hm, eq_of_mem_replicate hn]
  · cases h

/-- Some number of middle layers is neither too large nor too small. -/
theorem exists_strategy_iff (hle : middleSize + 2 ≤ layerNum) :
    (∃ m < layerNum, (strategy layerNum middleSize m).isSome = true) ↔
      middleSize + 2 ∣ layerNum ∨
        middleSize + 2 ≤ layerNum % (middleSize + 2) + 2 * (layerNum / (middleSize + 2)) := by
  simp only [strategy_isSome_iff]
  have hdiv := Nat.div_add_mod layerNum (middleSize + 2)
  have hmod := Nat.mod_lt layerNum (show 0 < middleSize + 2 by omega)
  rw [Nat.dvd_iff_mod_eq_zero]
  generalize layerNum / (middleSize + 2) = q at hdiv
  generalize layerNum % (middleSize + 2) = s at hdiv hmod
  have hq : (middleSize + 2) * q = q * middleSize + 2 * q := by ring
  constructor
  · rintro ⟨m, -, hlow, hhigh⟩
    by_cases hm : m ≤ q
    · have := Nat.mul_le_mul_right middleSize hm
      omega
    · have hnext := Nat.mul_le_mul_right middleSize (Nat.lt_of_not_le hm)
      rw [Nat.succ_mul] at hnext
      omega
  · intro h
    by_cases hs : s = 0
    · have hpos : 0 < q := by
        apply Nat.pos_of_ne_zero
        rintro rfl
        omega
      exact ⟨q, by omega, by omega, by omega⟩
    · refine ⟨q + 1, ?_, ?_, ?_⟩ <;> rw [Nat.succ_mul] at * <;> omega

end Strategy

/-- A split comes back unless the stages leave layers over that the first and the last one may not
take. -/
theorem uniform_iff (layerNum ppSize : Nat) :
    (∃ shards, getDynamicPipelineShards layerNum ppSize = .ok shards ∧
      Uniform layerNum ppSize shards) ↔
      1 ≤ ppSize ∧ ppSize ≤ layerNum ∧ (ppSize ∣ layerNum ∨
        ppSize ≤ layerNum % ppSize + 2 * (layerNum / ppSize)) := by
  unfold getDynamicPipelineShards
  by_cases hlt : layerNum < ppSize
  · rw [if_pos hlt]
    exact iff_of_false nofun fun h => absurd h.2.1 (by omega)
  rw [if_neg hlt]
  obtain rfl | rfl | rfl | ⟨k, rfl⟩ : ppSize = 0 ∨ ppSize = 1 ∨ ppSize = 2 ∨ ∃ k, ppSize = k + 3 := by
    obtain - | - | - | k := ppSize <;> simp
  · exact iff_of_false nofun fun h => absurd h.1 (by omega)
  · refine iff_of_true ⟨_, rfl, rfl, ?_, by simp, by simp⟩ ⟨by omega, by omega, .inl (one_dvd _)⟩
    simp only [mem_singleton, forall_eq]
    omega
  · refine iff_of_true ⟨_, rfl, rfl, ?_, ?_, by simp⟩ ⟨by omega, by omega, .inr (by omega)⟩
    · simp only [mem_cons, not_mem_nil, or_false, forall_eq_or_imp, forall_eq]
      omega
    · simp
  rw [Nat.add_sub_cancel (k + 1) 2]
  have hexists := @exists_strategy_iff layerNum (k + 1) (by omega)
  rw [and_iff_right (by omega), and_iff_right (by omega), ← hexists]
  generalize hall : (List.range layerNum).filterMap (strategy layerNum (k + 1)) = all
  have hmem : ∀ res, res ∈ all ↔ ∃ m < layerNum, strategy layerNum (k + 1) m = some res := by
    intro res
    rw [← hall]
    simp
  constructor
  · rintro ⟨shards, hok, -⟩
    obtain ⟨res, hres, -⟩ := bind_eq_ok.1 hok
    have hin := mem_of_getElem? (pyGetItem_eq_ok.1 hres)
    rw [mem_pySorted, hmem] at hin
    obtain ⟨m, hm, hres⟩ := hin
    exact ⟨m, hm, by simp [hres]⟩
  · rintro ⟨m, hm, hsome⟩
    obtain ⟨found, hfound⟩ := Option.isSome_iff_exists.1 hsome
    have hne : 0 < (pySorted (fun a b : List Int × Int => decide (a.2 < b.2)) all).length := by
      rw [length_pySorted]
      exact length_pos_of_mem ((hmem found).2 ⟨m, hm, hfound⟩)
    have hin := getElem_mem hne
    rw [mem_pySorted, hmem] at hin
    obtain ⟨n, -, hres⟩ := hin
    have huniform := uniform_of_strategy hres
    refine ⟨_, ?_, huniform⟩
    dsimp only
    rw [pyGetItem_eq_ok.2 (getElem?_eq_getElem hne), ok_bind, huniform.sum,
      beq_self_eq_true]
    rfl

/-- Five layers on four stages: no split has the last stage within the middle ones. -/
theorem not_uniform_five_four : ¬ ∃ shards, getDynamicPipelineShards 5 4 = .ok shards ∧
    Uniform 5 4 shards := by
  exact nofun

end Verl.PipelineShards
