import Verl.Lib.Numerals

/-! # Chains of agents

The agents of a chain of `n` rollout workers have the ranks `0`, the trainer, to `n`; link `i`
leads from rank `i` to worker `i`, which has the next rank.

* `sum_update`: what a step of one worker does to a sum over all workers.
* `eq_of_prefix_of_last`: a first part of a log that holds its last entry. -/

namespace Verl.CheckpointEngine

open List Function

variable {n : Nat}

/-- The link from the agent of this rank to the next one. -/
def nextLink (rank : Fin (n + 1)) : Option (Fin n) :=
  if h : rank.val < n then some ⟨rank.val, h⟩ else none

@[simp] theorem nextLink_castSucc (i : Fin n) : nextLink i.castSucc = some i := dif_pos i.isLt

theorem eq_castSucc_of_nextLink {rank : Fin (n + 1)} {i : Fin n} (h : nextLink rank = some i) :
    rank = i.castSucc := by
  unfold nextLink at h
  split at h
  case isTrue hlt =>
    cases h
    rfl
  case isFalse => cases h

theorem castSucc_ne_succ (i : Fin n) : i.castSucc ≠ i.succ := by grind

theorem val_of_castSucc_eq_succ {i j : Fin n} (h : j.castSucc = i.succ) : j.val = i.val + 1 := by
  grind

/-- From the last worker to the first: what follows for a worker from the next one. -/
theorem forall_of_next {P : Fin n → Prop}
    (h : ∀ i, (∀ j : Fin n, j.castSucc = i.succ → P j) → P i) (i : Fin n) : P i := by
  obtain ⟨k, hk⟩ : ∃ k, i.val + k + 1 = n := ⟨n - i.val - 1, by omega⟩
  induction k generalizing i with
  | zero =>
    refine h i fun j hj => ?_
    have hval := val_of_castSucc_eq_succ hj
    omega
  | succ k ih =>
    refine h i fun j hj => ih j ?_
    have hval := val_of_castSucc_eq_succ hj
    omega

variable {α : Type} {isLast : α → Bool}

theorem sum_update (f : Fin n → α → Nat) (g : Fin n → α) (i : Fin n) (x : α) :
    ∑ k, f k (update g i x k) + f i (g i) = ∑ k, f k (g k) + f i x := by
  rw [← Finset.add_sum_erase _ (fun k => f k (g k)) (Finset.mem_univ i),
    ← Finset.add_sum_erase _ (fun k => f k (update g i x k)) (Finset.mem_univ i),
    update_self]
  have hrest : ∑ k ∈ Finset.univ.erase i, f k (update g i x k) =
      ∑ k ∈ Finset.univ.erase i, f k (g k) := by
    refine Finset.sum_congr rfl fun k hk => ?_
    rw [update_of_ne (Finset.ne_of_mem_erase hk)]
  omega

/-- Flags that are false but for the last one: a true one has nothing behind it. -/
theorem not_mem_of_append_eq_replicate {xs ys e : List Bool} {k : Nat}
    (h : xs ++ ys = replicate k false ++ e) (he : e.length ≤ 1) (hys : ys ≠ []) :
    true ∉ xs := by
  intro hmem
  rcases append_eq_append_iff.1 h with ⟨a, ha, -⟩ | ⟨c, hc, hcys⟩
  · have hin : true ∈ replicate k false := by grind
    cases (mem_replicate.1 hin).2
  · -- what is behind the falses is not empty, so it is all of `e`
    have hlen := congrArg length hcys
    have hpos := length_pos_iff.2 hys
    rw [length_append] at hlen
    have hnil : c = [] := length_eq_zero_iff.1 (by omega)
    rw [hc, hnil, append_nil] at hmem
    cases (mem_replicate.1 hmem).2

theorem eq_of_prefix_of_last {xs ys : List α} {e : List Bool} {k : Nat}
    (h : xs <+: ys) (hflags : ys.map isLast = replicate k false ++ e) (he : e.length ≤ 1)
    (hlast : xs.any isLast = true) : xs = ys := by
  obtain ⟨rest, hrest⟩ := h
  cases rest with
  | nil => rw [← hrest, append_nil]
  | cons y rest =>
    rw [← hrest, map_append] at hflags
    refine absurd ?_ (not_mem_of_append_eq_replicate hflags he (cons_ne_nil _ _))
    obtain ⟨x, hx, hflag⟩ := any_eq_true.1 hlast
    exact mem_map.2 ⟨x, hx, hflag⟩

theorem any_of_flags {ys : List α} {k : Nat}
    (hflags : ys.map isLast = replicate k false ++ [true]) : ys.any isLast = true := by
  have hmem : true ∈ ys.map isLast := by grind
  obtain ⟨y, hy, hflag⟩ := mem_map.1 hmem
  exact any_eq_true.2 ⟨y, hy, hflag⟩

end Verl.CheckpointEngine
