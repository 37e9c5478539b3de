import Verl.Trainer.AggLoss

/-! # The loss of supervised fine-tuning (`workers/utils/losses.py`)

`sft_loss` shifts the loss mask of a packed micro-batch with one roll over all its sequences, so the
output at the last position of a sequence meets the first mask of the next one, and the last output
of the buffer the first mask.  The loss is the one of the tokens with mask 1 as long as no sequence
has mask 1 on its first token (`lossMatches_iff`).
-/

namespace Verl.SftLoss

open List

/-- A sequence of the nested tensors.  The output at position `t` is the log-prob of token `t + 1`,
at the last position it belongs to no token of the sequence. -/
structure Sequence (K : Type) where
  logProbs : List K
  lossMask : List Bool
  length_eq : logProbs.length = lossMask.length

variable {K : Type} [Field K]

def maskValue (m : Bool) : K := if m then 1 else 0

def sftLoss [LinearOrder K] (microBatch : List (Sequence K)) (batchNumTokens dpSize : Nat) : K :=
  let logProbFlatten := microBatch.flatMap (·.logProbs)
  let lossMaskFlatten := (microBatch.flatMap (·.lossMask)).rotate 1;
  -maskedSum (logProbFlatten.zip (lossMaskFlatten.map maskValue)) / batchNumTokens * dpSize

/-- `data["loss_mask"].sum()`, summed over the data-parallel group. -/
def batchNumTokens (ranks : List (List (List (Sequence K)))) : Nat :=
  (ranks.map fun microBatches => (microBatches.flatten.map (·.lossMask.count true)).sum).sum

/-- The losses of the micro-batches of every rank. -/
def forwardBackwardBatch [LinearOrder K] (ranks : List (List (List (Sequence K)))) :
    List (List K) :=
  ranks.map (map (sftLoss · (batchNumTokens ranks) ranks.length))

/-- `∑ log p(x_t | x_<t)` over the positions `1 ≤ t` of a sequence with loss mask 1. -/
def tokenSum (s : Sequence K) : K :=
  ((s.logProbs.zip s.lossMask.tail).map fun e => if e.2 then e.1 else 0).sum

/-- Whatever the outputs are, the parts of the loss of a batch with these masks make up the loss of
the batch.  (Without any loss token both are `0 / 0`.) -/
def LossMatches (K : Type) [Field K] [LinearOrder K] (masks : List (List (List (List Bool)))) :
    Prop :=
  ∀ ranks : List (List (List (Sequence K))), ranks.map (map (map (·.lossMask))) = masks →
    (forwardBackwardBatch ranks).flatten.sum / ranks.length =
      -(ranks.flatten.flatten.map tokenSum).sum / batchNumTokens ranks

/-! ## The rolled mask -/

def pairSum (values : List K) (mask : List Bool) : K :=
  ((values.zip mask).map fun e => if e.2 then e.1 else 0).sum

theorem maskedSum_zip [LinearOrder K] (values : List K) (mask : List Bool) :
    maskedSum (values.zip (mask.map maskValue)) = pairSum values mask := by
  unfold maskedSum
  rw [zip_map_right, map_map]
  congr 1
  refine map_congr_left fun e _ => ?_
  rcases e with ⟨value, m⟩
  cases m with
  | true => simp [maskedEntry, maskValue]
  | false => simp [maskedEntry, maskValue]

variable {xs : List K} (mask : List Bool) (masks : List (List (List (List Bool))))

theorem pairSum_append {ms : List Bool} (h : xs.length = ms.length) (ys : List K)
    (ns : List Bool) : pairSum (xs ++ ys) (ms ++ ns) = pairSum xs ms + pairSum ys ns := by
  unfold pairSum
  rw [zip_append h, map_append, sum_append]

theorem pairSum_cons (x : K) (m : Bool) (xs : List K) (ms : List Bool) :
    pairSum (x :: xs) (m :: ms) = (if m then x else 0) + pairSum xs ms := by
  simp [pairSum]

theorem pairSum_concat {ms : List Bool} (h : xs.length = ms.length) (z : K) :
    pairSum (xs ++ [z]) ms = pairSum xs ms := by
  have happ := pairSum_append h [z] []
  simpa [pairSum] using happ

/-- Values that fit a mask with a first entry have a last one. -/
theorem exists_concat {α : Type} {xs : List α} {m : Bool} {ms : List Bool}
    (h : xs.length = (m :: ms).length) : ∃ ys z, xs = ys ++ [z] ∧ ys.length = ms.length := by
  rcases eq_nil_or_concat xs with rfl | ⟨ys, z, rfl⟩
  · simp at h
  · exact ⟨ys, z, concat_eq_append, by simpa using h⟩

/-- Rolling the mask to the left is rolling the values to the right. -/
theorem pairSum_rotate {ms : List Bool} (h : xs.length = ms.length) (d : K) :
    pairSum xs (ms.rotate 1) = pairSum (xs.getLastD d :: xs) ms := by
  cases ms with
  | nil => simp [pairSum]
  | cons m ms =>
    obtain ⟨ys, z, rfl, hlen⟩ := exists_concat h
    rw [rotate_cons_succ, rotate_zero, pairSum_append hlen, getLastD_concat,
      pairSum_cons z m (ys ++ [z]), pairSum_concat hlen]
    simp [pairSum, add_comm]

/-- What the first masks of the sequences add: the output before each of them. -/
def borderSum : K → List (Sequence K) → K
  | _, [] => 0
  | b, s :: rest =>
    (if s.lossMask.head? = some true then b else 0) + borderSum (s.logProbs.getLastD b) rest

theorem pairSum_flatMap (b : K) (microBatch : List (Sequence K)) :
    pairSum (b :: microBatch.flatMap (·.logProbs)) (microBatch.flatMap (·.lossMask)) =
      (microBatch.map tokenSum).sum + borderSum b microBatch := by
  induction microBatch generalizing b with
  | nil => simp [pairSum, borderSum]
  | cons s rest ih =>
    rcases s with ⟨xs, ms, hlen⟩
    rw [flatMap_cons, flatMap_cons, map_cons, sum_cons, borderSum]
    cases ms with
    | nil =>
      obtain rfl : xs = [] := length_eq_zero_iff.mp hlen
      rw [nil_append, nil_append, ih]
      simp [tokenSum]
    | cons m ms =>
      obtain ⟨ys, z, rfl, hys⟩ := exists_concat hlen
      have htoken : tokenSum ⟨ys ++ [z], m :: ms, hlen⟩ = pairSum ys ms := pairSum_concat hys z
      show pairSum (b :: ((ys ++ [z]) ++ rest.flatMap (·.logProbs)))
        (m :: (ms ++ rest.flatMap (·.lossMask))) = _
      rw [pairSum_cons, append_assoc, singleton_append, pairSum_append hys, ih, htoken,
        getLastD_concat]
      simp only [head?_cons, Option.some.injEq]
      ring

omit [Field K] in
theorem length_flatMap_eq (microBatch : List (Sequence K)) :
    (microBatch.flatMap (·.logProbs)).length = (microBatch.flatMap (·.lossMask)).length := by
  rw [length_flatMap, length_flatMap, map_congr_left fun s _ => s.length_eq]

theorem sftLoss_eq [LinearOrder K] (microBatch : List (Sequence K)) (n dpSize : Nat) (d : K) :
    sftLoss microBatch n dpSize =
      -((microBatch.map tokenSum).sum +
          borderSum ((microBatch.flatMap (·.logProbs)).getLastD d) microBatch) / n * dpSize := by
  unfold sftLoss
  dsimp only
  rw [maskedSum_zip, pairSum_rotate (length_flatMap_eq microBatch) d, pairSum_flatMap]

/-- The border terms of all micro-batches. -/
def borderTotal (d : K) (ranks : List (List (List (Sequence K)))) : K :=
  (ranks.flatten.map fun microBatch =>
    borderSum ((microBatch.flatMap (·.logProbs)).getLastD d) microBatch).sum

theorem forwardBackwardBatch_sum [LinearOrder K] [CharZero K]
    (ranks : List (List (List (Sequence K)))) (d : K) :
    (forwardBackwardBatch ranks).flatten.sum / ranks.length =
      -((ranks.flatten.flatten.map tokenSum).sum + borderTotal d ranks) / batchNumTokens ranks := by
  have hsum : ∀ (microBatches : List (List (Sequence K))) (n dpSize : Nat),
      (microBatches.map (sftLoss · n dpSize)).sum =
        -((microBatches.flatten.map tokenSum).sum + (microBatches.map fun microBatch =>
          borderSum ((microBatch.flatMap (·.logProbs)).getLastD d) microBatch).sum) / n *
            dpSize := by
    intro microBatches n dpSize
    induction microBatches with
    | nil => simp
    | cons microBatch rest ih =>
      rw [map_cons, sum_cons, ih, sftLoss_eq _ _ _ d, flatten_cons, map_append, sum_append,
        map_cons, sum_cons]
      ring
  rw [forwardBackwardBatch, ← map_flatten, hsum]
  cases ranks with
  | nil => simp [borderTotal]
  | cons rank ranks =>
    have hpos : (((rank :: ranks).length : Nat) : K) ≠ 0 := Nat.cast_ne_zero.mpr (by simp)
    exact mul_div_cancel_right₀ _ hpos

theorem borderSum_eq_zero {microBatch : List (Sequence K)}
    (h : ∀ s ∈ microBatch, s.lossMask.head? ≠ some true) (b : K) : borderSum b microBatch = 0 := by
  induction microBatch generalizing b with
  | nil => rfl
  | cons s rest ih =>
    rw [borderSum, if_neg (h s mem_cons_self), zero_add]
    exact ih (fun s' hs' => h s' (mem_cons_of_mem _ hs')) _

omit [Field K] in
theorem count_eq_zero_of_batchNumTokens {ranks : List (List (List (Sequence K)))}
    (h : batchNumTokens ranks = 0) {s : Sequence K} (hs : s ∈ ranks.flatten.flatten) :
    s.lossMask.count true = 0 := by
  obtain ⟨microBatch, hmicro, hs⟩ := mem_flatten.mp hs
  obtain ⟨microBatches, hmicros, hmem⟩ := mem_flatten.mp hmicro
  have hrank := sum_eq_zero_iff.mp h _ (mem_map_of_mem hmicros)
  exact sum_eq_zero_iff.mp hrank _ (mem_map_of_mem (mem_flatten.mpr ⟨microBatch, hmem, hs⟩))

/-! ## Outputs that show every border -/

/-- Probability one for the tokens of the sequence, a log-prob of `-1` at its last position. -/
def borderOutputs : List Bool → Sequence K
  | [] => ⟨[], [], rfl⟩
  | m :: ms => ⟨replicate ms.length 0 ++ [-1], m :: ms, by simp⟩

theorem lossMask_borderOutputs :
    (borderOutputs mask : Sequence K).lossMask = mask := by
  cases mask with
  | nil => rfl
  | cons m ms => rfl

theorem getLastD_borderOutputs :
    (borderOutputs mask : Sequence K).logProbs.getLastD (-1) = -1 := by
  cases mask with
  | nil => rfl
  | cons m ms => exact getLastD_concat

theorem tokenSum_borderOutputs :
    tokenSum (borderOutputs mask : Sequence K) = 0 := by
  cases mask with
  | nil => rfl
  | cons m ms =>
    refine (pairSum_concat (length_replicate ..) (-1)).trans (sum_eq_zero fun x hx => ?_)
    obtain ⟨⟨value, m'⟩, he, rfl⟩ := mem_map.mp hx
    have hvalue := eq_of_mem_replicate (of_mem_zip he).1
    simp [hvalue]

theorem getLastD_flatMap_borderOutputs (masks : List (List Bool)) :
    ((masks.map (borderOutputs (K := K))).flatMap (·.logProbs)).getLastD (-1) = -1 := by
  induction masks with
  | nil => rfl
  | cons mask masks ih =>
    have hmask := getLastD_borderOutputs (K := K) mask
    simp only [getLastD_eq_getLast?] at ⊢
    rw [map_cons, flatMap_cons, getLast?_append]
    cases hlast : ((masks.map (borderOutputs (K := K))).flatMap (·.logProbs)).getLast? with
    | none => simpa using hmask
    | some z => simpa [hlast] using ih

theorem borderSum_borderOutputs (masks : List (List Bool)) :
    borderSum (-1) (masks.map (borderOutputs (K := K))) =
      -((masks.countP fun mask => mask.head? = some true : Nat) : K) := by
  induction masks with
  | nil => simp [borderSum]
  | cons mask masks ih =>
    rw [map_cons, borderSum, getLastD_borderOutputs, ih, lossMask_borderOutputs]
    by_cases hhead : mask.head? = some true
    · simp [hhead]
    · simp [hhead]

theorem borderTotal_borderOutputs :
    borderTotal (-1) (masks.map (map (map (borderOutputs (K := K))))) =
      -((masks.flatten.flatten.countP fun mask => mask.head? = some true : Nat) : K) := by
  unfold borderTotal
  rw [← map_flatten]
  generalize masks.flatten = microBatches
  induction microBatches with
  | nil => simp
  | cons microBatch rest ih =>
    rw [map_cons, map_cons, sum_cons, ih, getLastD_flatMap_borderOutputs,
      borderSum_borderOutputs, flatten_cons, countP_append]
    push_cast
    ring

theorem map_lossMask_borderOutputs :
    (masks.map (map (map (borderOutputs (K := K))))).map (map (map (·.lossMask))) = masks := by
  simp [Function.comp_def, lossMask_borderOutputs]

/-- Sequences that share no border: none has loss mask 1 on its first token. -/
def FirstTokensMasked (masks : List (List (List (List Bool)))) : Prop :=
  ∀ microBatches ∈ masks, ∀ microBatch ∈ microBatches, ∀ mask ∈ microBatch, mask.head? ≠ some true

theorem lossMatches_iff [LinearOrder K] [CharZero K] (masks : List (List (List (List Bool)))) :
    LossMatches K masks ↔ FirstTokensMasked masks := by
  constructor
  · intro h microBatches hmicros microBatch hmicro mask hmask hhead
    have hzero := h _ (map_lossMask_borderOutputs masks)
    have htokens : ((masks.map (map (map (borderOutputs (K := K))))).flatten.flatten.map
        tokenSum).sum = 0 := by
      rw [← map_flatten, ← map_flatten, map_map]
      refine sum_eq_zero fun x hx => ?_
      obtain ⟨m, -, rfl⟩ := mem_map.mp hx
      exact tokenSum_borderOutputs m
    rw [forwardBackwardBatch_sum _ (-1), htokens, borderTotal_borderOutputs, zero_add, neg_neg,
      neg_zero, zero_div] at hzero
    have hmem : mask ∈ masks.flatten.flatten :=
      mem_flatten.mpr ⟨_, mem_flatten.mpr ⟨_, hmicros, hmicro⟩, hmask⟩
    rcases div_eq_zero_iff.mp hzero with hcount | htotal
    · have hnone := countP_eq_zero.mp (Nat.cast_eq_zero.mp hcount) mask hmem
      exact hnone (by simpa using hhead)
    · have hno := count_eq_zero_of_batchNumTokens (Nat.cast_eq_zero.mp htotal) (s := borderOutputs mask)
        (by simpa only [map_flatten] using mem_map_of_mem hmem)
      rw [lossMask_borderOutputs] at hno
      exact count_eq_zero.mp hno (mem_of_mem_head? hhead)
  · rintro h ranks rfl
    have hborder : borderTotal 0 ranks = 0 := by
      refine sum_eq_zero fun x hx => ?_
      obtain ⟨microBatch, hmicro, rfl⟩ := mem_map.mp hx
      obtain ⟨microBatches, hmicros, hmem⟩ := mem_flatten.mp hmicro
      exact borderSum_eq_zero (fun s hs => h _ (mem_map_of_mem hmicros) _ (mem_map_of_mem hmem) _
        (mem_map_of_mem hs)) _
    rw [forwardBackwardBatch_sum ranks 0, hborder, add_zero]

theorem lossMatches_masked_first : LossMatches ℚ [[[[false, true], [false, true]]]] :=
  (lossMatches_iff _).mpr (by unfold FirstTokensMasked; decide)

/-- The output `-2` at the end of the first sequence counts for the first token of the second. -/
theorem not_lossMatches_first_token : ¬ LossMatches ℚ [[[[false, true], [true, true]]]] := by
  intro h
  have heq := h [[[⟨[-1, -2], [false, true], rfl⟩, ⟨[-1, -3], [true, true], rfl⟩]]] rfl
  revert heq
  decide +kernel

end Verl.SftLoss
