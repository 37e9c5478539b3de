import Verl.Lib.Slice

/-! # Zig-zag sharding

A list of `2 * n` chunks of `h` items is shared by `n` ranks: rank `r` holds chunk `r` from the
front and chunk `r` from the back.

    rank 0      rank 1      rank 1      rank 0
    [0, h)      [h, 2h)     [2h, 3h)    [3h, 4h)         for n = 2

* `zigzagShard`: the two chunks of a rank.
* `zigzagPosition`: the global position of a local slot (`getElem?_zigzagShard`). -/

namespace Verl

universe u

variable {α : Type u}

def zigzagShard (n h : Nat) (xs : List α) (r : Nat) : List α :=
  getSlice xs (r * h) h ++ getSlice xs (2 * n * h - (r + 1) * h) h

def zigzagPosition (n h r s : Nat) : Nat :=
  if s < h then r * h + s else 2 * n * h - (r + 1) * h + (s - h)

/-- The buffer after the first `k` shards are written to it. -/
def zigzagGather (n h : Nat) (shards : List (List α)) (buf : List α) : Nat → List α
  | 0 => buf
  | k + 1 =>
    let shard := shards.getD k []
    setSlice (setSlice (zigzagGather n h shards buf k) (k * h) (getSlice shard 0 h))
      (2 * n * h - (k + 1) * h) (getSlice shard h h)

section

variable {n h r : Nat}

theorem succ_mul_le (hr : r < n) : (r + 1) * h ≤ n * h := Nat.mul_le_mul_right h hr

section

variable {xs : List α} (hxs : xs.length = 2 * n * h) (hr : r < n)
include hxs hr

theorem length_front : (getSlice xs (r * h) h).length = h := by
  have hle := succ_mul_le (h := h) hr
  have hsucc := Nat.add_one_mul r h
  have htwo := Nat.mul_assoc 2 n h
  apply length_getSlice
  omega

theorem length_back : (getSlice xs (2 * n * h - (r + 1) * h) h).length = h := by
  have hle := succ_mul_le (h := h) hr
  have hsucc := Nat.add_one_mul r h
  have htwo := Nat.mul_assoc 2 n h
  apply length_getSlice
  omega

theorem length_zigzagShard : (zigzagShard n h xs r).length = 2 * h := by
  unfold zigzagShard
  rw [List.length_append, length_front hxs hr, length_back hxs hr, Nat.two_mul]

theorem getElem?_zigzagShard {s : Nat}
    (hs : s < 2 * h) : (zigzagShard n h xs r)[s]? = xs[zigzagPosition n h r s]? := by
  unfold zigzagShard zigzagPosition
  have hfront := length_front hxs hr
  by_cases hsh : s < h
  · rw [if_pos hsh, List.getElem?_append_left (by omega), getElem?_getSlice _ _ hsh]
  · rw [if_neg hsh, List.getElem?_append_right (by omega), hfront, getElem?_getSlice _ _ (by omega)]

end

theorem zigzagPosition_lt (hr : r < n) {s : Nat} (hs : s < 2 * h) :
    zigzagPosition n h r s < 2 * n * h := by
  have hle := succ_mul_le (h := h) hr
  have hsucc := Nat.add_one_mul r h
  have htwo := Nat.mul_assoc 2 n h
  unfold zigzagPosition
  split <;> omega

/-- Every global position is that of a local slot. -/
theorem exists_zigzagPosition {q : Nat} (hq : q < 2 * n * h) :
    ∃ r < n, ∃ s < 2 * h, zigzagPosition n h r s = q := by
  have htwo := Nat.mul_assoc 2 n h
  have hpos : 0 < h := Nat.pos_of_ne_zero fun hzero => by grind
  by_cases hfront : q < n * h
  · have hdiv : q / h * h + q % h = q := Nat.div_add_mod' q h
    have hmod := Nat.mod_lt q hpos
    refine ⟨q / h, Nat.div_lt_of_lt_mul (by rwa [Nat.mul_comm]), q % h, by omega, ?_⟩
    unfold zigzagPosition
    rw [if_pos hmod, hdiv]
  · -- the same chunk from the back
    have hdiv := Nat.div_add_mod' (2 * n * h - 1 - q) h
    have hmod := Nat.mod_lt (2 * n * h - 1 - q) hpos
    have hr : (2 * n * h - 1 - q) / h < n := by
      have hcomm := Nat.mul_comm h n
      exact Nat.div_lt_of_lt_mul (by omega)
    have hle := succ_mul_le (h := h) hr
    have hsucc := Nat.add_one_mul ((2 * n * h - 1 - q) / h) h
    refine ⟨(2 * n * h - 1 - q) / h, hr, h + (h - 1 - (2 * n * h - 1 - q) % h), by omega, ?_⟩
    unfold zigzagPosition
    rw [if_neg (by omega)]
    omega

theorem length_zigzagGather {shards : List (List α)} {buf : List α} (hbuf : buf.length = 2 * n * h)
    {k : Nat} (hk : k ≤ n) (hshards : ∀ j < n, (shards.getD j []).length = 2 * h) :
    (zigzagGather n h shards buf k).length = 2 * n * h := by
  induction k with
  | zero => exact hbuf
  | succ k ih =>
    have hle := succ_mul_le (h := h) (r := k) (n := n) (by omega)
    have hlen := hshards k (by omega)
    have hfront : (getSlice (shards.getD k []) 0 h).length = h := length_getSlice (by omega)
    have hback : (getSlice (shards.getD k []) h h).length = h := length_getSlice (by omega)
    have hprev := ih (by omega)
    have hsucc := Nat.add_one_mul k h
    have htwo := Nat.mul_assoc 2 n h
    have h1 : (setSlice (zigzagGather n h shards buf k) (k * h)
        (getSlice (shards.getD k []) 0 h)).length = _ := length_setSlice (by omega)
    show (setSlice _ _ _).length = _
    rw [length_setSlice (by omega), h1, hprev]

section

variable {xs buf : List α} (hxs : xs.length = 2 * n * h) (hbuf : buf.length = 2 * n * h)
include hxs hbuf

/-- After `k` shards the outer `k` chunks on both sides are there. -/
theorem getElem?_zigzagGather {k : Nat} (hk : k ≤ n) (i : Nat) :
    (zigzagGather n h ((List.range n).map (zigzagShard n h xs)) buf k)[i]? =
      if i < k * h ∨ 2 * n * h - k * h ≤ i then xs[i]? else buf[i]? := by
  induction k with
  | zero =>
    rw [Nat.zero_mul]
    by_cases hi : i < 2 * n * h
    · rw [if_neg]
      · rfl
      · omega
    · have hle := Nat.not_lt.1 hi
      have hbufNone : buf[i]? = none := List.getElem?_eq_none (by rw [hbuf]; exact hle)
      rw [if_pos (.inr hle), List.getElem?_eq_none (l := xs) (by rw [hxs]; exact hle)]
      exact hbufNone
  | succ k ih =>
    have hkn : k < n := by omega
    have hshards : ∀ j < n,
        (((List.range n).map (zigzagShard n h xs)).getD j []).length = 2 * h := by
      intro j hj
      rw [List.getD_eq_getElem?_getD, List.getElem?_map, List.getElem?_range hj, Option.map_some,
        Option.getD_some, length_zigzagShard hxs hj]
    have hshard : ((List.range n).map (zigzagShard n h xs)).getD k [] = zigzagShard n h xs k := by
      grind
    have hfront : getSlice (zigzagShard n h xs k) 0 h = getSlice xs (k * h) h := by
      unfold zigzagShard
      show (getSlice xs (k * h) h ++ _).take h = _
      rw [List.take_left' (length_front hxs hkn)]
    have hback : getSlice (zigzagShard n h xs k) h h =
        getSlice xs (2 * n * h - (k + 1) * h) h := by
      unfold zigzagShard
      show ((getSlice xs (k * h) h ++ _).drop h).take h = _
      rw [List.drop_left' (length_front hxs hkn), List.take_of_length_le]
      exact Nat.le_of_eq (length_back hxs hkn)
    have hlen := length_zigzagGather hbuf (k := k) (by omega) hshards
    have hfrontLen := length_front hxs hkn
    have hbackLen := length_back hxs hkn
    have hle := succ_mul_le (h := h) hkn
    have hsucc := Nat.add_one_mul k h
    have htwo := Nat.mul_assoc 2 n h
    show (setSlice (setSlice _ (k * h) (getSlice _ 0 h)) _ (getSlice _ h h))[i]? = _
    rw [hshard, hfront, hback]
    have h1 : (setSlice (zigzagGather n h ((List.range n).map (zigzagShard n h xs)) buf k) (k * h)
        (getSlice xs (k * h) h)).length = _ := length_setSlice (by omega)
    rw [getElem?_setSlice (by omega), getElem?_setSlice (by omega), hfrontLen, hbackLen,
      ih (by omega)]
    generalize hA : 2 * n * h - (k + 1) * h = back at *
    by_cases hb : back ≤ i ∧ i < back + h
    · rw [if_pos hb, if_pos (by omega), getElem?_getSlice _ _ (by omega)]
      congr 1
      omega
    · rw [if_neg hb]
      by_cases hf : k * h ≤ i ∧ i < k * h + h
      · rw [if_pos hf, if_pos (by omega), getElem?_getSlice _ _ (by omega)]
        congr 1
        omega
      · grind

theorem zigzagGather_shards :
    zigzagGather n h ((List.range n).map (zigzagShard n h xs)) buf n = xs := by
  apply List.ext_getElem?
  intro i
  rw [getElem?_zigzagGather hxs hbuf (Nat.le_refl n), if_pos]
  have htwo := Nat.mul_assoc 2 n h
  omega

end

end

end Verl
