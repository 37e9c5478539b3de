import Verl.Lib.Python

/-! # Python slices

`sliceIdxs n start stop step` are the indices of `xs[start:stop:step]` for a sequence of `n` items
(`slice.indices`): bounds may be missing or negative, `step` may be negative but not zero.

* `sliceIdxs_one`: the plain slice is a stretch. -/

namespace Verl

open List

/-- A bound as `slice.indices` clips it. -/
def clipBound (n : Nat) (step i : Int) : Int :=
  if i < 0 then max (i + n) (if step < 0 then -1 else 0)
  else min i (if step < 0 then n - 1 else n)

def sliceStart (n : Nat) (step : Int) (start : Option Int) : Int :=
  match start with
  | some i => clipBound n step i
  | none => if step < 0 then n - 1 else 0

def sliceStop (n : Nat) (step : Int) (stop : Option Int) : Int :=
  match stop with
  | some i => clipBound n step i
  | none => if step < 0 then -1 else n

/-- The length of `range(start, stop, step)`. -/
def rangeLength (start stop step : Int) : Nat :=
  if step < 0 then ((start - stop + -step - 1) / -step).toNat
  else ((stop - start + step - 1) / step).toNat

def sliceIdxs (n : Nat) (start stop : Option Int) (step : Int) : List Nat :=
  let start := sliceStart n step start
  let stop := sliceStop n step stop
  (List.range (rangeLength start stop step)).map fun (k : Nat) => (start + k * step).toNat

variable {step : Int} {α : Type} {n k a : Nat} {x : α} {xs : List α}

theorem clipBound_of_pos (hstep : 0 < step) (i : Int) :
    0 ≤ clipBound n step i ∧ clipBound n step i ≤ n := by
  unfold clipBound
  by_cases h : i < 0
  · rw [if_pos h]
    omega
  · rw [if_neg h]
    omega

theorem clipBound_of_neg (hstep : step < 0) (i : Int) :
    -1 ≤ clipBound n step i ∧ clipBound n step i ≤ n - 1 := by
  unfold clipBound
  by_cases h : i < 0
  · rw [if_pos h]
    omega
  · rw [if_neg h]
    omega

/-- The `k`-th number of a range comes before its end. -/
theorem mul_lt_of_lt_rangeLength {start stop : Int} (hstep : 0 < step)
    (hk : k < rangeLength start stop step) : start + k * step < stop := by
  unfold rangeLength at hk
  rw [if_neg (by omega)] at hk
  have hdiv := Int.ediv_mul_le (stop - start + step - 1) hstep.ne'
  have hk' : (k : Int) + 1 ≤ (stop - start + step - 1) / step := by omega
  have hmul := mul_le_mul_of_nonneg_right hk' hstep.le
  linarith

theorem stop_lt_of_lt_rangeLength {start stop : Int} (hstep : step < 0)
    (hk : k < rangeLength start stop step) : stop < start := by
  unfold rangeLength at hk
  rw [if_pos hstep] at hk
  by_contra hle
  have hzero : (start - stop + -step - 1) / -step < 1 :=
    Int.ediv_lt_of_lt_mul (by omega) (by omega)
  omega

/-- A slice only reads items that are there. -/
theorem lt_of_mem_sliceIdxs {start stop : Option Int} (hstep : step ≠ 0) :
    ∀ i ∈ sliceIdxs n start stop step, i < n := by
  intro i hi
  obtain ⟨k, hk, rfl⟩ := mem_map.1 hi
  rw [mem_range] at hk
  rcases lt_or_gt_of_ne hstep with hneg | hpos
  · have hlt := stop_lt_of_lt_rangeLength hneg hk
    have hstop : -1 ≤ sliceStop n step stop := by
      unfold sliceStop
      cases stop with
      | none => rw [if_pos hneg]
      | some j => exact (clipBound_of_neg hneg j).1
    have hstart : sliceStart n step start ≤ n - 1 := by
      unfold sliceStart
      cases start with
      | none => rw [if_pos hneg]
      | some j => exact (clipBound_of_neg hneg j).2
    have hmul : (k : Int) * step ≤ 0 := mul_nonpos_of_nonneg_of_nonpos (by omega) hneg.le
    omega
  · have hlt := mul_lt_of_lt_rangeLength hpos hk
    have hstop : sliceStop n step stop ≤ n := by
      unfold sliceStop
      cases stop with
      | none => rw [if_neg (by omega)]
      | some j => exact (clipBound_of_pos hpos j).2
    have hstart : 0 ≤ sliceStart n step start := by
      unfold sliceStart
      cases start with
      | none => rw [if_neg (by omega)]
      | some j => exact (clipBound_of_pos hpos j).1
    have hmul : 0 ≤ (k : Int) * step := mul_nonneg (by omega) hpos.le
    omega

theorem sliceIdxs_one (n : Nat) (start stop : Option Int) : sliceIdxs n start stop 1 =
      range' (sliceStart n 1 start).toNat
        ((sliceStop n 1 stop).toNat - (sliceStart n 1 start).toNat) := by
  have hstart : 0 ≤ sliceStart n 1 start := by
    unfold sliceStart
    cases start with
    | none => simp
    | some j => exact (clipBound_of_pos one_pos j).1
  have hlen : rangeLength (sliceStart n 1 start) (sliceStop n 1 stop) 1 =
      (sliceStop n 1 stop).toNat - (sliceStart n 1 start).toNat := by
    unfold rangeLength
    rw [if_neg (by omega)]
    omega
  unfold sliceIdxs
  dsimp only
  rw [hlen, range'_eq_map_range]
  apply map_congr_left
  intro k _
  omega

theorem clipBound_nat (n a : Nat) : clipBound n 1 a = (min a n : Nat) := by
  unfold clipBound
  omega

theorem sliceIdxs_nat (n a b : Nat) :
    sliceIdxs n (some a) (some b) 1 = range' (min a n) (min b n - min a n) := by
  rw [sliceIdxs_one]
  unfold sliceStart sliceStop
  dsimp only
  rw [clipBound_nat, clipBound_nat, Int.toNat_natCast, Int.toNat_natCast]

theorem sliceIdxs_upto (n b : Nat) : sliceIdxs n none (some b) 1 = range (min b n) := by
  rw [sliceIdxs_one]
  unfold sliceStart sliceStop
  dsimp only
  rw [clipBound_nat, if_neg (by decide), Int.toNat_natCast, Int.toNat_zero, Nat.sub_zero,
    range_eq_range']

theorem sliceIdxs_upto_neg {p : Nat} (hp : 0 < p) :
    sliceIdxs n none (some (-p)) 1 = range (n - p) := by
  have hstop : clipBound n 1 (-p) = (n - p : Nat) := by
    unfold clipBound
    omega
  rw [sliceIdxs_one]
  unfold sliceStart sliceStop
  dsimp only
  rw [hstop, if_neg (by decide), Int.toNat_natCast, Int.toNat_zero, Nat.sub_zero,
    range_eq_range']

theorem le_rangeLength_mul (n : Nat) {s : Nat} (hs : 0 < s) : n ≤ rangeLength 0 n s * s := by
  have hlt := Int.lt_ediv_add_one_mul_self ((n : Int) - 0 + s - 1) (by omega : (0 : Int) < s)
  have hnonneg : 0 ≤ ((n : Int) - 0 + s - 1) / s := Int.ediv_nonneg (by omega) (by omega)
  unfold rangeLength
  rw [if_neg (by omega)]
  rw [add_mul] at hlt
  have hcast : ((((n : Int) - 0 + s - 1) / s).toNat : Int) = ((n : Int) - 0 + s - 1) / s :=
    Int.toNat_of_nonneg hnonneg
  zify
  rw [hcast]
  omega

theorem sliceIdxs_stride {m s start : Nat} (h : start < s) :
    sliceIdxs (m * s) (some (start : Nat)) none s =
      (range m).map fun j => start + j * s := by
  have hs : (0 : Int) < s := by omega
  have hnot : ¬(s : Int) < 0 := by omega
  have hstart : sliceStart (m * s) s (some (start : Nat)) = min (start : Int) ((m * s : Nat) : Int) := by
    show clipBound _ _ _ = _
    unfold clipBound
    rw [if_neg (by omega), if_neg hnot]
  have hstop : sliceStop (m * s) s none = ((m * s : Nat) : Int) := by
    unfold sliceStop
    exact if_neg hnot
  unfold sliceIdxs
  dsimp only
  rw [hstart, hstop]
  cases m with
  | zero =>
    have hzero : ((s : Int) - 1) / s = 0 := Int.ediv_eq_zero_of_lt (by omega) (by omega)
    simp [rangeLength, hzero]
  | succ m =>
    have hle : start ≤ (m + 1) * s := by
      rw [Nat.succ_mul]
      omega
    have hlength : rangeLength (start : Int) (((m + 1) * s : Nat) : Int) s = m + 1 := by
      have hsub : (((m + 1) * s : Nat) : Int) - start + s - 1 =
          ((s : Int) - 1 - start) + s * ((m : Int) + 1) := by grind
      unfold rangeLength
      rw [if_neg hnot, hsub, Int.add_mul_ediv_left _ _ hs.ne', Int.ediv_eq_zero_of_lt (by omega)
        (by omega)]
      omega
    rw [min_eq_left (by exact_mod_cast hle), hlength]
    apply map_congr_left
    intro j _
    rw [← Int.natCast_mul, ← Int.natCast_add, Int.toNat_natCast]

/-! ## Plain slices -/

/-- `xs[start:stop]`. -/
def plainSlice {α : Type} (xs : List α) (start stop : Option Int) : List α :=
  (xs.take (sliceStop xs.length 1 stop).toNat).drop (sliceStart xs.length 1 start).toNat

theorem plainSlice_nat (xs : List α) (a b : Nat) :
    plainSlice xs (some a) (some b) = (xs.take b).drop a := by
  unfold plainSlice sliceStart sliceStop
  dsimp only
  rw [clipBound_nat, clipBound_nat, Int.toNat_natCast, Int.toNat_natCast]
  have htake : xs.take (min b xs.length) = xs.take b := by
    rw [← take_take, take_length]
  rw [htake]
  by_cases ha : a ≤ xs.length
  · rw [Nat.min_eq_left ha]
  · simp

theorem clipBound_neg_nat (ha : 0 < a) (h : a ≤ n) : clipBound n 1 (-a) = (n - a : Nat) := by
  unfold clipBound
  omega

theorem plainSlice_neg {b : Nat} (hb : 0 < b) (hab : b ≤ a) (ha : a ≤ xs.length) :
    plainSlice xs (some (-a)) (some (-b)) = (xs.take (xs.length - b)).drop (xs.length - a) := by
  unfold plainSlice sliceStart sliceStop
  dsimp only
  rw [clipBound_neg_nat hb (by omega), clipBound_neg_nat (by omega) ha, Int.toNat_natCast,
    Int.toNat_natCast]

theorem plainSlice_from_neg (ha : 0 < a) (h : a ≤ xs.length) :
    plainSlice xs (some (-a)) none = xs.drop (xs.length - a) := by
  unfold plainSlice sliceStart sliceStop
  dsimp only
  rw [if_neg (by decide), clipBound_neg_nat ha h, Int.toNat_natCast, Int.toNat_natCast,
    take_length]

/-- The slice `[-0:]` is everything. -/
theorem plainSlice_from_zero (xs : List α) : plainSlice xs (some (-(0 : Nat))) none = xs := by
  unfold plainSlice sliceStart sliceStop
  dsimp only
  rw [if_neg (by decide), show (-((0 : Nat) : Int)) = ((0 : Nat) : Int) from rfl, clipBound_nat,
    Int.toNat_natCast, Int.toNat_natCast, take_length, Nat.zero_min, drop_zero]

theorem plainSlice_upto (xs : List α) (b : Nat) : plainSlice xs none (some b) = xs.take b := by
  unfold plainSlice sliceStart sliceStop
  dsimp only
  rw [if_neg (by decide), clipBound_nat, Int.toNat_natCast, Int.toNat_zero, drop_zero,
    ← take_take, take_length]

/-! ## Single items -/

/-- An index into `n` items, counted from the end when negative. -/
def pyIndex (n : Nat) (i : Int) : Except PyErr Nat :=
  if 0 ≤ i ∧ i < n then .ok i.toNat
  else if -n ≤ i ∧ i < 0 then .ok (i + n).toNat
  else .error .indexError

theorem pyIndex_lt {i : Nat} {k : Int} (h : pyIndex n k = .ok i) : i < n := by
  unfold pyIndex at h
  split at h
  · cases h
    omega
  · grind

/-- `xs[i]`. -/
def pyGet {α : Type} (xs : List α) (i : Int) : Except PyErr α :=
  match pyIndex xs.length i with
  | .ok k =>
    match xs[k]? with
    | some x => .ok x
    | none => .error .indexError
  | .error e => .error e

theorem pyIndex_nat (h : k < n) : pyIndex n k = .ok k := by
  unfold pyIndex
  rw [if_pos (by omega), Int.toNat_natCast]

theorem pyGet_nat (h : xs[k]? = some x) : pyGet xs k = .ok x := by
  unfold pyGet
  rw [pyIndex_nat (List.getElem?_eq_some_iff.1 h).1]
  dsimp only
  rw [h]

theorem pyGet_neg (ha : 0 < a) (hle : a ≤ xs.length)
    (h : xs[xs.length - a]? = some x) : pyGet xs (-(a : Int)) = .ok x := by
  have hindex : pyIndex xs.length (-(a : Int)) = .ok (xs.length - a) := by
    unfold pyIndex
    rw [if_neg (by omega), if_pos (by omega)]
    congr 1
    omega
  unfold pyGet
  rw [hindex]
  dsimp only
  rw [h]

theorem exists_pyGet {i : Int} (hlow : -xs.length ≤ i)
    (hhigh : i < xs.length) : ∃ x, pyGet xs i = .ok x := by
  have hindex : ∃ k, pyIndex xs.length i = .ok k := by
    unfold pyIndex
    by_cases hi : 0 ≤ i ∧ i < xs.length
    · exact ⟨_, if_pos hi⟩
    · rw [if_neg hi, if_pos (by omega)]
      exact ⟨_, rfl⟩
  obtain ⟨k, hk⟩ := hindex
  unfold pyGet
  rw [hk]
  dsimp only
  rw [getElem?_eq_getElem (pyIndex_lt hk)]
  exact ⟨_, rfl⟩

theorem lt_of_pyGet {i : Int} (h : pyGet xs i = .ok x) : -xs.length ≤ i ∧ i < xs.length := by
  unfold pyGet at h
  cases hindex : pyIndex xs.length i with
  | error e =>
    rw [hindex] at h
    cases h
  | ok k =>
    unfold pyIndex at hindex
    split at hindex
    · omega
    · grind

end Verl
