import Verl.Lib.Slice

/-! # Numbers as bytes

`leBytes w n` are the `w` bytes of `n`, the lowest first; `viewAs w` reads numbers of `w` bytes off a
buffer.

* `ofLeBytes_leBytes`: the bytes of a number that fits give it back.
* `viewAs_flatMap`: a buffer of such numbers, read as such numbers. -/

namespace Verl

open List

def leBytes : Nat → Nat → List UInt8
  | 0, _ => []
  | w + 1, n => UInt8.ofNat (n % 256) :: leBytes w (n / 256)

def ofLeBytes (bytes : List UInt8) : Nat := bytes.foldr (fun b n => b.toNat + 256 * n) 0

def viewAs (w : Nat) (bytes : List UInt8) : List Nat :=
  (List.range (bytes.length / w)).map fun i => ofLeBytes (getSlice bytes (i * w) w)

@[simp] theorem length_leBytes (w n : Nat) : (leBytes w n).length = w := by
  induction w generalizing n with
  | zero => rfl
  | succ w ih => exact congrArg Nat.succ (ih (n / 256))

theorem ofLeBytes_leBytes {w n : Nat} (h : n < 256 ^ w) : ofLeBytes (leBytes w n) = n := by
  induction w generalizing n with
  | zero =>
    show 0 = n
    omega
  | succ w ih =>
    have hdiv : n / 256 < 256 ^ w := by omega
    show (UInt8.ofNat (n % 256)).toNat + 256 * ofLeBytes (leBytes w (n / 256)) = n
    rw [ih hdiv, UInt8.toNat_ofNat']
    omega

theorem ofLeBytes_lt (bytes : List UInt8) : ofLeBytes bytes < 256 ^ bytes.length := by
  induction bytes with
  | nil => exact Nat.one_pos
  | cons b bytes ih =>
    have hb := b.toNat_lt
    show b.toNat + 256 * ofLeBytes bytes < 256 ^ (bytes.length + 1)
    omega

theorem length_flatMap_leBytes (w : Nat) (xs : List Nat) :
    (xs.flatMap (leBytes w)).length = xs.length * w := by simp

theorem getSlice_flatMap_leBytes {w i : Nat} {xs : List Nat} {x : Nat} (hi : xs[i]? = some x) :
    getSlice (xs.flatMap (leBytes w)) (i * w) w = leBytes w x := by
  unfold getSlice
  induction xs generalizing i with
  | nil => cases hi
  | cons y xs ih =>
    rw [flatMap_cons]
    cases i with
    | zero =>
      cases hi
      rw [Nat.zero_mul, drop_zero, take_left' (length_leBytes w x)]
    | succ i =>
      have hdrop : (i + 1) * w = (leBytes w y).length + i * w := by
        rw [length_leBytes]
        ring
      rw [hdrop, ← drop_drop, drop_left]
      exact ih hi

theorem viewAs_flatMap {w : Nat} (hw : 0 < w) {xs : List Nat} (h : ∀ x ∈ xs, x < 256 ^ w) :
    viewAs w (xs.flatMap (leBytes w)) = xs := by
  unfold viewAs
  rw [length_flatMap_leBytes, Nat.mul_div_cancel _ hw]
  apply ext_getElem
  · rw [length_map, length_range]
  · intro i hi hi'
    rw [getElem_map, getElem_range, getSlice_flatMap_leBytes (getElem?_eq_getElem hi')]
    exact ofLeBytes_leBytes (h _ (getElem_mem hi'))

theorem viewAs_lt {w : Nat} (bytes : List UInt8) : ∀ x ∈ viewAs w bytes, x < 256 ^ w := by
  intro x hx
  obtain ⟨i, hi, rfl⟩ := mem_map.1 hx
  have hlen : (getSlice bytes (i * w) w).length ≤ w := by simp [getSlice]
  exact (ofLeBytes_lt _).trans_le (Nat.pow_le_pow_right (by decide) hlen)

end Verl
