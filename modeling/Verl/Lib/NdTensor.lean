import Verl.Lib.PySlice

/-! # Tensors of any number of dimensions

A tensor has an entry at the indices in its shape, and at no other; `slice`, `append` and `cat` work
along one dimension, the others are carried along.

    slice d start stop    t[..., start : stop, ...]
    append d t u          torch.cat([t, u], dim=d)
    cat d ts              torch.cat(ts, dim=d)

* `cat_slices`: consecutive slices, put together again.
* `cat_eq_glue`, `slice_glue`: what is put together, cut again. -/

namespace Verl

open Function

structure NdTensor (n : Nat) (α : Type) where
  shape : Fin n → Nat
  get? : (Fin n → Nat) → Option α
  isSome_get? : ∀ ix, (get? ix).isSome = true ↔ ∀ d, ix d < shape d

namespace NdTensor

variable {n : Nat} {α : Type}

variable {t : NdTensor n α} {d : Fin n}

@[ext] theorem ext {u : NdTensor n α} (hshape : t.shape = u.shape)
    (hget : ∀ ix, t.get? ix = u.get? ix) : t = u := by
  cases t
  cases u
  cases hshape
  cases funext hget
  rfl

/-! ## Indices -/

/-- A statement about every entry of a list with one entry changed. -/
theorem forall_update_iff (f : Fin n → Nat) (d : Fin n) (m : Nat) (P : Fin n → Nat → Prop) :
    (∀ e, P e (update f d m e)) ↔ P d m ∧ ∀ e, e ≠ d → P e (f e) := by
  constructor
  · intro h
    refine ⟨?_, fun e he => ?_⟩
    · have hd := h d
      rwa [update_self] at hd
    · have he' := h e
      rwa [update_of_ne he] at he'
  · rintro ⟨hd, h⟩ e
    by_cases he : e = d
    · subst he
      rwa [update_self]
    · rw [update_of_ne he]
      exact h e he

theorem forall_lt_update (shape ix : Fin n → Nat) (d : Fin n) (m : Nat) :
    (∀ e, ix e < update shape d m e) ↔ ix d < m ∧ ∀ e, e ≠ d → ix e < shape e :=
  forall_update_iff shape d m fun e k => ix e < k

theorem forall_update_lt (shape ix : Fin n → Nat) (d : Fin n) (i : Nat) :
    (∀ e, update ix d i e < shape e) ↔ i < shape d ∧ ∀ e, e ≠ d → ix e < shape e :=
  forall_update_iff ix d i fun e k => k < shape e

theorem get?_eq_none {ix : Fin n → Nat} (h : t.shape d ≤ ix d) : t.get? ix = none := by
  rw [← Option.not_isSome_iff_eq_none, t.isSome_get?]
  intro hlt
  exact absurd (hlt d) (Nat.not_lt.2 h)

/-! ## Operations -/

/-- `t[..., start : stop, ...]`, along dimension `d`. -/
def slice (t : NdTensor n α) (d : Fin n) (start stop : Nat) : NdTensor n α where
  shape := Function.update t.shape d (min stop (t.shape d) - start)
  get? ix := if start + ix d < stop then t.get? (Function.update ix d (start + ix d)) else none
  isSome_get? ix := by
    rw [forall_lt_update]
    by_cases h : start + ix d < stop
    · rw [if_pos h, t.isSome_get?, forall_update_lt]
      have hlt : start + ix d < t.shape d ↔ ix d < min stop (t.shape d) - start := by omega
      rw [hlt]
    · rw [if_neg h]
      refine iff_of_false Bool.false_ne_true fun hlt => h ?_
      omega

/-- The same shape, but for one dimension. -/
def AgreeOff (d : Fin n) (shape shape' : Fin n → Nat) : Prop := ∀ e, e ≠ d → shape e = shape' e

instance (d : Fin n) (shape shape' : Fin n → Nat) : Decidable (AgreeOff d shape shape') :=
  inferInstanceAs (Decidable (∀ e, e ≠ d → shape e = shape' e))

theorem AgreeOff.symm {shape shape' : Fin n → Nat} (h : AgreeOff d shape shape') :
    AgreeOff d shape' shape := fun e he => (h e he).symm

theorem AgreeOff.trans {a b c : Fin n → Nat} (h : AgreeOff d a b)
    (h' : AgreeOff d b c) : AgreeOff d a c := fun e he => (h e he).trans (h' e he)

theorem agreeOff_update (d : Fin n) (shape : Fin n → Nat) (m : Nat) :
    AgreeOff d (update shape d m) shape := fun _ he => update_of_ne he m shape

def append (t u : NdTensor n α) (d : Fin n) (h : AgreeOff d t.shape u.shape) : NdTensor n α where
  shape := Function.update t.shape d (t.shape d + u.shape d)
  get? ix := if ix d < t.shape d then t.get? ix
    else u.get? (Function.update ix d (ix d - t.shape d))
  isSome_get? ix := by
    rw [forall_lt_update]
    by_cases hlt : ix d < t.shape d
    · rw [if_pos hlt, t.isSome_get?]
      constructor
      · intro hix
        exact ⟨by omega, fun e _ => hix e⟩
      · rintro ⟨-, hix⟩ e
        by_cases he : e = d
        · rwa [he]
        · exact hix e he
    · rw [if_neg hlt, u.isSome_get?, forall_update_lt]
      have hd : ix d - t.shape d < u.shape d ↔ ix d < t.shape d + u.shape d := by omega
      rw [hd]
      refine and_congr_right fun _ => forall₂_congr fun e he => ?_
      rw [h e he]

/-- `torch.cat`. -/
def cat (d : Fin n) : List (NdTensor n α) → Except PyErr (NdTensor n α)
  | [] => .error (.runtimeError "torch.cat(): expected a non-empty list of Tensors")
  | [t] => .ok t
  | t :: ts => do
    let u ← cat d ts
    if h : AgreeOff d t.shape u.shape then .ok (t.append u d h)
    else .error (.runtimeError "Sizes of tensors must match except in the dimension")

def ofFn (shape : Fin n → Nat) (f : (Fin n → Nat) → α) : NdTensor n α where
  shape := shape
  get? ix := if ∀ d, ix d < shape d then some (f ix) else none
  isSome_get? ix := by
    split
    · next h => exact iff_of_true rfl h
    · next h => exact iff_of_false Bool.false_ne_true h

/-! ## Lemmas: slices -/

@[simp] theorem shape_slice (t : NdTensor n α) (d : Fin n) (start stop : Nat) :
    (t.slice d start stop).shape = update t.shape d (min stop (t.shape d) - start) := rfl

@[simp] theorem size_slice (t : NdTensor n α) (d : Fin n) (start stop : Nat) :
    (t.slice d start stop).shape d = min stop (t.shape d) - start :=
  update_self d _ t.shape

theorem get?_slice (t : NdTensor n α) (d : Fin n) (start stop : Nat) (ix : Fin n → Nat) :
    (t.slice d start stop).get? ix =
      if start + ix d < stop then t.get? (update ix d (start + ix d)) else none := rfl

theorem agreeOff_slice (t : NdTensor n α) (d : Fin n) (start stop : Nat) :
    AgreeOff d (t.slice d start stop).shape t.shape := agreeOff_update d t.shape _

theorem slice_zero {stop : Nat} (h : t.shape d ≤ stop) : t.slice d 0 stop = t := by
  apply ext
  · rw [shape_slice, Nat.sub_zero, Nat.min_eq_right h, update_eq_self]
  · intro ix
    rw [get?_slice, Nat.zero_add, update_eq_self]
    split
    · rfl
    · next hlt =>
      have hge : t.shape d ≤ ix d := by omega
      exact (get?_eq_none hge).symm

theorem slice_slice (t : NdTensor n α) (d : Fin n) {a b a' b' : Nat} (h : a + b' ≤ b) :
    (t.slice d a b).slice d a' b' = t.slice d (a + a') (a + b') := by
  apply ext
  · rw [shape_slice, size_slice, shape_slice, update_idem]
    congr 1
    omega
  · intro ix
    rw [get?_slice, get?_slice, update_self, update_idem]
    by_cases hlt : a' + ix d < b'
    · have hinner : a + (a' + ix d) < b := by omega
      have houter : a + a' + ix d < a + b' := by omega
      rw [if_pos hlt, if_pos hinner, get?_slice, if_pos houter, Nat.add_assoc]
    · have houter : ¬a + a' + ix d < a + b' := by omega
      rw [if_neg hlt, get?_slice, if_neg houter]

theorem append_slice (t : NdTensor n α) (d : Fin n) {a b c : Nat} (hab : a ≤ b) (hbc : b ≤ c)
    (hc : c ≤ t.shape d) (h : AgreeOff d (t.slice d a b).shape (t.slice d b c).shape) :
    (t.slice d a b).append (t.slice d b c) d h = t.slice d a c := by
  apply ext
  · show update (update t.shape d _) d
      ((t.slice d a b).shape d + (t.slice d b c).shape d) = _
    rw [update_idem, size_slice, size_slice]
    congr 1
    omega
  · intro ix
    show (if ix d < (t.slice d a b).shape d then (t.slice d a b).get? ix
      else (t.slice d b c).get? (update ix d (ix d - (t.slice d a b).shape d))) = _
    rw [size_slice, Nat.min_eq_left (Nat.le_trans hbc hc), get?_slice]
    by_cases hlt : ix d < b - a
    · have hfirst : a + ix d < b := by omega
      have hwhole : a + ix d < c := by omega
      rw [if_pos hlt, get?_slice, if_pos hfirst, if_pos hwhole]
    · have hix : b + (ix d - (b - a)) = a + ix d := by omega
      rw [if_neg hlt, get?_slice, update_self, update_idem, hix, get?_slice]

theorem slice_append (t u : NdTensor n α) (d : Fin n) (h : AgreeOff d t.shape u.shape) :
    (t.append u d h).slice d 0 (t.shape d) = t := by
  apply ext
  · show update (update t.shape d _) d
      (min (t.shape d) (update t.shape d (t.shape d + u.shape d) d) - 0) = _
    rw [update_idem, update_self, Nat.min_eq_left (Nat.le_add_right _ _),
      Nat.sub_zero, update_eq_self]
  · intro ix
    rw [get?_slice, Nat.zero_add, update_eq_self]
    split
    · next hlt => exact if_pos hlt
    · next hlt => exact (get?_eq_none (Nat.not_lt.1 hlt)).symm

theorem size_append (t u : NdTensor n α) (d : Fin n) (h : AgreeOff d t.shape u.shape) :
    (t.append u d h).shape d = t.shape d + u.shape d := update_self d _ t.shape

/-! ## Lemmas: concatenation -/

theorem cat_cons {u : NdTensor n α} {ts : List (NdTensor n α)} (hne : ts ≠ [])
    (hcat : cat d ts = .ok u) (h : AgreeOff d t.shape u.shape) :
    cat d (t :: ts) = .ok (t.append u d h) := by
  cases ts with
  | nil => exact absurd rfl hne
  | cons t' ts =>
    show cat d (t' :: ts) >>= _ = _
    rw [hcat, ok_bind, dif_pos h]

theorem cat_range' (t : NdTensor n α) (d : Fin n) (p i k : Nat)
    (h : (i + (k + 1)) * p ≤ t.shape d) :
    cat d ((List.range' i (k + 1)).map fun j => t.slice d (j * p) ((j + 1) * p)) =
      .ok (t.slice d (i * p) ((i + (k + 1)) * p)) := by
  induction k generalizing i with
  | zero => rfl
  | succ k ih =>
    have hassoc : i + (k + 1 + 1) = i + 1 + (k + 1) := by omega
    rw [hassoc] at h
    have hab : i * p ≤ (i + 1) * p := Nat.mul_le_mul_right p (Nat.le_succ i)
    have hbc : (i + 1) * p ≤ (i + 1 + (k + 1)) * p :=
      Nat.mul_le_mul_right p (Nat.le_add_right _ _)
    have hagree := (agreeOff_slice t d (i * p) ((i + 1) * p)).trans
      (agreeOff_slice t d ((i + 1) * p) ((i + 1 + (k + 1)) * p)).symm
    have hne : (List.range' (i + 1) (k + 1)).map (fun j => t.slice d (j * p) ((j + 1) * p)) ≠
        [] := by
      simp [List.range'_succ]
    rw [List.range'_succ, List.map_cons, cat_cons hne (ih (i + 1) h) hagree,
      append_slice t d hab hbc h, hassoc]

theorem cat_slices {s p : Nat} (hs : 0 < s) (h : t.shape d = s * p) :
    cat d ((List.range s).map fun j => t.slice d (j * p) ((j + 1) * p)) = .ok t := by
  obtain ⟨k, rfl⟩ := Nat.exists_eq_succ_of_ne_zero (Nat.ne_of_gt hs)
  have hcat := cat_range' t d p 0 k (by rw [h, Nat.zero_add])
  rw [Nat.zero_add, Nat.zero_mul] at hcat
  rw [List.range_eq_range']
  exact hcat.trans (congrArg Except.ok (slice_zero (Nat.le_of_eq h)))

/-- Tensors of one shape, one behind the other. -/
def glue {s : Nat} (ts : Fin s → NdTensor n α) (shape : Fin n → Nat)
    (hshape : ∀ i, (ts i).shape = shape) (d : Fin n) : NdTensor n α where
  shape := Function.update shape d (s * shape d)
  get? ix := if h : ix d / shape d < s then
    (ts ⟨ix d / shape d, h⟩).get? (Function.update ix d (ix d % shape d)) else none
  isSome_get? ix := by
    rw [forall_lt_update]
    by_cases hzero : shape d = 0
    · have hnone : s * shape d = 0 := by rw [hzero, Nat.mul_zero]
      refine iff_of_false ?_ fun h => absurd h.1 (hnone ▸ Nat.not_lt_zero _)
      split
      · next h =>
        have hempty : (ts ⟨ix d / shape d, h⟩).shape d ≤
            Function.update ix d (ix d % shape d) d := by
          rw [hshape, hzero]
          exact Nat.zero_le _
        rw [get?_eq_none hempty]
        exact Bool.false_ne_true
      · exact Bool.false_ne_true
    · have hpos := Nat.pos_of_ne_zero hzero
      rw [← Nat.div_lt_iff_lt_mul hpos]
      by_cases h : ix d / shape d < s
      · rw [dif_pos h, (ts _).isSome_get?, hshape, forall_update_lt]
        simp only [Nat.mod_lt _ hpos, h, true_and]
      · rw [dif_neg h]
        exact iff_of_false Bool.false_ne_true fun hlt => h hlt.1

variable {s : Nat} {ts : Fin s → NdTensor n α} {shape : Fin n → Nat}
  (hshape : ∀ i, (ts i).shape = shape) (d : Fin n)

theorem shape_glue : (glue ts shape hshape d).shape = update shape d (s * shape d) := rfl

theorem size_glue : (glue ts shape hshape d).shape d = s * shape d := update_self d _ shape

theorem slice_glue (i : Fin s) :
    (glue ts shape hshape d).slice d (i * shape d) ((i + 1) * shape d) = ts i := by
  have hend : (i + 1) * shape d ≤ s * shape d := Nat.mul_le_mul_right _ i.isLt
  have hsucc : ((i : Nat) + 1) * shape d = i * shape d + shape d := Nat.succ_mul _ _
  apply ext
  · rw [shape_slice, size_glue, shape_glue, update_idem, hshape, hsucc,
      Nat.min_eq_left (hsucc ▸ hend), Nat.add_sub_cancel_left, update_eq_self]
  · intro ix
    rw [get?_slice]
    by_cases hlt : ix d < shape d
    · have hdiv : (i * shape d + ix d) / shape d = i := by
        rw [Nat.add_comm, Nat.add_mul_div_right _ _ (Nat.lt_of_le_of_lt (Nat.zero_le _) hlt),
          Nat.div_eq_of_lt hlt, Nat.zero_add]
      have hmod : (i * shape d + ix d) % shape d = ix d := by
        rw [Nat.add_comm, Nat.add_mul_mod_self_right, Nat.mod_eq_of_lt hlt]
      rw [if_pos (by omega)]
      unfold glue
      dsimp only
      rw [update_self]
      simp only [hdiv, hmod, i.isLt, dif_pos, update_idem, update_eq_self]
    · rw [if_neg (by omega)]
      have hge : (ts i).shape d ≤ ix d := by grind
      exact (get?_eq_none hge).symm

theorem cat_eq_glue (hs : 0 < s) :
    cat d ((List.finRange s).map ts) = .ok (glue ts shape hshape d) := by
  rw [← cat_slices hs (size_glue hshape d), ← List.map_coe_finRange_eq_range, List.map_map]
  refine congrArg (cat d) (List.map_congr_left fun i _ => ?_)
  exact (slice_glue hshape d i).symm

end NdTensor

end Verl
