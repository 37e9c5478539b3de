import Verl.Lib.Numerals

/-! # The most recent distinct elements of a list

A history lists events in the order they happened, an element as often as it happened.
`recent n xs` are the last `n` distinct elements, each at the place of its last
occurrence.

    recent 2 [a, b, a, c, a] = [c, a]

* `mem_recent_iff`: an element is among them when fewer than `n` distinct elements
  came after it.
* `mem_recent_of_mem_rtake`: the last `n` entries are recent, repeated or not. -/

namespace Verl

open List

universe u

variable {α : Type u} [DecidableEq α] {n : Nat} {xs : List α} {a b : α}

/-- The last `n` distinct elements of `xs`. -/
def recent (n : Nat) (xs : List α) : List α := xs.dedup.rtake n

/-! ## Lemmas -/

theorem nodup_recent : (recent n xs).Nodup :=
  (nodup_dedup xs).sublist (drop_sublist _ _)

theorem mem_of_mem_recent (h : a ∈ recent n xs) : a ∈ xs :=
  mem_dedup.mp (mem_of_mem_drop h)

theorem length_recent : (recent n xs).length = min n xs.dedup.length := by
  unfold recent rtake
  rw [length_drop]
  omega

/-- Nothing is left out while there are at most `n` distinct elements. -/
theorem recent_of_length_le (h : xs.dedup.length ≤ n) : recent n xs = xs.dedup := by
  unfold recent rtake
  rw [Nat.sub_eq_zero_of_le h, drop_zero]

theorem length_dedup_le : xs.dedup.length ≤ xs.length := (dedup_sublist xs).length_le

theorem length_dedup_le_of_subset {ys : List α} (h : xs ⊆ ys) : xs.dedup.length ≤ ys.dedup.length :=
  ((nodup_dedup xs).subperm fun _ hx =>
    mem_dedup.mpr (h (mem_dedup.mp hx))).length_le

/-- An entry that comes again later counts there. -/
theorem recent_cons_of_mem (h : a ∈ xs) : recent n (a :: xs) = recent n xs := by
  unfold recent
  rw [dedup_cons_of_mem h]

theorem recent_cons_of_not_mem (h : a ∉ xs) :
    recent n (a :: xs) = if xs.dedup.length < n then a :: recent n xs else recent n xs := by
  unfold recent rtake
  rw [dedup_cons_of_notMem h, length_cons]
  split
  · rename_i hlt
    rw [Nat.sub_eq_zero_of_le hlt, Nat.sub_eq_zero_of_le (Nat.le_of_lt hlt), drop_zero,
      drop_zero]
  · rename_i hge
    rw [Nat.succ_sub (Nat.not_lt.mp hge), drop_succ_cons]

theorem mem_recent_iff :
    a ∈ recent n xs ↔ ∃ older newer, xs = older ++ a :: newer ∧ newer.dedup.length < n := by
  induction xs with
  | nil => simp [recent]
  | cons x xs ih =>
    have hcons : (∃ older newer, x :: xs = older ++ a :: newer ∧ newer.dedup.length < n) ↔
        (x = a ∧ xs.dedup.length < n) ∨ a ∈ recent n xs := by
      rw [ih]
      constructor
      · rintro ⟨older, newer, heq, hlt⟩
        cases older with
        | nil =>
          obtain ⟨rfl, rfl⟩ := List.cons.inj heq
          exact .inl ⟨rfl, hlt⟩
        | cons y older =>
          obtain ⟨rfl, rfl⟩ := List.cons.inj heq
          exact .inr ⟨older, newer, rfl, hlt⟩
      · rintro (⟨rfl, hlt⟩ | ⟨older, newer, rfl, hlt⟩)
        · exact ⟨[], xs, rfl, hlt⟩
        · exact ⟨x :: older, newer, rfl, hlt⟩
    rw [hcons]
    by_cases hx : x ∈ xs
    · rw [recent_cons_of_mem hx]
      refine ⟨.inr, ?_⟩
      rintro (⟨rfl, hlt⟩ | h)
      · rw [recent_of_length_le (Nat.le_of_lt hlt)]
        exact mem_dedup.mpr hx
      · exact h
    · rw [recent_cons_of_not_mem hx]
      split
      · grind
      · grind

/-- One more event pushes out at most what it does not name. -/
theorem mem_recent_of_append (h : a ∈ recent n (xs ++ [b])) : a = b ∨ a ∈ recent n xs := by
  obtain ⟨older, newer, heq, hlt⟩ := mem_recent_iff.mp h
  rcases eq_nil_or_concat newer with rfl | ⟨newer, last, rfl⟩
  · exact .inl (append_inj' heq rfl |>.2 |> singleton_inj.mp).symm
  · right
    rw [concat_eq_append, ← cons_append, ← append_assoc] at heq
    have hxs : xs = older ++ a :: newer := (append_inj' heq rfl).1
    refine mem_recent_iff.mpr ⟨older, newer, hxs, Nat.lt_of_le_of_lt ?_ hlt⟩
    exact length_dedup_le_of_subset fun _ hx =>
      concat_eq_append ▸ mem_append_left _ hx

theorem mem_recent_append_self (hn : 0 < n) : b ∈ recent n (xs ++ [b]) :=
  mem_recent_iff.mpr ⟨xs, [], rfl, hn⟩

/-- A recent element that comes once more changes which is the last one, not which ones
there are. -/
theorem mem_recent_append_of_mem (hb : b ∈ recent n xs) :
    a ∈ recent n (xs ++ [b]) ↔ a ∈ recent n xs := by
  have hsub : recent n (xs ++ [b]) ⊆ recent n xs := fun _ hx =>
    (mem_recent_of_append hx).elim (fun h => h ▸ hb) id
  have hlen : (recent n xs).length ≤ (recent n (xs ++ [b])).length := by
    rw [length_recent, length_recent]
    have hle := length_dedup_le_of_subset (subset_append_left xs [b])
    omega
  exact ((nodup_recent.subperm hsub).perm_of_length_le hlen).mem_iff

/-- Distinct entries at the end are the recent ones. -/
theorem recent_of_suffix {last : List α} (hsuffix : last <:+ xs) (hnodup : last.Nodup)
    (hlen : last.length = n) : recent n xs = last := by
  obtain ⟨first, rfl⟩ := hsuffix
  obtain ⟨more, hmore⟩ := suffix_union_right first last
  unfold recent rtake
  rw [dedup_append, hnodup.dedup, ← hmore, length_append, hlen,
    Nat.add_sub_cancel]
  exact drop_left

theorem mem_recent_of_mem_rtake (h : a ∈ xs.rtake n) : a ∈ recent n xs := by
  obtain ⟨before, after, heq⟩ := append_of_mem h
  have hlen : (xs.rtake n).length ≤ n := by
    unfold rtake
    rw [length_drop]
    omega
  refine mem_recent_iff.mpr ⟨xs.take (xs.length - n) ++ before, after, ?_, ?_⟩
  · rw [append_assoc, ← heq]
    exact (take_append_drop _ _).symm
  · have hle : after.dedup.length ≤ after.length := length_dedup_le
    have hafter : (xs.rtake n).length = before.length + (after.length + 1) := by grind
    omega

/-- The entry before the last `n` is still recent when one of them is a repetition. -/
theorem mem_recent_of_not_nodup {last : List α} (hsuffix : a :: last <:+ xs)
    (hlen : last.length = n) (hnodup : ¬(a :: last).Nodup) : a ∈ recent n xs := by
  obtain ⟨first, rfl⟩ := hsuffix
  by_cases ha : a ∈ last
  · apply mem_recent_of_mem_rtake
    rw [append_cons, rtake, length_append, hlen, Nat.add_sub_cancel,
      drop_left]
    exact ha
  · have hlast : ¬last.Nodup := fun h => hnodup (nodup_cons.mpr ⟨ha, h⟩)
    refine mem_recent_iff.mpr ⟨first, last, rfl, Nat.lt_of_le_of_ne ?_ ?_⟩
    · exact hlen ▸ length_dedup_le
    · intro heq
      apply hlast
      rw [← dedup_eq_self]
      exact (dedup_sublist last).eq_of_length (heq.trans hlen.symm)

/-- Which elements of a history are the recent ones is said by a list or by a test. -/
theorem filter_dedup_eq_recent_iff {p : α → Bool} :
    xs.dedup.filter p = recent n xs ↔ ∀ x ∈ xs, p x = true ↔ x ∈ recent n xs := by
  constructor
  · intro h x hx
    rw [← h, mem_filter, mem_dedup]
    exact ⟨fun hp => ⟨hx, hp⟩, And.right⟩
  · intro h
    have hold : xs.dedup.take (xs.dedup.length - n) ++ recent n xs = xs.dedup :=
      take_append_drop _ _
    have hnodup := nodup_dedup xs
    have hmem : ∀ x ∈ xs.dedup, p x = decide (x ∈ recent n xs) := fun x hx => by
      rw [Bool.eq_iff_iff, decide_eq_true_iff]
      exact h x (mem_dedup.mp hx)
    rw [filter_congr hmem]
    conv => enter [1, 2]; rw [← hold]
    rw [filter_append, filter_eq_nil_iff.mpr]
    · simp
    · grind

end Verl
