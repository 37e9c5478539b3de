import Verl.Lib.Numerals

/-! # Key-value maps

`KVMap α β` is a finite map, Mathlib's `AList` at a constant type of values.  The order of
the entries is not kept; nothing here depends on it.

Updates over a list of keys or over another map, each with the lookup after it:

* `putKeys`, `lookup_putKeys`: one value under several keys;
* `eraseAll`, `lookup_eraseAll`;
* `mergeAll`, `lookup_mergeAll`: the entries of another map, merged into the old ones. -/

namespace Verl

open List

universe u v

abbrev KVMap (α : Type u) (β : Type v) := AList fun _ : α => β

namespace KVMap

variable {α : Type u} {β : Type v} [DecidableEq α]

/-- The value `b` under each of the keys. -/
def putKeys (keys : List α) (b : β) (m : KVMap α β) : KVMap α β :=
  keys.foldl (fun m k => m.insert k b) m

def eraseAll (keys : List α) (m : KVMap α β) : KVMap α β :=
  keys.foldl (fun m k => m.erase k) m

/-- Each entry of `items`, merged by `f` with the value the key had. -/
def mergeEntries (f : Option β → β → β) (items : List (Sigma fun _ : α => β)) (m : KVMap α β) :
    KVMap α β :=
  items.foldl (fun m e => m.insert e.1 (f (m.lookup e.1) e.2)) m

def mergeAll (f : Option β → β → β) (items m : KVMap α β) : KVMap α β :=
  mergeEntries f items.entries m

/-- The map with these keys and one value. -/
def ofKeys (keys : List α) (b : β) : KVMap α β := putKeys keys b ∅

/-! ## Lookups -/

theorem lookup_putKeys (keys : List α) (b : β) (m : KVMap α β) (k : α) :
    (putKeys keys b m).lookup k = if k ∈ keys then some b else m.lookup k := by
  induction keys generalizing m with
  | nil => rfl
  | cons a keys ih =>
    have hstep : putKeys (a :: keys) b m = putKeys keys b (m.insert a b) := rfl
    rw [hstep, ih]
    by_cases hk : k ∈ keys
    · grind
    · rw [if_neg hk]
      by_cases ha : k = a
      · subst ha
        rw [AList.lookup_insert, if_pos mem_cons_self]
      · rw [AList.lookup_insert_ne ha, if_neg]
        rintro h
        rcases mem_cons.mp h with h | h
        · exact ha h
        · exact hk h

theorem lookup_ofKeys (keys : List α) (b : β) (k : α) :
    (ofKeys keys b).lookup k = if k ∈ keys then some b else none :=
  lookup_putKeys keys b ∅ k

theorem lookup_eraseAll (keys : List α) (m : KVMap α β) (k : α) :
    (eraseAll keys m).lookup k = if k ∈ keys then none else m.lookup k := by
  induction keys generalizing m with
  | nil => rfl
  | cons a keys ih =>
    have hstep : eraseAll (a :: keys) m = eraseAll keys (m.erase a) := rfl
    rw [hstep, ih]
    by_cases hk : k ∈ keys
    · grind
    · rw [if_neg hk]
      by_cases ha : k = a
      · subst ha
        rw [AList.lookup_erase, if_pos mem_cons_self]
      · rw [AList.lookup_erase_ne ha, if_neg]
        rintro h
        rcases mem_cons.mp h with h | h
        · exact ha h
        · exact hk h

theorem lookup_mergeEntries (f : Option β → β → β) (items : List (Sigma fun _ : α => β))
    (hnd : items.NodupKeys) (m : KVMap α β) (k : α) :
    (mergeEntries f items m).lookup k =
      match items.dlookup k with
      | none => m.lookup k
      | some b => some (f (m.lookup k) b) := by
  induction items generalizing m with
  | nil => rfl
  | cons e items ih =>
    obtain ⟨a, b⟩ := e
    rw [nodupKeys_cons] at hnd
    obtain ⟨hnot, hnd⟩ := hnd
    have hstep : mergeEntries f (⟨a, b⟩ :: items) m
        = mergeEntries f items (m.insert a (f (m.lookup a) b)) := rfl
    rw [hstep, ih hnd]
    by_cases ha : k = a
    · subst ha
      rw [dlookup_eq_none.mpr hnot, dlookup_cons_eq]
      exact AList.lookup_insert m
    · rw [dlookup_cons_ne _ _ ha, AList.lookup_insert_ne ha]

theorem lookup_mergeAll (f : Option β → β → β) (items m : KVMap α β) (k : α) :
    (mergeAll f items m).lookup k =
      match items.lookup k with
      | none => m.lookup k
      | some b => some (f (m.lookup k) b) :=
  lookup_mergeEntries f items.entries items.nodupKeys m k

/-- Assignments one after the other, all of which to one key assign the same value. -/
theorem lookup_foldl_insert {items : List (α × β)} {m : KVMap α β} {k : α} {b : β}
    (hunique : ∀ e ∈ items, e.1 = k → e.2 = b) (h : (∃ e ∈ items, e.1 = k) ∨ m.lookup k = some b) :
    (items.foldl (fun m e => m.insert e.1 e.2) m).lookup k = some b := by
  induction items generalizing m with
  | nil =>
    rcases h with ⟨e, he, -⟩ | h
    · cases he
    · exact h
  | cons e items ih =>
    refine ih (fun e' he' => hunique e' (mem_cons_of_mem _ he')) ?_
    by_cases hk : e.1 = k
    · refine .inr ?_
      show (m.insert e.1 e.2).lookup k = some b
      rw [hk, AList.lookup_insert, hunique e mem_cons_self hk]
    · rcases h with ⟨e', he', hk'⟩ | h
      · grind
      · refine .inr ?_
        rw [AList.lookup_insert_ne (Ne.symm hk), h]

theorem mem_entries_iff {m : KVMap α β} {k : α} {b : β} :
    (⟨k, b⟩ : Sigma fun _ : α => β) ∈ m.entries ↔ m.lookup k = some b := by
  rw [← AList.mem_lookup_iff, Option.mem_def]

/-- The keys whose value meets a test. -/
def keysWith (p : β → Bool) (m : KVMap α β) : List α :=
  (m.entries.filter fun e => p e.2).map Sigma.fst

theorem mem_keysWith {p : β → Bool} {m : KVMap α β} {k : α} :
    k ∈ m.keysWith p ↔ ∃ b, m.lookup k = some b ∧ p b = true := by
  unfold keysWith
  rw [mem_map]
  constructor
  · rintro ⟨⟨a, b⟩, he, rfl⟩
    rw [mem_filter] at he
    exact ⟨b, mem_entries_iff.mp he.1, he.2⟩
  · rintro ⟨b, hb, hp⟩
    exact ⟨⟨k, b⟩, mem_filter.mpr ⟨mem_entries_iff.mpr hb, hp⟩, rfl⟩

omit [DecidableEq α] in
theorem nodup_keysWith (p : β → Bool) (m : KVMap α β) : (m.keysWith p).Nodup := by
  have hkeys : (m.entries.map Sigma.fst).Nodup := m.keys_nodup
  exact hkeys.sublist (filter_sublist.map _)

end KVMap

end Verl
