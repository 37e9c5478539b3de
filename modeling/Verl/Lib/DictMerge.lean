import Verl.Lib.Dict

/-! # Merging one dictionary into another

A loop over the items of the other dictionary writes into the first one while it scans.  A key
that both have is checked; the first check that fails ends the loop, and what was written before
stays.

* `mergeUntil`: the loop, with the dictionary it leaves and the error that ended it.
* `mergeItems`: the same without checks. -/

namespace Verl.Dict

open List

variable {β : Type}

/-- A new key is written; a key that is there is written only with `overwrite`. -/
def mergeItem (overwrite : Bool) (d : Dict β) (item : String × β) : Dict β :=
  match d.get? item.1 with
  | none => d.insert item.1 item.2
  | some _ => if overwrite then d.insert item.1 item.2 else d

def mergeItems (overwrite : Bool) (d : Dict β) (items : List (String × β)) : Dict β :=
  items.foldl (mergeItem overwrite) d

/-- The check of an item, which needs a key that is there. -/
def checkItem (check : String → β → β → Except PyErr Unit) (d : Dict β) (item : String × β) :
    Except PyErr Unit :=
  match d.get? item.1 with
  | none => .ok ()
  | some old => check item.1 old item.2

def mergeUntil (check : String → β → β → Except PyErr Unit) (overwrite : Bool) (d : Dict β) :
    List (String × β) → Dict β × Option PyErr
  | [] => (d, none)
  | item :: items =>
    match checkItem check d item with
    | .error e => (d, some e)
    | .ok () => mergeUntil check overwrite (mergeItem overwrite d item) items

variable {items : List (String × β)} {item p : String × β} {overwrite : Bool}
  {check : String → β → β → Except PyErr Unit} {d : Dict β}

@[simp] theorem mergeItems_cons (overwrite : Bool) (d : Dict β) (item : String × β)
    (items : List (String × β)) :
    mergeItems overwrite d (item :: items) =
      mergeItems overwrite (mergeItem overwrite d item) items := rfl

theorem mergeUntil_cons_ok (h : checkItem check d item = .ok ()) (overwrite : Bool)
    (items : List (String × β)) :
    mergeUntil check overwrite d (item :: items) =
      mergeUntil check overwrite (mergeItem overwrite d item) items := by
  rw [mergeUntil, h]

theorem mergeUntil_cons_error {e : PyErr} (h : checkItem check d item = .error e) (overwrite : Bool)
    (items : List (String × β)) :
    mergeUntil check overwrite d (item :: items) = (d, some e) := by
  rw [mergeUntil, h]

theorem get?_mergeItem (overwrite : Bool) (d : Dict β) (item : String × β) (key : String) :
    (mergeItem overwrite d item).get? key =
      if key = item.1 ∧ (overwrite = true ∨ d.get? key = none) then some item.2
      else d.get? key := by
  unfold mergeItem
  by_cases hkey : key = item.1
  · subst hkey
    cases hget : d.get? item.1 with
    | none => simp [get?_insert]
    | some old =>
      cases overwrite with
      | true => simp [get?_insert]
      | false => simp [hget]
  · cases d.get? item.1 with
    | none => simp [get?_insert, hkey]
    | some old =>
      cases overwrite with
      | true => simp [get?_insert]
      | false => simp [hkey]

theorem checkItem_mergeItem (check : String → β → β → Except PyErr Unit) (overwrite : Bool)
    (d : Dict β) {other : String × β} (h : other.1 ≠ item.1) :
    checkItem check (mergeItem overwrite d item) other = checkItem check d other := by
  unfold checkItem
  rw [get?_mergeItem, if_neg fun hand => h hand.1]

/-- The dictionary is the one with all items before the first failed check, and the loop ends with
an error exactly if some check fails. -/
theorem mergeUntil_spec (check : String → β → β → Except PyErr Unit) (overwrite : Bool)
    (d : Dict β) (items : List (String × β)) (hnd : (items.map Prod.fst).Nodup) :
    ∃ merged, merged <+: items ∧
      (mergeUntil check overwrite d items).1 = mergeItems overwrite d merged ∧
      (∀ item ∈ merged, checkItem check d item = .ok ()) ∧
      ((mergeUntil check overwrite d items).2 = none → merged = items) ∧
      ((mergeUntil check overwrite d items).2 = none ↔
        ∀ item ∈ items, checkItem check d item = .ok ()) := by
  induction items generalizing d with
  | nil => exact ⟨[], prefix_rfl, rfl, by simp, fun _ => rfl, by simp [mergeUntil]⟩
  | cons item items ih =>
    rw [map_cons, nodup_cons] at hnd
    cases hcheck : checkItem check d item with
    | error e =>
      rw [mergeUntil_cons_error hcheck]
      refine ⟨[], nil_prefix, rfl, by simp, by simp, ?_⟩
      simp [hcheck]
    | ok u =>
      obtain ⟨merged, hpre, hdict, hok, hall, hiff⟩ := ih (mergeItem overwrite d item) hnd.2
      have hsame : ∀ other ∈ items,
          checkItem check (mergeItem overwrite d item) other = checkItem check d other := by
        intro other hother
        apply checkItem_mergeItem
        intro heq
        exact hnd.1 (mem_map.2 ⟨other, hother, heq⟩)
      rw [mergeUntil_cons_ok hcheck]
      refine ⟨item :: merged, cons_prefix_cons.2 ⟨rfl, hpre⟩, hdict, ?_, ?_, ?_⟩
      · grind
      · grind
      · grind

/-- A key of the first dictionary stays, with its value or with one of the items. -/
theorem get?_mergeItems_of_some {key : String} {v : β}
    (h : d.get? key = some v) (items : List (String × β)) :
    ∃ w, (mergeItems overwrite d items).get? key = some w ∧
      (w = v ∨ overwrite = true ∧ (key, w) ∈ items) := by
  induction items generalizing d v with
  | nil => exact ⟨v, h, .inl rfl⟩
  | cons item items ih =>
    by_cases hwrite : key = item.1 ∧ (overwrite = true ∨ d.get? key = none)
    · obtain ⟨hkey, htrue | hnone⟩ := hwrite
      · obtain ⟨w, hw, hval⟩ := ih (d := mergeItem overwrite d item) (v := item.2)
          (by rw [get?_mergeItem, if_pos ⟨hkey, .inl htrue⟩])
        refine ⟨w, hw, .inr ⟨htrue, ?_⟩⟩
        rcases hval with rfl | ⟨-, hmem⟩
        · grind
        · exact mem_cons_of_mem _ hmem
      · grind
    · obtain ⟨w, hw, hval⟩ := ih (d := mergeItem overwrite d item) (v := v)
        (by rw [get?_mergeItem, if_neg hwrite, h])
      exact ⟨w, hw, hval.imp_right fun hmem => ⟨hmem.1, mem_cons_of_mem _ hmem.2⟩⟩

theorem get?_mergeItems_of_notMem {key : String} (h : key ∉ items.map Prod.fst) :
    (mergeItems overwrite d items).get? key = d.get? key := by
  induction items generalizing d with
  | nil => rfl
  | cons item items ih =>
    rw [map_cons, mem_cons, not_or] at h
    rw [mergeItems_cons, ih h.2, get?_mergeItem, if_neg fun hand => h.1 hand.1]

theorem get?_mergeItems_of_none (hnd : (items.map Prod.fst).Nodup) (hp : p ∈ items)
    (h : d.get? p.1 = none) : (mergeItems overwrite d items).get? p.1 = some p.2 := by
  induction items generalizing d with
  | nil => cases hp
  | cons item items ih =>
    rw [map_cons, nodup_cons] at hnd
    rw [mergeItems_cons]
    rcases mem_cons.1 hp with rfl | hp
    · rw [get?_mergeItems_of_notMem hnd.1, get?_mergeItem, if_pos ⟨rfl, .inr h⟩]
    · apply ih hnd.2 hp
      have hne : p.1 ≠ item.1 := fun heq => hnd.1 (mem_map.2 ⟨p, hp, heq⟩)
      rw [get?_mergeItem, if_neg fun hand => hne hand.1, h]

/-- Every item of the merge is one of the two dictionaries'. -/
theorem mem_items_mergeItems (h : p ∈ (mergeItems overwrite d items).items) :
    p ∈ d.items ∨ p ∈ items := by
  induction items generalizing d with
  | nil => exact .inl h
  | cons item items ih =>
    rcases ih h with h | h
    · unfold mergeItem at h
      cases hget : d.get? item.1 with
      | none =>
        rw [hget] at h
        rcases mem_items_insert h with h | rfl
        · exact .inl h
        · exact .inr mem_cons_self
      | some old =>
        rw [hget] at h
        cases overwrite with
        | true =>
          rcases mem_items_insert h with h | rfl
          · exact .inl h
          · exact .inr mem_cons_self
        | false => exact .inl h
    · exact .inr (mem_cons_of_mem _ h)

/-- Nor has the loop any other item. -/
theorem mem_items_mergeUntil {d2 : Dict β}
    (h : p ∈ (mergeUntil check overwrite d d2.items).1.items) : p ∈ d.items ∨ p ∈ d2.items := by
  obtain ⟨merged, hinitial, hdict, -⟩ := mergeUntil_spec check overwrite d d2.items d2.nodup
  rw [hdict] at h
  exact (mem_items_mergeItems h).imp_right fun hp => hinitial.sublist.subset hp

end Verl.Dict
