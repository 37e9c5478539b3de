import Verl.Lib.Python

/-!
# Dictionaries and values

`Dict β` is a Python `dict` with string keys: its items in insertion order, no key twice.
`PyVal` is a plain Python value with its `==` (`pyEq`), for the dictionaries a program only
carries, compares and merges.
-/

namespace Verl

open List

/-- A dictionary: the items in insertion order, each key once. -/
@[ext]
structure Dict (β : Type) where
  items : List (String × β)
  nodup : (items.map Prod.fst).Nodup

namespace Dict

variable {β γ δ : Type}

def empty : Dict β := { items := [], nodup := nodup_nil }

def keys (d : Dict β) : List String := d.items.map Prod.fst

def get? (d : Dict β) (key : String) : Option β := d.items.lookup key

/-- The same keys with other values. -/
def mapVals (f : String → β → γ) (d : Dict β) : Dict γ where
  items := d.items.map fun p => (p.1, f p.1 p.2)
  nodup := by rw [map_map]; exact d.nodup

/-- The items whose key is kept. -/
def filterKeys (keep : String → Bool) (d : Dict β) : Dict β where
  items := d.items.filter fun p => keep p.1
  nodup := d.nodup.sublist (filter_sublist.map _)

variable {items : List (String × β)} {f : β → Except PyErr γ} {v : β} {k : String} {d : Dict β}

theorem map_fst_of_mapM {results : List (String × γ)}
    (h : items.mapM (fun p => (f p.2).map fun v => (p.1, v)) = .ok results) :
    results.map Prod.fst = items.map Prod.fst := by
  have hpairs := forall₂_of_mapM_eq_ok h
  clear h
  induction hpairs with
  | nil => rfl
  | cons hp _ ih =>
    rw [map_cons]
    congr 1
    obtain ⟨v, -, rfl⟩ := except_map_eq_ok.1 hp
    rfl

/-- The same keys with the results of a call that may raise. -/
def mapValsM (f : β → Except PyErr γ) (d : Dict β) : Except PyErr (Dict γ) :=
  match h : d.items.mapM fun p => (f p.2).map fun v => (p.1, v) with
  | .error e => .error e
  | .ok items => .ok { items := items, nodup := by rw [map_fst_of_mapM h]; exact d.nodup }

theorem mapValsM_eq_ok {d' : Dict γ} (h : mapValsM f d = .ok d') :
    Forall₂ (fun p q => q.1 = p.1 ∧ f p.2 = .ok q.2) d.items d'.items := by
  unfold mapValsM at h
  split at h
  · cases h
  · next items hitems =>
    cases h
    refine (forall₂_of_mapM_eq_ok hitems).imp fun p q hq => ?_
    obtain ⟨v, hv, rfl⟩ := except_map_eq_ok.1 hq
    exact ⟨rfl, hv⟩

theorem exists_of_mem_mapValsM {d' : Dict γ}
    (h : mapValsM f d = .ok d') {q : String × γ} (hq : q ∈ d'.items) :
    ∃ p ∈ d.items, q.1 = p.1 ∧ f p.2 = .ok q.2 :=
  exists_of_forall₂ (mapValsM_eq_ok h) hq

theorem mapValsM_eq_ok_mapVals {g : β → γ} (h : ∀ p ∈ d.items, f p.2 = .ok (g p.2)) :
    mapValsM f d = .ok (d.mapVals fun _ => g) := by
  have hitems : (d.items.mapM fun p => (f p.2).map fun v => (p.1, v)) =
      .ok (d.items.map fun p => (p.1, g p.2)) := by
    apply mapM_eq_ok_map
    intro p hp
    rw [h p hp]
    rfl
  unfold mapValsM
  split
  · grind
  · next items hok =>
    rw [hitems] at hok
    cases hok
    rfl

theorem exists_mapValsM {g : γ → Except PyErr β}
    (h : ∀ p ∈ d.items, ∃ e, f p.2 = .ok e ∧ g e = .ok p.2) :
    ∃ d', mapValsM f d = .ok d' ∧ mapValsM g d' = .ok d := by
  obtain ⟨results, hf, hg⟩ : ∃ results : List (String × γ),
      (d.items.mapM fun p => (f p.2).map fun v => (p.1, v)) = .ok results ∧
      (results.mapM fun p => (g p.2).map fun v => (p.1, v)) = .ok d.items := by
    generalize d.items = items at h
    induction items with
    | nil => exact ⟨[], rfl, rfl⟩
    | cons p items ih =>
      rw [forall_mem_cons] at h
      obtain ⟨e, hf, hg⟩ := h.1
      obtain ⟨results, hfs, hgs⟩ := ih h.2
      refine ⟨(p.1, e) :: results, ?_, ?_⟩
      · rw [mapM_cons, hf, hfs]
        rfl
      · rw [mapM_cons]
        rw [hg, hgs]
        rfl
  have hnodup : (results.map Prod.fst).Nodup := by
    rw [map_fst_of_mapM hf]
    exact d.nodup
  refine ⟨⟨results, hnodup⟩, ?_, ?_⟩
  · unfold mapValsM
    split
    · grind
    · grind
  · unfold mapValsM
    split
    · grind
    · next items hitems =>
      rw [hg] at hitems
      cases hitems
      rfl

/-- The calls all return exactly when the call of each value does. -/
theorem exists_mapValsM_iff :
    (∃ d', mapValsM f d = .ok d') ↔ ∀ p ∈ d.items, ∃ v, f p.2 = .ok v := by
  have hitems : (∃ results, (d.items.mapM fun p => (f p.2).map fun v => (p.1, v)) = .ok results) ↔
      ∀ p ∈ d.items, ∃ v, f p.2 = .ok v := by
    rw [exists_mapM_iff]
    refine forall₂_congr fun p _ => ⟨?_, ?_⟩
    · rintro ⟨q, hq⟩
      obtain ⟨v, hv, -⟩ := except_map_eq_ok.1 hq
      exact ⟨v, hv⟩
    · rintro ⟨v, hv⟩
      exact ⟨(p.1, v), except_map_eq_ok.2 ⟨v, hv, rfl⟩⟩
  rw [← hitems]
  unfold mapValsM
  constructor
  · grind
  · rintro ⟨results, hresults⟩
    split
    · grind
    · exact ⟨_, rfl⟩

/-- `d[key] = val`: a new key goes to the end, an old one keeps its place. -/
def insert (d : Dict β) (key : String) (val : β) : Dict β :=
  if h : key ∈ d.keys then d.mapVals fun k v => if k = key then val else v
  else
    { items := d.items ++ [(key, val)]
      nodup := by
        rw [map_append, map_cons, map_nil]
        exact nodup_append.2 ⟨d.nodup, nodup_singleton _, by
          intro a ha b hb hab
          rw [hab, mem_singleton.1 hb] at ha
          exact h ha⟩ }

/-- `d[key] = f(d[key])` on a `defaultdict` whose missing values are `default`. -/
def modify (d : Dict β) (key : String) (default : β) (f : β → β) : Dict β :=
  d.insert key (f ((d.get? key).getD default))

/-- `d.pop(key, None)`, without the value. -/
def pop (d : Dict β) (key : String) : Dict β := d.filterKeys (· != key)

/-- The dictionary display `{k: v, ...}`. -/
def ofItems (items : List (String × β)) : Dict β :=
  items.foldl (fun d p => d.insert p.1 p.2) empty

@[simp] theorem keys_mapVals (f : String → β → γ) (d : Dict β) : (d.mapVals f).keys = d.keys := by
  unfold keys mapVals
  rw [map_map]
  rfl

@[simp] theorem items_mapVals (f : String → β → γ) (d : Dict β) :
    (d.mapVals f).items = d.items.map fun p => (p.1, f p.1 p.2) := rfl

theorem mapVals_mapVals (f : String → β → γ) (g : String → γ → δ) (d : Dict β) :
    (d.mapVals f).mapVals g = d.mapVals fun k v => g k (f k v) := by
  apply Dict.ext
  simp

theorem mapVals_congr {f g : String → β → γ}
    (h : ∀ p ∈ d.items, f p.1 p.2 = g p.1 p.2) : d.mapVals f = d.mapVals g := by
  apply Dict.ext
  exact map_congr_left fun p hp => by rw [h p hp]

theorem mapVals_id {f : String → β → β} (h : ∀ p ∈ d.items, f p.1 p.2 = p.2) : d.mapVals f = d := by
  apply Dict.ext
  exact (map_congr_left fun p hp => by rw [h p hp]; rfl).trans (map_id _)

theorem get?_eq_some (h : (k, v) ∈ d.items) : d.get? k = some v := by
  obtain ⟨items, hnd⟩ := d
  unfold get?
  induction items with
  | nil => cases h
  | cons p items ih =>
    rcases mem_cons.1 h with rfl | h
    · simp
    · grind

theorem mem_items_of_get? (h : d.get? k = some v) : (k, v) ∈ d.items := by
  obtain ⟨items, hnd⟩ := d
  unfold get? at h
  dsimp only at h ⊢
  clear hnd
  induction items with
  | nil => cases h
  | cons p items ih =>
    rw [lookup_cons] at h
    cases hk : k == p.1 with
    | true =>
      rw [hk] at h
      cases h
      rw [beq_iff_eq.1 hk]
      exact mem_cons_self
    | false =>
      rw [hk] at h
      exact mem_cons_of_mem _ (ih h)

theorem items_insert_of_notMem (v : β) (h : k ∉ d.keys) :
    (d.insert k v).items = d.items ++ [(k, v)] := by
  unfold insert
  rw [dif_neg h]

theorem mem_items_insert {p : String × β}
    (h : p ∈ (d.insert k v).items) : p ∈ d.items ∨ p = (k, v) := by
  unfold insert at h
  split at h
  · obtain ⟨q, hq, rfl⟩ := mem_map.1 h
    dsimp only
    by_cases hk : q.1 = k
    · right; rw [if_pos hk, hk]
    · left; rw [if_neg hk]; exact hq
  · grind

theorem get?_mapVals (f : String → β → γ) (d : Dict β) (k : String) :
    (d.mapVals f).get? k = (d.get? k).map (f k) := by
  unfold get?
  rw [items_mapVals]
  induction d.items with
  | nil => rfl
  | cons p items ih =>
    rw [map_cons, lookup_cons, lookup_cons]
    cases h : k == p.1 with
    | true => rw [beq_iff_eq.1 h]; rfl
    | false => exact ih

theorem get?_eq_none_iff : d.get? k = none ↔ k ∉ d.keys := by
  unfold get? keys
  constructor
  · grind
  · grind

theorem get?_insert (d : Dict β) (k key : String) (v : β) :
    (d.insert k v).get? key = if key = k then some v else d.get? key := by
  unfold insert
  by_cases hk : k ∈ d.keys
  · rw [dif_pos hk, get?_mapVals]
    by_cases hkey : key = k
    · rw [hkey]
      obtain ⟨w, hw⟩ := Option.ne_none_iff_exists'.1 (mt get?_eq_none_iff.1 (not_not.2 hk))
      rw [hw]
      simp
    · rw [if_neg hkey]
      simp [hkey]
  · rw [dif_neg hk]
    show (d.items ++ [(k, v)]).lookup key = _
    rw [lookup_append]
    by_cases hkey : key = k
    · have hnone : d.items.lookup key = none := get?_eq_none_iff.2 (hkey ▸ hk)
      rw [if_pos hkey, hnone, hkey]
      simp
    · have hnone : [(k, v)].lookup key = none := by grind
      rw [if_neg hkey, hnone, Option.or_none]
      rfl

theorem get?_modify (d : Dict β) (k key : String) (default : β) (f : β → β) :
    (d.modify k default f).get? key =
      if key = k then some (f ((d.get? k).getD default)) else d.get? key :=
  get?_insert d k key _

theorem mem_keys_iff : k ∈ d.keys ↔ ∃ v, d.get? k = some v := by
  rw [← not_iff_not, ← get?_eq_none_iff, Option.eq_none_iff_forall_ne_some, not_exists]

theorem mem_items_iff : (k, v) ∈ d.items ↔ d.get? k = some v :=
  ⟨get?_eq_some, mem_items_of_get?⟩

theorem keys_insert (d : Dict β) (k : String) (v : β) :
    (d.insert k v).keys = if k ∈ d.keys then d.keys else d.keys ++ [k] := by
  unfold insert
  by_cases hk : k ∈ d.keys
  · rw [dif_pos hk, if_pos hk, keys_mapVals]
  · rw [dif_neg hk, if_neg hk]
    show (d.items ++ [(k, v)]).map Prod.fst = _
    rw [map_append]
    rfl

theorem keys_pop (d : Dict β) (k : String) : (d.pop k).keys = d.keys.filter (· != k) := by
  show ((d.items.filter fun p => p.1 != k).map Prod.fst) = (d.items.map Prod.fst).filter (· != k)
  rw [filter_map]
  rfl

theorem get?_filterKeys (keep : String → Bool) (d : Dict β) (key : String) :
    (d.filterKeys keep).get? key = if keep key then d.get? key else none := by
  show (d.items.filter fun p => keep p.1).lookup key = _
  unfold get?
  induction d.items with
  | nil => rw [filter_nil, lookup_nil, ite_self]
  | cons p items ih =>
    by_cases hp : keep p.1 = true
    · grind
    · grind

theorem get?_pop (d : Dict β) (k key : String) :
    (d.pop k).get? key = if key = k then none else d.get? key := by
  unfold pop
  rw [get?_filterKeys]
  by_cases h : key = k
  · rw [if_pos h, if_neg (by simp [h])]
  · rw [if_neg h, if_pos (bne_iff_ne.2 h)]

theorem get?_foldl_insert (hnodup : (items.map Prod.fst).Nodup) (d : Dict β) (k : String) :
    (items.foldl (fun d p => d.insert p.1 p.2) d).get? k = (items.lookup k).or (d.get? k) := by
  induction items generalizing d with
  | nil => rfl
  | cons p items ih =>
    rw [map_cons, nodup_cons] at hnodup
    rw [foldl_cons, ih hnodup.2, lookup_cons, get?_insert]
    by_cases hp : k = p.1
    · grind
    · rw [if_neg hp, beq_eq_false_iff_ne.mpr hp]

theorem get?_ofItems (hnodup : (items.map Prod.fst).Nodup)
    (k : String) : (ofItems items).get? k = items.lookup k :=
  (get?_foldl_insert hnodup empty k).trans Option.or_none

/-- Setting items that have the same value wherever they have key `k`. -/
theorem get?_foldl_insert_of_forall (h : ∀ p ∈ items, p.1 = k → p.2 = v) (d : Dict β) :
    (items.foldl (fun d p => d.insert p.1 p.2) d).get? k =
      if k ∈ items.map Prod.fst then some v else d.get? k := by
  induction items generalizing d with
  | nil => rfl
  | cons p items ih =>
    have htail := ih (fun q hq => h q (mem_cons_of_mem p hq)) (d.insert p.1 p.2)
    rw [foldl_cons, htail, get?_insert, map_cons]
    by_cases hp : k = p.1
    · grind
    · grind

theorem items_foldl_insert (hnodup : ((d.items ++ items).map Prod.fst).Nodup) :
    (items.foldl (fun d p => d.insert p.1 p.2) d).items = d.items ++ items := by
  induction items generalizing d with
  | nil => rw [foldl_nil, append_nil]
  | cons p items ih =>
    have hnew : p.1 ∉ d.keys := by
      rw [map_append, nodup_append] at hnodup
      intro hmem
      exact hnodup.2.2 p.1 hmem p.1 mem_cons_self rfl
    have hitems : (d.insert p.1 p.2).items ++ items = d.items ++ p :: items := by
      rw [items_insert_of_notMem _ hnew, append_assoc, singleton_append]
    rw [foldl_cons, ih (by rwa [hitems]), hitems]

theorem items_ofItems (hnodup : (items.map Prod.fst).Nodup) : (ofItems items).items = items :=
  items_foldl_insert (d := empty) hnodup

theorem get?_ofItems_eq_some (hnodup : (items.map Prod.fst).Nodup)
    : (ofItems items).get? k = some v ↔ (k, v) ∈ items := by
  rw [← mem_items_iff, items_ofItems hnodup]

theorem ofItems_items (d : Dict β) : ofItems d.items = d :=
  Dict.ext (items_foldl_insert d.nodup)

theorem mem_items_foldl_insert {c : String × β}
    (h : c ∈ (items.foldl (fun d p => d.insert p.1 p.2) d).items) : c ∈ d.items ∨ c ∈ items := by
  induction items generalizing d with
  | nil => exact Or.inl h
  | cons p items ih =>
    rcases ih h with h | h
    · exact (mem_items_insert h).imp_right fun heq => mem_cons.2 (Or.inl heq)
    · exact Or.inr (mem_cons_of_mem _ h)

theorem isSome_get?_iff : (d.get? k).isSome = true ↔ k ∈ d.keys := by
  rw [Option.isSome_iff_ne_none, ne_eq, get?_eq_none_iff, not_not]

end Dict

/-- `list_of_dict_to_dict_of_list`: the keys are those of the first dictionary, and no other
dictionary may have one more. -/
def listOfDictToDictOfList {β : Type} (listOfDict : List (Dict β)) :
    Except PyErr (Dict (List β)) :=
  match listOfDict with
  | [] => .ok Dict.empty
  | first :: _ =>
    match (listOfDict.flatMap Dict.keys).find? fun key => !first.keys.contains key with
    | some key => .error (.assertionError
        s!"Key '{key}' is not present in the keys of the first dictionary in the list.")
    | none => .ok (first.mapVals fun key _ => listOfDict.filterMap (·.get? key))

/-- It returns when no dictionary has a key the first one lacks. -/
theorem listOfDictToDictOfList_eq_ok {β : Type} (first : Dict β) (rest : List (Dict β))
    (h : ∀ d ∈ rest, ∀ key ∈ d.keys, key ∈ first.keys) :
    listOfDictToDictOfList (first :: rest)
      = .ok (first.mapVals fun key _ => (first :: rest).filterMap (·.get? key)) := by
  unfold listOfDictToDictOfList
  have hnone : ((first :: rest).flatMap Dict.keys).find? (fun key => !first.keys.contains key)
      = none := by grind
  dsimp only
  rw [hnone]

/-! ## Values -/

/-- A plain value; `obj` is any other object, equal to itself only.  A NaN is an object too: no NaN
is equal to another, but a container compares its elements by identity first. -/
inductive PyVal where
  | none
  | bool (b : Bool)
  | int (i : Int)
  | float (q : ℚ)
  | nan (id : Nat)
  | str (s : String)
  | list (xs : List PyVal)
  | dict (items : List (String × PyVal))
  | obj (id : Nat)

namespace PyVal

/-- The number a value compares as. -/
def num? : PyVal → Option ℚ
  | bool b => some (if b then 1 else 0)
  | int i => some i
  | float q => some q
  | _ => Option.none

/-- `is`, for the one value that is not equal to itself. -/
def sameNan : PyVal → PyVal → Bool
  | nan i, nan j => i == j
  | _, _ => false

mutual

/-- `==`. -/
def pyEq : PyVal → PyVal → Bool
  | none, none => true
  | str s, str t => s == t
  | obj i, obj j => i == j
  | list xs, list ys => pyEqList xs ys
  | dict xs, dict ys => xs.length == ys.length && pyEqItems xs ys
  | a, b =>
    match num? a, num? b with
    | some x, some y => decide (x = y)
    | _, _ => false

def pyEqList : List PyVal → List PyVal → Bool
  | [], [] => true
  | x :: xs, y :: ys => (sameNan x y || pyEq x y) && pyEqList xs ys
  | _, _ => false

def pyEqItems : List (String × PyVal) → List (String × PyVal) → Bool
  | [], _ => true
  | (k, v) :: xs, ys =>
    (match ys.lookup k with
      | some w => sameNan v w || pyEq v w
      | Option.none => false) && pyEqItems xs ys

end

/-- The keys of a dictionary, none of any other value. -/
def keys : PyVal → List String
  | dict items => (Dict.ofItems items).keys
  | _ => []

/-- `bool(v)`. -/
def truthy : PyVal → Bool
  | none => false
  | bool b => b
  | int i => i != 0
  | float q => q != 0
  | str s => s != ""
  | list xs => !xs.isEmpty
  | dict xs => !xs.isEmpty
  | nan _ => true
  | obj _ => true

end PyVal

end Verl
