import Verl.Lib.PyStr
import Verl.Qat.AmaxCache

/-! # Fused global scales (`verl/utils/qat/quantizer.py`)

The exporter gives the projections that the rollout engine fuses one global scale, the least of
theirs.  It does so where all of them are there.

    q_proj k_proj v_proj        one scale for all three
    q_proj k_proj               the scale of each

* `fusedWith`: the layers that a layer shares its scale with.
* `get?_fuseGlobalScales`: the scale of a layer is the least one over these.
* `smallest_gparam`: for scales of the form `c / amax`, this is the one of the largest amax. -/

namespace Verl.Qat

open List Dict

/-! ## Algorithm -/

/-- `name.rsplit(".", 1) if "." in name else ("", name)`. -/
def parentChild (name : String) : String × String :=
  match splitLast '.' name.toList with
  | some (parent, child) => (String.ofList parent, String.ofList child)
  | none => ("", name)

def fusePatterns : List (String × List String) :=
  [("qkv", ["q_proj", "k_proj", "v_proj"]), ("gate_up", ["gate_proj", "up_proj"])]

/-- `parent_to_children.setdefault(parent, {})[child] = name`. -/
def addChild (parents : Dict (Dict String)) (name : String) : Dict (Dict String) :=
  parents.modify (parentChild name).1 Dict.empty fun children =>
    children.insert (parentChild name).2 name

def parentToChildren (names : List String) : Dict (Dict String) := names.foldl addChild Dict.empty

/-- `matched` of every parent and every pattern, where nothing is missing. -/
def matchedGroups (names : List String) : List (List String) :=
  (parentToChildren names).items.flatMap fun g => fusePatterns.filterMap fun pattern =>
    let matched := pattern.2.filterMap g.2.get?
    if matched.length = pattern.2.length then some matched else none

/-- `torch.min`. -/
def smallest : List ℚ → ℚ
  | [] => 0
  | x :: xs => xs.foldl min x

/-- `fuse_global_scales` with the strategy `"min"`. -/
def fuseGlobalScales (layerGlobalScales : Dict ℚ) : Dict ℚ :=
  let groups := matchedGroups layerGlobalScales.keys
  let fusedScales := groups.foldl (fun fused matched =>
    let fusedScale := smallest (matched.map fun name => (layerGlobalScales.get? name).getD 0)
    matched.foldl (fun fused name => fused.insert name fusedScale) fused) Dict.empty
  layerGlobalScales.items.foldl (fun fused p =>
    if p.1 ∉ groups.flatten then fused.insert p.1 p.2 else fused) fusedScales

/-! ## Groups -/

/-- The layers that share the scale of a layer. -/
def fusedWith (names : List String) (name : String) : List String :=
  ((matchedGroups names).find? (name ∈ ·)).getD [name]

/-- Every name is filed under its parent and its last part. -/
def Filed (names : List String) (parents : Dict (Dict String)) : Prop :=
  ∀ parent children, parents.get? parent = some children →
    ∀ child name, children.get? child = some name →
      name ∈ names ∧ parentChild name = (parent, child)

variable {name : String} {group names : List String}

theorem Filed.addChild {parents : Dict (Dict String)} (h : Filed names parents)
    (hname : name ∈ names) : Filed names (addChild parents name) := by
  intro parent children hchildren child name' hname'
  rw [Qat.addChild, get?_modify] at hchildren
  split at hchildren
  case isFalse => exact h parent children hchildren child name' hname'
  case isTrue hparent =>
    cases hchildren
    rw [get?_insert] at hname'
    split at hname'
    case isTrue hchild =>
      cases hname'
      exact ⟨hname, by rw [hparent, hchild]⟩
    case isFalse =>
      rw [← hparent] at hname'
      cases hget : parents.get? parent with
      | none =>
        rw [hget] at hname'
        cases hname'
      | some children =>
        rw [hget] at hname'
        exact h parent children hget child name' hname'

theorem filed_parentToChildren (names : List String) : Filed names (parentToChildren names) := by
  refine List.foldlRecOn (motive := Filed names) _ _ ?_ fun parents h name hname => h.addChild hname
  intro parent children hchildren
  cases hchildren

theorem exists_of_mem_matchedGroups (h : group ∈ matchedGroups names) :
    ∃ parent children pattern, (parentToChildren names).get? parent = some children ∧
      pattern ∈ fusePatterns ∧ group = pattern.2.filterMap children.get? ∧
        group.length = pattern.2.length := by
  obtain ⟨g, hg, h⟩ := mem_flatMap.1 h
  obtain ⟨pattern, hpattern, h⟩ := mem_filterMap.1 h
  dsimp only at h
  split at h
  case isFalse => cases h
  case isTrue hlen =>
    cases h
    exact ⟨g.1, g.2, pattern, get?_eq_some hg, hpattern, rfl, hlen⟩

theorem mem_of_mem_matchedGroups (h : group ∈ matchedGroups names)
    (hname : name ∈ group) : name ∈ names := by
  obtain ⟨parent, children, pattern, hparent, -, rfl, -⟩ := exists_of_mem_matchedGroups h
  obtain ⟨child, -, hchild⟩ := mem_filterMap.1 hname
  exact (filed_parentToChildren names parent children hparent child name hchild).1

theorem matchedGroups_unique {group' : List String} (h : group ∈ matchedGroups names)
    (h' : group' ∈ matchedGroups names) (hname : name ∈ group)
    (hname' : name ∈ group') : group = group' := by
  obtain ⟨parent, children, pattern, hparent, hpattern, rfl, -⟩ := exists_of_mem_matchedGroups h
  obtain ⟨parent', children', pattern', hparent', hpattern', rfl, -⟩ :=
    exists_of_mem_matchedGroups h'
  obtain ⟨child, hin, hchild⟩ := mem_filterMap.1 hname
  obtain ⟨child', hin', hchild'⟩ := mem_filterMap.1 hname'
  have hfiled := (filed_parentToChildren names parent children hparent child name hchild).2
  have hfiled' := (filed_parentToChildren names parent' children' hparent' child' name hchild').2
  rw [hfiled] at hfiled'
  obtain ⟨rfl, rfl⟩ := hfiled'
  rw [hparent] at hparent'
  cases hparent'
  have hpatterns : ∀ p ∈ fusePatterns, ∀ q ∈ fusePatterns, ∀ c ∈ p.2, c ∈ q.2 → p = q := by decide
  rw [hpatterns pattern hpattern pattern' hpattern' child hin hin']

theorem fusedWith_of_mem (h : group ∈ matchedGroups names)
    (hname : name ∈ group) : fusedWith names name = group := by
  unfold fusedWith
  cases hfind : (matchedGroups names).find? (name ∈ ·) with
  | none => exact absurd (decide_eq_true hname) (find?_eq_none.1 hfind group h)
  | some group' =>
    have hname' : name ∈ group' := by simpa using find?_some hfind
    exact matchedGroups_unique (mem_of_find?_eq_some hfind) h hname' hname

theorem fusedWith_of_notMem
    (h : name ∉ (matchedGroups names).flatten) : fusedWith names name = [name] := by
  unfold fusedWith
  have hnone : (matchedGroups names).find? (name ∈ ·) = none := by
    rw [find?_eq_none]
    intro group hgroup hin
    exact h (mem_flatten.2 ⟨group, hgroup, of_decide_eq_true hin⟩)
  rw [hnone]
  rfl

theorem mem_fusedWith_self (names : List String) (name : String) : name ∈ fusedWith names name := by
  by_cases h : name ∈ (matchedGroups names).flatten
  · obtain ⟨group, hgroup, hname⟩ := mem_flatten.1 h
    rw [fusedWith_of_mem hgroup hname]
    exact hname
  · rw [fusedWith_of_notMem h]
    exact mem_singleton.2 rfl

theorem mem_of_mem_fusedWith {name' : String} (hname : name ∈ names)
    (h : name' ∈ fusedWith names name) : name' ∈ names := by
  by_cases hin : name ∈ (matchedGroups names).flatten
  · obtain ⟨group, hgroup, hself⟩ := mem_flatten.1 hin
    rw [fusedWith_of_mem hgroup hself] at h
    exact mem_of_mem_matchedGroups hgroup h
  · rw [fusedWith_of_notMem hin, mem_singleton] at h
    rw [h]
    exact hname

/-! ## Scales -/

variable {scales : Dict ℚ}

/-- What the loop over the groups sets. -/
def groupItems (value : List String → ℚ) (groups : List (List String)) : List (String × ℚ) :=
  groups.flatMap fun matched => matched.map fun name => (name, value matched)

theorem map_fst_groupItems (value : List String → ℚ) (groups : List (List String)) :
    (groupItems value groups).map Prod.fst = groups.flatten := by
  unfold groupItems
  induction groups with
  | nil => rfl
  | cons matched groups ih =>
    rw [flatMap_cons, map_append, ih, map_map]
    exact congrArg (· ++ groups.flatten) (map_id matched)

theorem get?_fuseGlobalScales (h : name ∈ scales.keys) : (fuseGlobalScales scales).get? name =
      some (smallest ((fusedWith scales.keys name).map fun n => (scales.get? n).getD 0)) := by
  let value := fun matched : List String =>
    smallest (matched.map fun n => (scales.get? n).getD 0)
  let groups := matchedGroups scales.keys
  have hvalue : ∀ p ∈ groupItems value groups, p.1 = name →
      p.2 = value (fusedWith scales.keys name) := by
    intro p hp hname
    obtain ⟨matched, hmatched, hp⟩ := mem_flatMap.1 hp
    obtain ⟨n, hn, rfl⟩ := mem_map.1 hp
    cases hname
    rw [fusedWith_of_mem hmatched hn]
  have hrest : ∀ p ∈ scales.items.filter (·.1 ∉ groups.flatten), p.1 = name →
      p.2 = value (fusedWith scales.keys name) := by
    intro p hp hname
    obtain ⟨hp, hout⟩ := mem_filter.1 hp
    cases hname
    have hget : scales.get? p.1 = some p.2 := get?_eq_some hp
    rw [fusedWith_of_notMem (of_decide_eq_true hout)]
    show p.2 = (scales.get? p.1).getD 0
    rw [hget]
    rfl
  have hloops : fuseGlobalScales scales =
      (scales.items.filter (·.1 ∉ groups.flatten)).foldl (fun d p => d.insert p.1 p.2)
        ((groupItems value groups).foldl (fun d p => d.insert p.1 p.2) Dict.empty) := by
    unfold groupItems
    rw [foldl_filter, foldl_flatMap]
    simp only [foldl_map, decide_eq_true_eq]
    rfl
  rw [hloops, get?_foldl_insert_of_forall hrest, get?_foldl_insert_of_forall hvalue,
    map_fst_groupItems]
  by_cases hin : name ∈ groups.flatten
  · rw [if_pos hin, ite_self]
  · have hmem : name ∈ (scales.items.filter (·.1 ∉ groups.flatten)).map Prod.fst := by
      obtain ⟨p, hp, rfl⟩ := mem_map.1 h
      exact mem_map_of_mem (mem_filter.2 ⟨hp, decide_eq_true hin⟩)
    rw [if_pos hmem]

theorem min_div_of_pos {c a b : ℚ} (hc : 0 ≤ c) (ha : 0 < a) (hb : 0 < b) :
    min (c / a) (c / b) = c / max a b := by
  rcases le_total a b with h | h
  · rw [max_eq_right h, min_eq_right (div_le_div_of_nonneg_left hc ha h)]
  · rw [max_eq_left h, min_eq_left (div_le_div_of_nonneg_left hc hb h)]

theorem smallest_gparam {c : ℚ} (hc : 0 ≤ c) {amaxes : List ℚ} (hne : amaxes ≠ [])
    (hpos : ∀ a ∈ amaxes, 0 < a) : smallest (amaxes.map fun a => c / a) = c / largest amaxes := by
  cases amaxes with
  | nil => exact absurd rfl hne
  | cons a amaxes =>
    show (amaxes.map fun a => c / a).foldl min (c / a) = c / max a (largest amaxes)
    induction amaxes generalizing a with
    | nil =>
      have ha := hpos a mem_cons_self
      show c / a = c / max a 0
      rw [max_eq_left ha.le]
    | cons b amaxes ih =>
      have ha := hpos a mem_cons_self
      have hb := hpos b (mem_cons_of_mem a mem_cons_self)
      have hmax : ∀ x ∈ max a b :: amaxes, 0 < x := by
        intro x hx
        rcases mem_cons.1 hx with rfl | hx
        · exact lt_max_of_lt_left ha
        · exact hpos x (mem_cons_of_mem a (mem_cons_of_mem b hx))
      rw [map_cons, foldl_cons, min_div_of_pos hc ha hb,
        ih (max a b) (cons_ne_nil _ _) hmax, max_assoc]
      rfl

end Verl.Qat
