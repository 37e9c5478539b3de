import Verl.Lib.Dict
import Verl.Lib.Grouping

/-! # Fusion siblings (`verl/utils/qat/core.py`)

The projections of one parent that the rollout engine fuses share the scale of their weights.
`setup_fusion_siblings` looks at the names:

    model.layers.0.self_attn.q_proj      its siblings are  k_proj, v_proj
    model.layers.0.mlp.gate_proj         its sibling is    up_proj

* `exists_fusionGroup`: the siblings of a module are the others of its group. -/

namespace Verl.Qat

open List Dict

/-! ## Algorithm -/

/-- The `QATLinear` modules under their names. -/
structure Modules (n : Nat) where
  name : Fin n → String
  injective : Function.Injective name

/-- `name.endswith(suffix)`. -/
def endsWith (name suffix : String) : Bool := suffix.toList.isSuffixOf name.toList

/-- `name.rsplit(".", 1)[0]`. -/
def parentOf (name : String) : String :=
  match name.toList.reverse.dropWhile (· ≠ '.') with
  | [] => name
  | _ :: parent => String.ofList parent.reverse

def fusionPatterns : List (String × List String) :=
  [("qkv", ["q_proj", "k_proj", "v_proj"]), ("gate_up", ["gate_proj", "up_proj"])]

variable {n : Nat}

/-- `groups.setdefault(parent, {})[suffix] = module`, where the name has the suffix. -/
def addProj (m : Modules n) (groups : Dict (Dict (Fin n))) (p : Fin n × String) :
    Dict (Dict (Fin n)) :=
  if endsWith (m.name p.1) p.2 then
    groups.modify (parentOf (m.name p.1)) Dict.empty fun projs => projs.insert p.2 p.1
  else groups

/-- The groups of a pattern, by their parents. -/
def groupsOf (m : Modules n) (suffixes : List String) : Dict (Dict (Fin n)) :=
  ((List.finRange n).flatMap fun i => suffixes.map fun suffix => (i, suffix)).foldl (addProj m)
    Dict.empty

/-- `modules[:i] + modules[i + 1:]` for every module of a group of two or more. -/
def setSiblings (refs : Fin n → Option (List (Fin n))) (modules : List (Fin n)) :
    Fin n → Option (List (Fin n)) :=
  if 2 ≤ modules.length then
    modules.zipIdx.foldl (fun refs p =>
      Function.update refs p.1 (some (modules.take p.2 ++ modules.drop (p.2 + 1)))) refs
  else refs

/-- The values of a dictionary. -/
def projsOf (projs : Dict (Fin n)) : List (Fin n) := projs.items.map Prod.snd

/-- `_fusion_siblings_ref` of every module. -/
def setupFusionSiblings (m : Modules n) : Fin n → Option (List (Fin n)) :=
  fusionPatterns.foldl (fun refs pattern =>
    (groupsOf m pattern.2).items.foldl (fun refs g => setSiblings refs (projsOf g.2)) refs)
    fun _ => none

/-! ## Names -/

theorem suffix_unique {name s s' : String} (hs : s ∈ fusionPatterns.flatMap Prod.snd)
    (hs' : s' ∈ fusionPatterns.flatMap Prod.snd) (h : endsWith name s = true)
    (h' : endsWith name s' = true) : s = s' := by
  have hall : ∀ s ∈ fusionPatterns.flatMap Prod.snd, ∀ s' ∈ fusionPatterns.flatMap Prod.snd,
      s.toList <:+ s'.toList ∨ s'.toList <:+ s.toList → s = s' := by
    decide
  exact hall s hs s' hs' (suffix_or_suffix_of_suffix (isSuffixOf_iff_suffix.1 h)
    (isSuffixOf_iff_suffix.1 h'))

/-- What is known of a module that stands in a group under a suffix. -/
structure Fits (m : Modules n) (suffixes : List String) (parent suffix : String) (i : Fin n) :
    Prop where
  mem : suffix ∈ suffixes
  endsWith : endsWith (m.name i) suffix = true
  parentOf : parentOf (m.name i) = parent

def AllFit (m : Modules n) (suffixes : List String) (groups : Dict (Dict (Fin n))) : Prop :=
  ∀ parent projs, groups.get? parent = some projs →
    ∀ suffix i, projs.get? suffix = some i → Fits m suffixes parent suffix i

theorem AllFit.addProj {m : Modules n} {suffixes : List String} {groups : Dict (Dict (Fin n))}
    (h : AllFit m suffixes groups) {p : Fin n × String} (hp : p.2 ∈ suffixes) :
    AllFit m suffixes (addProj m groups p) := by
  unfold Qat.addProj
  split
  case isFalse => exact h
  case isTrue hends =>
    intro parent projs hprojs suffix i hi
    rw [get?_modify] at hprojs
    split at hprojs
    case isFalse => exact h parent projs hprojs suffix i hi
    case isTrue hparent =>
      cases hprojs
      rw [get?_insert] at hi
      split at hi
      case isTrue hsuffix =>
        cases hi
        rw [hsuffix]
        exact ⟨hp, hends, hparent.symm⟩
      case isFalse =>
        rw [← hparent] at hi
        cases hget : groups.get? parent with
        | none =>
          rw [hget] at hi
          cases hi
        | some projs =>
          rw [hget] at hi
          exact h parent projs hget suffix i hi

variable (m : Modules n) {lists : List (List (Fin n))}

theorem allFit_groupsOf (suffixes : List String) :
    AllFit m suffixes (groupsOf m suffixes) := by
  refine List.foldlRecOn (motive := AllFit m suffixes) _ _ ?_ fun groups h p hp => ?_
  · intro parent projs hprojs
    cases hprojs
  · refine h.addProj ?_
    obtain ⟨i, -, hp⟩ := mem_flatMap.1 hp
    obtain ⟨suffix, hsuffix, rfl⟩ := mem_map.1 hp
    exact hsuffix

/-! ## Groups -/

/-- The groups of all patterns. -/
def fusionLists (m : Modules n) : List (List (Fin n)) :=
  fusionPatterns.flatMap fun pattern =>
    (groupsOf m pattern.2).items.map fun g => projsOf g.2

theorem setupFusionSiblings_eq :
    setupFusionSiblings m = (fusionLists m).foldl setSiblings fun _ => none := by
  unfold setupFusionSiblings fusionLists
  rw [foldl_flatMap]
  simp only [foldl_map]

theorem mem_projsOf {projs : Dict (Fin n)} {i : Fin n} :
    i ∈ projsOf projs ↔ ∃ suffix, projs.get? suffix = some i := by
  unfold projsOf
  rw [mem_map]
  constructor
  · rintro ⟨p, hp, rfl⟩
    exact ⟨p.1, get?_eq_some hp⟩
  · rintro ⟨suffix, h⟩
    exact ⟨(suffix, i), mem_items_of_get? h, rfl⟩

theorem exists_fits {m : Modules n} {suffixes : List String} {g : String × Dict (Fin n)}
    (hg : g ∈ (groupsOf m suffixes).items) {i : Fin n} (hi : i ∈ projsOf g.2) :
    ∃ suffix, g.2.get? suffix = some i ∧ Fits m suffixes g.1 suffix i := by
  obtain ⟨suffix, hsuffix⟩ := mem_projsOf.1 hi
  exact ⟨suffix, hsuffix, allFit_groupsOf m suffixes g.1 g.2 (get?_eq_some hg) suffix i hsuffix⟩

theorem nodup_fusionLists : ∀ modules ∈ fusionLists m, modules.Nodup := by
  intro modules hmodules
  obtain ⟨pattern, hpattern, hmodules⟩ := mem_flatMap.1 hmodules
  obtain ⟨g, hg, rfl⟩ := mem_map.1 hmodules
  have hfits : ∀ p ∈ g.2.items, Fits m pattern.2 g.1 p.1 p.2 := fun p hp =>
    allFit_groupsOf m pattern.2 g.1 g.2 (get?_eq_some hg) p.1 p.2 (get?_eq_some hp)
  have hmem : ∀ p ∈ g.2.items, p.1 ∈ fusionPatterns.flatMap Prod.snd := fun p hp =>
    mem_flatMap.2 ⟨pattern, hpattern, (hfits p hp).mem⟩
  refine Nodup.map_on (fun p hp q hq heq => ?_) g.2.nodup.of_map
  have hends := (hfits q hq).endsWith
  rw [← heq] at hends
  exact Prod.ext (suffix_unique (hmem p hp) (hmem q hq) (hfits p hp).endsWith hends) heq

theorem disjoint_fusionLists : (fusionLists m).Pairwise Disjoint := by
  refine pairwise_flatMap.2 ⟨fun pattern _ => ?_, ?_⟩
  · -- other parents
    have hkeys := pairwise_map.1 (groupsOf m pattern.2).nodup
    refine pairwise_map.2 (hkeys.imp_of_mem fun hg hg' hne i hi hi' => hne ?_)
    obtain ⟨_, -, hfits⟩ := exists_fits hg hi
    obtain ⟨_, -, hfits'⟩ := exists_fits hg' hi'
    exact hfits.parentOf.symm.trans hfits'.parentOf
  · -- other suffixes
    have hsuffixes : fusionPatterns.Pairwise fun p q => ∀ s ∈ p.2, s ∉ q.2 := by decide
    refine hsuffixes.imp_of_mem fun {p q} hp hq hpq modules hmodules modules' hmodules' i hi hi' => ?_
    obtain ⟨g, hg, rfl⟩ := mem_map.1 hmodules
    obtain ⟨g', hg', rfl⟩ := mem_map.1 hmodules'
    obtain ⟨s, -, hfits⟩ := exists_fits hg hi
    obtain ⟨s', -, hfits'⟩ := exists_fits hg' hi'
    have heq := suffix_unique (mem_flatMap.2 ⟨p, hp, hfits.mem⟩)
      (mem_flatMap.2 ⟨q, hq, hfits'.mem⟩) hfits.endsWith hfits'.endsWith
    exact hpq s hfits.mem (heq ▸ hfits'.mem)

/-! ## Siblings -/

theorem setSiblings_apply {modules : List (Fin n)} (hnodup : modules.Nodup)
    (refs : Fin n → Option (List (Fin n))) (i : Fin n) :
    setSiblings refs modules i =
      if 2 ≤ modules.length ∧ i ∈ modules then some (modules.erase i) else refs i := by
  by_cases htwo : 2 ≤ modules.length
  swap
  · unfold setSiblings
    rw [if_neg htwo, if_neg fun h => htwo h.1]
  have hothers : ∀ p ∈ modules.zipIdx,
      modules.take p.2 ++ modules.drop (p.2 + 1) = modules.erase p.1 := by
    intro p hp
    obtain ⟨hlt, hget⟩ := List.getElem?_eq_some_iff.1 (List.mk_mem_zipIdx_iff_getElem?.1 hp)
    rw [← hget, hnodup.erase_getElem, eraseIdx_eq_take_drop_succ]
  have hloop : setSiblings refs modules = modules.foldl
      (fun refs i => Function.update refs i (some (modules.erase i))) refs := by
    unfold setSiblings
    rw [if_pos htwo]
    conv => rhs; rw [← zipIdx_map_fst 0 modules, foldl_map]
    exact foldl_ext _ _ _ fun refs p hp => by rw [hothers p hp, zipIdx_map_fst]
  have hupdate := foldl_update (fun i _ => some (modules.erase i)) modules hnodup refs i
  rw [hloop, hupdate]
  exact if_congr (and_iff_right htwo).symm rfl rfl

theorem foldl_setSiblings_of_notMem (hnodup : ∀ l ∈ lists, l.Nodup)
    (refs : Fin n → Option (List (Fin n))) {i : Fin n}
    (hi : ∀ l ∈ lists, ¬(2 ≤ l.length ∧ i ∈ l)) : lists.foldl setSiblings refs i = refs i := by
  induction lists generalizing refs with
  | nil => rfl
  | cons l lists ih =>
    rw [foldl_cons, ih (fun l' hl' => hnodup l' (mem_cons_of_mem l hl')) _
      (fun l' hl' => hi l' (mem_cons_of_mem l hl')),
      setSiblings_apply (hnodup l mem_cons_self), if_neg (hi l mem_cons_self)]

theorem foldl_setSiblings_of_mem (hnodup : ∀ l ∈ lists, l.Nodup)
    (hdisjoint : lists.Pairwise Disjoint) (refs : Fin n → Option (List (Fin n)))
    {l : List (Fin n)} (hl : l ∈ lists) (htwo : 2 ≤ l.length) {i : Fin n} (hi : i ∈ l) :
    lists.foldl setSiblings refs i = some (l.erase i) := by
  induction lists generalizing refs with
  | nil => cases hl
  | cons l' lists ih =>
    rw [pairwise_cons] at hdisjoint
    have hnodup' := fun l'' hl'' => hnodup l'' (mem_cons_of_mem l' hl'')
    rw [foldl_cons]
    rcases mem_cons.1 hl with rfl | hl
    · rw [foldl_setSiblings_of_notMem hnodup' _ fun l' hl' h' => hdisjoint.1 l' hl' hi h'.2,
        setSiblings_apply (hnodup l mem_cons_self), if_pos ⟨htwo, hi⟩]
    · exact ih hnodup' hdisjoint.2 _ hl

/-- A group of modules, each of which has the others as its siblings. -/
structure FusionGroup (refs : Fin n → Option (List (Fin n))) (modules : List (Fin n)) : Prop where
  nodup : modules.Nodup
  siblings : ∀ i ∈ modules, refs i = some (modules.erase i)

theorem exists_fusionGroup {m : Modules n} {i : Fin n} {siblings : List (Fin n)}
    (h : setupFusionSiblings m i = some siblings) :
    ∃ modules, FusionGroup (setupFusionSiblings m) modules ∧ i ∈ modules ∧
      siblings = modules.erase i := by
  rw [setupFusionSiblings_eq] at h ⊢
  by_cases hgroup : ∃ l ∈ fusionLists m, 2 ≤ l.length ∧ i ∈ l
  · obtain ⟨l, hl, htwo, hi⟩ := hgroup
    have hall : ∀ j ∈ l, (fusionLists m).foldl setSiblings (fun _ => none) j = some (l.erase j) :=
      fun j hj => foldl_setSiblings_of_mem (nodup_fusionLists m) (disjoint_fusionLists m) _ hl htwo hj
    refine ⟨l, ⟨nodup_fusionLists m l hl, hall⟩, hi, ?_⟩
    rw [hall i hi] at h
    exact (Option.some.inj h).symm
  · rw [foldl_setSiblings_of_notMem (nodup_fusionLists m) _ fun l hl hi => hgroup ⟨l, hl, hi⟩] at h
    cases h

end Verl.Qat
