import Verl.Protocol.DataProto
import Verl.Utils.SeqlenBalancing

/-! # How far the partitions are apart (`karmarkar_karp`)

A merge adds the sums of two states in opposite orders, the heaviest to the lightest; so no two sets
of it are further apart than two sets of one of the states were.

    s       9   7   6      apart by at most v
    t       1   2   4      apart by at most v
    merge  10   9  10

* `KKState.Tight`: the sums of the sets differ by at most `v`; every merge keeps it. -/

namespace Verl

open List

/-! ## Property -/

/-- The largest entry less the smallest one. -/
def blockSpread (block : List Nat) : Nat := block.foldr max 0 - block.min?.getD 0

/-- The consecutive blocks of `k` of the sorted lengths. -/
def sortedBlocks (seqlenList : List Nat) (k : Nat) : List (List Nat) :=
  (List.range (seqlenList.length / k)).map fun b =>
    ((seqlenList.insertionSort (· ≤ ·)).drop (b * k)).take k

/-- The sums of any two partitions are no further apart than `bound`. -/
def SpreadLe (seqlenList : List Nat) (parts : List (List Nat)) (bound : Nat) : Prop :=
  ∀ p ∈ parts, ∀ q ∈ parts, (gatherRows seqlenList p).sum - (gatherRows seqlenList q).sum ≤ bound

/-! ## Lemmas: the sets of a state -/

namespace KKSet

theorem sum_merge {s t : KKSet} (ht : t.Consistent) : (s.merge t).sum = s.sum + t.sum := by
  have hfold : ∀ (xs : List (Nat × Nat)) (s : KKSet),
      (xs.foldl (fun s p => s.add p.1 p.2) s).sum = s.sum + (xs.map Prod.snd).sum := by
    intro xs
    induction xs with
    | nil => exact fun s => rfl
    | cons p xs ih =>
      intro s
      rw [foldl_cons, ih, map_cons, sum_cons, ← Nat.add_assoc]
      rfl
  unfold merge
  rw [hfold, ht]

theorem sum_le_of_key_le {s t : KKSet} (h : s.key ≤ t.key) : s.sum ≤ t.sum := by
  rcases Prod.Lex.le_iff.1 h with hlt | ⟨heq, -⟩
  · exact Nat.le_of_lt hlt
  · exact Nat.le_of_eq heq

end KKSet

namespace KKState

variable {k v : Nat}

/-- The sums of the sets differ by at most `v`. -/
structure Tight (v : Nat) (s : KKState k) : Prop where
  spread : s.Spread
  close : ∀ a ∈ s.sets, ∀ b ∈ s.sets, a.sum ≤ b.sum + v

variable {s : KKState k} {xs : List (Nat × Nat)}

theorem Spread.sum_le (h : s.Spread) {i j : Nat} (hi : i < s.sets.length)
    (hj : j < s.sets.length) (hij : i ≤ j) : s.sets[j].sum ≤ s.sets[i].sum := by
  rcases Nat.eq_or_lt_of_le hij with rfl | hlt
  · exact Nat.le_refl _
  · exact KKSet.sum_le_of_key_le (pairwise_iff_getElem.1 h.decreasing i j hi hj hlt)

/-- The largest sets of one state meet the smallest of the other. -/
theorem Tight.merge {s t : KKState k} (hs : s.Tight v) (ht : t.Tight v) : (s.merge t).Tight v where
  spread := hs.spread.merge ht.spread
  close := by
    have hsum : ∀ a ∈ (s.merge t).sets, ∃ (i : Nat) (hi : i < s.sets.length)
        (hi' : k - 1 - i < t.sets.length), a.sum = s.sets[i].sum + t.sets[k - 1 - i].sum := by
      intro a ha
      obtain ⟨i, hi, rfl⟩ := getElem_of_mem ((merge_sets_perm s t).mem_iff.1 ha)
      have hsize' := t.size
      rw [length_zipWith, length_reverse] at hi
      refine ⟨i, by omega, by omega, ?_⟩
      rw [getElem_zipWith, getElem_reverse, KKSet.sum_merge
        (ht.spread.consistent _ (getElem_mem _))]
      simp only [hsize']
    intro a ha b hb
    obtain ⟨i, hi, hi', ha⟩ := hsum a ha
    obtain ⟨j, hj, hj', hb⟩ := hsum b hb
    have hfirst := hs.close _ (getElem_mem hi) _ (getElem_mem hj)
    have hsecond := ht.close _ (getElem_mem hi') _ (getElem_mem hj')
    rcases Nat.le_total i j with hij | hji
    · have hless := ht.spread.sum_le hj' hi' (show k - 1 - j ≤ k - 1 - i by omega)
      omega
    · have hless := hs.spread.sum_le hj hi hji
      omega

theorem sum_of_mem_initSets {t : KKSet} (h : t ∈ initSets xs k) :
    (∃ p ∈ xs, t.sum = p.2) ∨ xs.length < k ∧ t.sum = 0 := by
  rcases mem_append.1 h with h | h
  · obtain ⟨p, hp, rfl⟩ := mem_map.1 h
    exact .inl ⟨p, hp, Nat.zero_add _⟩
  · obtain ⟨hne, rfl⟩ := mem_replicate.1 h
    exact .inr ⟨by omega, rfl⟩

theorem init_tight (hlen : xs.length ≤ k)
    (hclose : ∀ p ∈ xs, ∀ q ∈ xs, p.2 ≤ q.2 + v) (hempty : xs.length < k → ∀ p ∈ xs, p.2 ≤ v)
    (h : s.sets = pySortedReverse KKSet.lt (initSets xs k)) : s.Tight v where
  spread := init_spread hlen h
  close := by
    intro a ha b hb
    rw [h, mem_pySortedReverse] at ha hb
    rcases sum_of_mem_initSets ha with ⟨p, hp, ha⟩ | ⟨-, ha⟩
    · rcases sum_of_mem_initSets hb with ⟨q, hq, hb⟩ | ⟨hlt, hb⟩
      · grind
      · grind
    · omega

end KKState

/-! ## Lemmas: the items -/

variable {k v : Nat} {seqlenList : List Nat}

theorem mem_sortedSeqlenList {p : Nat × Nat}
    (h : p ∈ sortedSeqlenList seqlenList) : seqlenList[p.1]? = some p.2 := by
  unfold sortedSeqlenList at h
  rw [mem_pySorted] at h
  obtain ⟨i, hi, rfl⟩ := getElem_of_mem h
  rw [length_zip] at hi
  rw [getElem_zip, getElem_range]
  exact getElem?_eq_getElem (by omega)

theorem gatherRows_items {items : List (Nat × Nat)} (h : ∀ p ∈ items, seqlenList[p.1]? = some p.2) :
    gatherRows seqlenList (items.map Prod.fst) = items.map Prod.snd := by
  unfold gatherRows
  rw [filterMap_map]
  induction items with
  | nil => rfl
  | cons p items ih =>
    rw [forall_mem_cons] at h
    have hp : ((fun i => seqlenList[i]?) ∘ Prod.fst) p = some p.2 := h.1
    rw [filterMap_cons_some hp, ih h.2, map_cons]

theorem map_snd_sortedSeqlenList (seqlenList : List Nat) :
    (sortedSeqlenList seqlenList).map Prod.snd = seqlenList.insertionSort (· ≤ ·) := by
  have hperm : ((sortedSeqlenList seqlenList).map Prod.snd).Perm seqlenList := by
    refine ((pySorted_perm _ _).map Prod.snd).trans ?_
    rw [map_snd_zip (by simp)]
  have hsorted := pySorted_pairwise
    (fun p q : Nat × Nat => decide (toLex (p.2, p.1) < toLex (q.2, q.1)))
    (fun p => toLex (p.2, p.1)) (fun _ _ => decide_eq_true_iff)
    ((range seqlenList.length).zip seqlenList)
  refine Perm.eq_of_pairwise (fun a b _ _ => Nat.le_antisymm) ?_
    (pairwise_insertionSort (· ≤ ·) seqlenList)
    (hperm.trans (perm_insertionSort _ _).symm)
  refine pairwise_map.2 (hsorted.imp fun {p q} h => ?_)
  rcases Prod.Lex.le_iff.1 h with hlt | ⟨heq, -⟩
  · exact Nat.le_of_lt hlt
  · exact Nat.le_of_eq heq

theorem map_snd_offsetBlocks (seqlenList : List Nat) (k : Nat) :
    (offsetBlocks (sortedSeqlenList seqlenList) k).map (List.map Prod.snd) =
      sortedBlocks seqlenList k := by
  unfold offsetBlocks sortedBlocks
  rw [map_map, length_sortedSeqlenList, ← map_snd_sortedSeqlenList]
  refine map_congr_left fun b _ => ?_
  show List.map Prod.snd _ = _
  rw [map_take, map_drop]

theorem le_foldr_max {xs : List Nat} {x : Nat} (h : x ∈ xs) : x ≤ xs.foldr max 0 := by
  induction xs with
  | nil => cases h
  | cons y xs ih =>
    rcases mem_cons.1 h with rfl | h
    · exact Nat.le_max_left _ _
    · exact Nat.le_trans (ih h) (Nat.le_max_right _ _)

theorem le_add_blockSpread {block : List Nat} {x y : Nat} (hx : x ∈ block) (hy : y ∈ block) :
    x ≤ y + blockSpread block := by
  have hlarge := le_foldr_max hx
  have hsmall : block.min?.getD 0 ≤ y := by
    cases hmin : block.min? with
    | none => exact Nat.zero_le y
    | some m => exact (min?_eq_some_iff.1 hmin).2 y hy
  unfold blockSpread
  omega

/-! ## Lemmas: the partitions -/

theorem KKState.Tight.sum_le {s : KKState k}
    (hs : s.Tight v) (hitems : s.items.Perm (sortedSeqlenList seqlenList)) :
    ∀ p ∈ s.getPartitions, ∀ q ∈ s.getPartitions,
      (gatherRows seqlenList p).sum ≤ (gatherRows seqlenList q).sum + v := by
  have hsum : ∀ p ∈ s.getPartitions, ∃ t ∈ s.sets, (gatherRows seqlenList p).sum = t.sum := by
    intro p hp
    obtain ⟨t, ht, rfl⟩ := mem_map.1 hp
    refine ⟨t, ht, ?_⟩
    rw [gatherRows_items fun q hq => mem_sortedSeqlenList
      (hitems.mem_iff.1 (mem_flatMap.2 ⟨t, ht, hq⟩)), hs.spread.consistent t ht]
  intro p hp q hq
  obtain ⟨t, ht, hpt⟩ := hsum p hp
  obtain ⟨u, hu, hqu⟩ := hsum q hq
  rw [hpt, hqu]
  exact hs.close t ht u hu

theorem exists_tight (hk : 1 ≤ k) (hkn : k ≤ seqlenList.length) (hv : ∀ x ∈ seqlenList, x ≤ v) :
    ∃ parts, karmarkarKarp seqlenList k false = .ok parts ∧ ∀ p ∈ parts, ∀ q ∈ parts,
      (gatherRows seqlenList p).sum ≤ (gatherRows seqlenList q).sum + v := by
  have hmem : ∀ p ∈ sortedSeqlenList seqlenList, p.2 ≤ v := fun p hp =>
    hv _ (mem_of_getElem? (mem_sortedSeqlenList hp))
  obtain ⟨s, hok, htight, hitems⟩ := exists_finalState (KKState.Tight v)
    (fun _ _ => KKState.Tight.merge) hk hkn (fun p hp s hsets =>
      KKState.init_tight (show [p].length ≤ k from hk) (fun q hq q' hq' => by
        rw [mem_singleton.1 hq, mem_singleton.1 hq']
        exact Nat.le_add_right _ _)
        (fun _ q hq => mem_singleton.1 hq ▸ hmem p hp) hsets)
  exact ⟨s.getPartitions, hok, htight.sum_le hitems⟩

theorem exists_tight_equalSize (hk : 1 ≤ k)
    (hkn : k ≤ seqlenList.length) (hdvd : k ∣ seqlenList.length)
    (hv : ∀ block ∈ sortedBlocks seqlenList k, blockSpread block ≤ v) :
    ∃ parts, karmarkarKarp seqlenList k true = .ok parts ∧ ∀ p ∈ parts, ∀ q ∈ parts,
      (gatherRows seqlenList p).sum ≤ (gatherRows seqlenList q).sum + v := by
  have hclose : ∀ b ∈ offsetBlocks (sortedSeqlenList seqlenList) k, ∀ p ∈ b, ∀ q ∈ b,
      p.2 ≤ q.2 + v := by
    intro b hb p hp q hq
    have hblock : b.map Prod.snd ∈ sortedBlocks seqlenList k := by
      rw [← map_snd_offsetBlocks]
      exact mem_map_of_mem hb
    have hspread := le_add_blockSpread (mem_map_of_mem (f := Prod.snd) hp)
      (mem_map_of_mem (f := Prod.snd) hq)
    have hbound := hv _ hblock
    omega
  obtain ⟨s, hok, htight, -, hitems⟩ := exists_finalState_equalSize (KKState.Tight v)
    (fun _ _ => KKState.Tight.merge) hk hkn hdvd (fun b hb s hsets =>
      have hlen := length_of_mem_offsetBlocks hb
      KKState.init_tight hlen.le (hclose b hb) (fun hlt => absurd hlt (hlen ▸ lt_irrefl _)) hsets)
  exact ⟨s.getPartitions, hok, htight.sum_le hitems⟩

/-- The partitions of the differencing method differ by at most one item. -/
theorem karmarkarKarp_balanced {parts : List (List Nat)} (hk : 1 ≤ k) (hkn : k ≤ seqlenList.length)
    (hv : ∀ x ∈ seqlenList, x ≤ v) (h : karmarkarKarp seqlenList k false = .ok parts) :
    ∀ p ∈ parts, ∀ q ∈ parts,
      (gatherRows seqlenList p).sum ≤ (gatherRows seqlenList q).sum + v := by
  obtain ⟨parts', hok, htight⟩ := exists_tight hk hkn hv
  rw [h] at hok
  cases hok
  exact htight

/-- The largest partition is heavier than the smallest by at most the longest length, and with
`equal_size` by at most the spread of one block of the sorted lengths. -/
theorem karmarkarKarp_spread (seqlenList : List Nat) (k : Nat) (hk : 2 ≤ k)
    (hkn : k ≤ seqlenList.length) :
    (∃ parts, karmarkarKarp seqlenList k false = .ok parts ∧
      SpreadLe seqlenList parts (seqlenList.foldr max 0)) ∧
    (k ∣ seqlenList.length → ∃ parts, karmarkarKarp seqlenList k true = .ok parts ∧
      SpreadLe seqlenList parts (((sortedBlocks seqlenList k).map blockSpread).foldr max 0)) := by
  constructor
  · obtain ⟨parts, hok, htight⟩ := exists_tight (by omega) hkn fun x hx => le_foldr_max hx
    exact ⟨parts, hok, fun p hp q hq => Nat.sub_le_iff_le_add'.2 (htight p hp q hq)⟩
  · intro hdvd
    obtain ⟨parts, hok, htight⟩ := exists_tight_equalSize (by omega) hkn hdvd
      fun block hblock => le_foldr_max (mem_map_of_mem hblock)
    exact ⟨parts, hok, fun p hp q hq => Nat.sub_le_iff_le_add'.2 (htight p hp q hq)⟩

theorem karmarkarKarp_spread_four :
    (∃ parts, karmarkarKarp [8, 7, 6, 1] 2 false = .ok parts ∧ SpreadLe [8, 7, 6, 1] parts 8) ∧
      ∃ parts, karmarkarKarp [8, 7, 6, 1] 2 true = .ok parts ∧ SpreadLe [8, 7, 6, 1] parts 5 :=
  have h := karmarkarKarp_spread [8, 7, 6, 1] 2 (by decide) (by decide)
  ⟨h.1, h.2 (by decide)⟩

end Verl
