import Verl.Lib.Python

/-!
# Balanced partitions (`verl/utils/seqlen_balancing.py`)

The largest differencing method: every item (or every block of `k` items) starts as a state of
`k` sets, the two states of largest spread are merged, heaviest set with lightest set, until one
state is left.  `getSeqlenBalancedPartitions` checks its partitions and sorts each.

    1 ≤ k ≤ n, (equal_size → k ∣ n) →
      getSeqlenBalancedPartitions seqlen_list k equal_size = .ok parts     (parts a partition of [0, n))

What carries the proof: the sets of a state are in decreasing order of (sum, size, items), so the
empty sets are its last ones, and a state of `m` items has `min m k` non-empty sets (`Spread`).
Merging pairs the first set of one state with the last of the other, so the non-empty sets of both
fill the merged state from its two ends.  The order in which the heap yields the states is never
used.
-/

namespace Verl

open List

/-! ## Algorithm -/

/-- Approximate attention workload of a sequence. -/
def calculateWorkload (seqlen : Nat) : Nat := 24576 * seqlen + seqlen ^ 2

/-- `Set` of `karmarkar_karp`: the items `(idx, val)` put in it and their sum. -/
structure KKSet where
  sum : Nat
  items : List (Nat × Nat)
deriving DecidableEq, Repr

namespace KKSet

def empty : KKSet := { sum := 0, items := [] }

def add (s : KKSet) (idx val : Nat) : KKSet :=
  { sum := s.sum + val, items := s.items ++ [(idx, val)] }

def merge (s other : KKSet) : KKSet := other.items.foldl (fun s p => s.add p.1 p.2) s

/-- `Set.__lt__`: by sum, then by number of items, then by the items themselves. -/
def lt (s other : KKSet) : Bool :=
  if s.sum ≠ other.sum then decide (s.sum < other.sum)
  else if s.items.length ≠ other.items.length then decide (s.items.length < other.items.length)
  else decide (s.items.map toLex < other.items.map toLex)

end KKSet

/-- `State` of `karmarkar_karp`: always `k` sets. -/
structure KKState (k : Nat) where
  sets : List KKSet
  size : sets.length = k

namespace KKState

variable {k : Nat}

/-- The sets of `State.__init__`: item `i` goes to set `i`, the other sets stay empty. -/
def initSets (items : List (Nat × Nat)) (k : Nat) : List KKSet :=
  items.map (fun p => KKSet.empty.add p.1 p.2) ++ List.replicate (k - items.length) KKSet.empty

theorem length_sorted_initSets {items : List (Nat × Nat)} (h : items.length ≤ k) :
    (pySortedReverse KKSet.lt (initSets items k)).length = k := by simp [initSets, h]

/-- `State.__init__`; `self.sets[i]` is out of range for one item and `k = 0`. -/
def init (items : List (Nat × Nat)) (k : Nat) : Except PyErr (KKState k) := do
  pyAssert (items.length == 1 || items.length == k) s!"{items.length} not in [1, {k}]"
  if h : items.length ≤ k then
    return { sets := pySortedReverse KKSet.lt (initSets items k), size := length_sorted_initSets h }
  else throw .indexError

def getPartitions (s : KKState k) : List (List Nat) := s.sets.map fun t => t.items.map Prod.fst

/-- `State.merge`: set `i` takes set `k - 1 - i` of the other state. -/
def merge (s other : KKState k) : KKState k where
  sets := pySortedReverse KKSet.lt (List.zipWith KKSet.merge s.sets other.sets.reverse)
  size := by simp [s.size, other.size]

def spread (s : KKState k) : Int :=
  ((s.sets.headD KKSet.empty).sum : Int) - (s.sets.getLastD KKSet.empty).sum

/-- `State.__lt__`: the state of largest spread is the least one; on equal spreads the one with
the largest first set. -/
def lt (s other : KKState k) : Bool :=
  if s.spread ≠ other.spread then decide (s.spread > other.spread)
  else (other.sets.headD KKSet.empty).lt (s.sets.headD KKSet.empty)

end KKState

/-- `while len(states_pq) > 1`, at most `fuel` times round. -/
def kkLoop {k : Nat} : Nat → List (KKState k) → List (KKState k)
  | 0, states => states
  | fuel + 1, states =>
    match heappop KKState.lt states with
    | none => states
    | some (state0, rest0) =>
      match heappop KKState.lt rest0 with
      | none => states
      | some (state1, rest1) => kkLoop fuel (heappush rest1 (state0.merge state1))

/-- `sorted([(seqlen, i) for i, seqlen in enumerate(seqlen_list)])`, with the pairs turned round to
`(i, seqlen)` as the states take them. -/
def sortedSeqlenList (seqlenList : List Nat) : List (Nat × Nat) :=
  pySorted (fun p q => decide (toLex (p.2, p.1) < toLex (q.2, q.1)))
    ((List.range seqlenList.length).zip seqlenList)

/-- The `k` items from each `offset` in `range(0, n, k)`. -/
def offsetBlocks (items : List (Nat × Nat)) (k : Nat) : List (List (Nat × Nat)) :=
  (List.range (items.length / k)).map fun b => (items.drop (b * k)).take k

def karmarkarKarp (seqlenList : List Nat) (kPartitions : Nat) (equalSize : Bool) :
    Except PyErr (List (List Nat)) := do
  let n := seqlenList.length
  let sorted := sortedSeqlenList seqlenList
  if equalSize then
    if kPartitions = 0 then throw .zeroDivisionError
    pyAssert (n % kPartitions == 0) s!"{n} % {kPartitions} != 0"
  let blocks := if equalSize then offsetBlocks sorted kPartitions else sorted.map fun p => [p]
  let states ← blocks.mapM fun items => KKState.init items kPartitions
  let statesPq := states.foldl heappush []
  match kkLoop statesPq.length statesPq with
  | [] => throw .indexError
  | finalState :: _ =>
    let partitions := finalState.getPartitions
    if equalSize then
      partitions.forM fun partition =>
        pyAssert (partition.length * kPartitions == n)
          s!"{partition.length} * {kPartitions} != {n}"
    return partitions

/-- `_check_and_sort_partitions`. -/
def checkAndSortPartitions (n kPartitions : Nat) (partitions : List (List Nat)) :
    Except PyErr (List (List Nat)) := do
  pyAssert (partitions.length == kPartitions) s!"{partitions.length} != {kPartitions}"
  let sortedPartitions ← partitions.zipIdx.mapM fun (partition, i) => do
    pyAssert (0 < partition.length) s!"the {i}-th partition is empty"
    return pySorted (fun a b => decide (a < b)) partition
  let seenIdx := partitions.flatten
  pyAssert (seenIdx.all (· < n) && (List.range n).all (seenIdx.contains ·)) ""
  return sortedPartitions

def getSeqlenBalancedPartitions (seqlenList : List Nat) (kPartitions : Nat) (equalSize : Bool) :
    Except PyErr (List (List Nat)) := do
  pyAssert (kPartitions ≤ seqlenList.length)
    s!"number of items:[{seqlenList.length}] < k_partitions:[{kPartitions}]"
  let partitions ← karmarkarKarp seqlenList kPartitions equalSize
  checkAndSortPartitions seqlenList.length kPartitions partitions

/-! ## Lemmas: sets -/

namespace KKSet

@[simp] theorem empty_items : empty.items = [] := rfl

@[simp] theorem add_items (s : KKSet) (idx val : Nat) :
    (s.add idx val).items = s.items ++ [(idx, val)] := rfl

/-- What the sum should be. -/
def Consistent (s : KKSet) : Prop := s.sum = (s.items.map Prod.snd).sum

theorem foldl_add_items (xs : List (Nat × Nat)) (s : KKSet) :
    (xs.foldl (fun s p => s.add p.1 p.2) s).items = s.items ++ xs := by
  induction xs generalizing s with
  | nil => simp
  | cons p xs ih => rw [foldl_cons, ih]; simp

theorem foldl_add_consistent (xs : List (Nat × Nat)) (s : KKSet) (h : s.Consistent) :
    (xs.foldl (fun s p => s.add p.1 p.2) s).Consistent := by
  induction xs generalizing s with
  | nil => exact h
  | cons p xs ih =>
    refine ih _ ?_
    unfold Consistent at h ⊢
    simp [add, h]

@[simp] theorem merge_items (s t : KKSet) : (s.merge t).items = s.items ++ t.items :=
  foldl_add_items t.items s

theorem merge_consistent (s t : KKSet) (h : s.Consistent) : (s.merge t).Consistent :=
  foldl_add_consistent t.items s h

/-- The order of `Set.__lt__` as one key. -/
def key (s : KKSet) : ℕ ×ₗ ℕ ×ₗ List (ℕ ×ₗ ℕ) :=
  toLex (s.sum, toLex (s.items.length, s.items.map toLex))

theorem lt_iff_key (s t : KKSet) : s.lt t = true ↔ s.key < t.key := by
  unfold lt key
  rw [Prod.Lex.toLex_lt_toLex, Prod.Lex.toLex_lt_toLex]
  split
  · next h => simp [h]
  · grind

theorem items_eq_nil_of_key_le (s t : KKSet) (ht : t.Consistent) (he : t.items = [])
    (h : s.key ≤ t.key) : s.items = [] := by
  have ht0 : t.sum = 0 := by rw [ht, he]; rfl
  unfold key at h
  rw [Prod.Lex.toLex_le_toLex, Prod.Lex.toLex_le_toLex] at h
  simp only [he, length_nil] at h
  rcases h with h | ⟨-, h | ⟨h, -⟩⟩
  · omega
  · omega
  · exact length_eq_zero_iff.1 h

def nonempty (s : KKSet) : Bool := !s.items.isEmpty

theorem nonempty_iff (s : KKSet) : s.nonempty = true ↔ s.items ≠ [] := by
  cases h : s.items <;> simp [nonempty, h]

theorem merge_nonempty (s t : KKSet) : (s.merge t).nonempty = (s.nonempty || t.nonempty) := by
  unfold nonempty
  rw [merge_items]
  cases s.items <;> simp

end KKSet

/-! ## Lemmas: counting from two ends -/

theorem map_eq_replicate_append {α : Type} (p : α → Bool) (xs : List α)
    (h : xs.Pairwise fun a b => p b = true → p a = true) :
    xs.map p = replicate (xs.countP p) true ++
      replicate (xs.length - xs.countP p) false := by
  induction xs with
  | nil => rfl
  | cons a xs ih =>
    rw [pairwise_cons] at h
    cases ha : p a with
    | true =>
      rw [map_cons, ih h.2, countP_cons_of_pos ha, ha, length_cons,
        Nat.add_sub_add_right, replicate_succ, cons_append]
    | false =>
      have hnone : ∀ b ∈ xs, p b = false := by grind
      have hzero : xs.countP p = 0 := countP_eq_zero.2 (by simpa using hnone)
      have hmap : xs.map p = replicate xs.length false := by
        rw [ih h.2, hzero]; simp
      rw [map_cons, ha, hmap, countP_cons_of_neg (by simp [ha]), hzero]
      rfl

theorem countP_range_outside (lo hi n : Nat) :
    (range n).countP (fun i => decide (i < lo ∨ hi ≤ i)) = min lo n + (n - max lo hi) := by
  induction n with
  | zero => simp
  | succ n ih =>
    rw [range_succ, countP_append, countP_singleton]
    split
    · next h => have := of_decide_eq_true h; omega
    · next h => have := of_decide_eq_false (Bool.not_eq_true _ ▸ h); omega

/-- `a` items from the front and `b` from the back cover `min (a + b) k` of `k` places. -/
theorem countP_zipWith_or (a b k : Nat) (ha : a ≤ k) (hb : b ≤ k) :
    (zipWith or (replicate a true ++ replicate (k - a) false)
      (replicate b true ++ replicate (k - b) false).reverse).countP id
      = min (a + b) k := by
  have hmap : zipWith or (replicate a true ++ replicate (k - a) false)
      (replicate b true ++ replicate (k - b) false).reverse
      = (range k).map fun i => decide (i < a ∨ k - b ≤ i) := by
    apply ext_getElem
    · simp; omega
    · grind
  rw [hmap, countP_map, show id ∘ (fun i => decide (i < a ∨ k - b ≤ i))
    = fun i => decide (i < a ∨ k - b ≤ i) from rfl, countP_range_outside]
  omega

/-! ## Lemmas: states -/

namespace KKState

variable {k : Nat}

/-- The items of all sets. -/
def items (s : KKState k) : List (Nat × Nat) := s.sets.flatMap KKSet.items

variable {s : KKState k} {xs : List (Nat × Nat)}

theorem merge_sets_perm (s t : KKState k) :
    (s.merge t).sets.Perm (zipWith KKSet.merge s.sets t.sets.reverse) :=
  pySortedReverse_perm _ _

theorem flatMap_zipWith_merge (xs ys : List KKSet) (h : xs.length = ys.length) :
    ((zipWith KKSet.merge xs ys).flatMap KKSet.items).Perm
      (xs.flatMap KKSet.items ++ ys.flatMap KKSet.items) := by
  induction xs generalizing ys with
  | nil => cases ys with
    | nil => exact .refl _
    | cons y ys => cases h
  | cons x xs ih => cases ys with
    | nil => cases h
    | cons y ys =>
      simp only [zipWith_cons_cons, flatMap_cons, KKSet.merge_items]
      have := ih ys (by simpa using h)
      refine ((Perm.append_left _ this).trans ?_)
      simp only [append_assoc]
      refine Perm.append_left _ ?_
      rw [← append_assoc, ← append_assoc]
      exact Perm.append_right _ perm_append_comm

theorem merge_items_perm (s t : KKState k) : (s.merge t).items.Perm (s.items ++ t.items) := by
  have hlen : s.sets.length = t.sets.reverse.length := by simp [s.size, t.size]
  refine ((merge_sets_perm s t).flatMap_right _).trans ?_
  refine (flatMap_zipWith_merge _ _ hlen).trans (Perm.append_left _ ?_)
  exact (reverse_perm _).flatMap_right _

theorem forall_merge_sets (s t : KKState k) (P : KKSet → Prop)
    (h : ∀ a ∈ s.sets, ∀ b ∈ t.sets, P (a.merge b)) : ∀ c ∈ (s.merge t).sets, P c := by
  intro c hc
  rw [(merge_sets_perm s t).mem_iff] at hc
  obtain ⟨i, hi, rfl⟩ := getElem_of_mem hc
  rw [getElem_zipWith]
  exact h _ (getElem_mem _) _ (mem_reverse.1 (getElem_mem _))

/-- The invariant of the states without `equal_size`: the sets are in decreasing order and the
items are spread over as many sets as possible. -/
structure Spread (s : KKState k) : Prop where
  consistent : ∀ t ∈ s.sets, t.Consistent
  decreasing : s.sets.Pairwise fun a b => b.key ≤ a.key
  count : s.sets.countP KKSet.nonempty = min s.items.length k

theorem Spread.map_nonempty (h : s.Spread) :
    s.sets.map KKSet.nonempty = replicate (min s.items.length k) true ++
      replicate (k - min s.items.length k) false := by
  rw [map_eq_replicate_append, h.count, s.size]
  refine (Pairwise.and_mem.1 h.decreasing).imp ?_
  rintro a b ⟨ha, -, hab⟩ hb
  rw [KKSet.nonempty_iff] at hb ⊢
  exact fun he => hb (KKSet.items_eq_nil_of_key_le b a (h.consistent a ha) he hab)

theorem Spread.merge {t : KKState k} (hs : s.Spread) (ht : t.Spread) : (s.merge t).Spread where
  consistent := forall_merge_sets s t _ fun a ha _ _ => KKSet.merge_consistent _ _ (hs.consistent a ha)
  decreasing := pySortedReverse_pairwise _ KKSet.key KKSet.lt_iff_key _
  count := by
    have hor : (zipWith KKSet.merge s.sets t.sets.reverse).map KKSet.nonempty
        = zipWith or (s.sets.map KKSet.nonempty) (t.sets.map KKSet.nonempty).reverse := by
      rw [map_zipWith, ← map_reverse, zipWith_map]
      simp only [KKSet.merge_nonempty]
    have hcount : (zipWith KKSet.merge s.sets t.sets.reverse).countP KKSet.nonempty
        = (zipWith or (s.sets.map KKSet.nonempty)
            (t.sets.map KKSet.nonempty).reverse).countP id := by
      rw [← hor, countP_map]; rfl
    rw [(merge_sets_perm s t).countP_eq, hcount, hs.map_nonempty, ht.map_nonempty,
      countP_zipWith_or _ _ _ (Nat.min_le_right _ _) (Nat.min_le_right _ _),
      (merge_items_perm s t).length_eq, length_append]
    omega

/-- The invariant of the states with `equal_size`: all sets have the same number of items. -/
def Level (s : KKState k) : Prop := ∃ q, ∀ t ∈ s.sets, t.items.length = q

theorem Level.merge {t : KKState k} (hs : s.Level) (ht : t.Level) : (s.merge t).Level := by
  obtain ⟨q, hq⟩ := hs
  obtain ⟨r, hr⟩ := ht
  refine ⟨q + r, forall_merge_sets s t _ fun a ha b hb => ?_⟩
  rw [KKSet.merge_items, length_append, hq a ha, hr b hb]

theorem Level.length_items {q : Nat} (h : ∀ t ∈ s.sets, t.items.length = q) :
    s.items.length = k * q := by
  unfold items
  rw [length_flatMap, map_congr_left (g := fun _ => q) (by simpa using h)]
  simp [s.size]

/-! ### The states at the start -/

theorem flatMap_initSets (xs : List (Nat × Nat)) : (initSets xs k).flatMap KKSet.items = xs := by
  unfold initSets
  rw [flatMap_append, flatMap_map]
  simp

theorem init_eq_ok (xs : List (Nat × Nat)) (h1 : xs.length = 1 ∨ xs.length = k)
    (h2 : xs.length ≤ k) :
    ∃ s : KKState k, init xs k = .ok s ∧ s.sets = pySortedReverse KKSet.lt (initSets xs k) := by
  refine ⟨⟨_, length_sorted_initSets h2⟩, ?_, rfl⟩
  have hc : (xs.length == 1 || xs.length == k) = true := by simpa using h1
  unfold init
  rw [hc, dif_pos h2]
  rfl

theorem init_items_perm
    (h : s.sets = pySortedReverse KKSet.lt (initSets xs k)) : s.items.Perm xs := by
  unfold items
  rw [h]
  refine ((pySortedReverse_perm _ _).flatMap_right _).trans ?_
  rw [flatMap_initSets]

theorem init_spread (hlen : xs.length ≤ k)
    (h : s.sets = pySortedReverse KKSet.lt (initSets xs k)) : s.Spread where
  consistent := by
    intro t ht
    rw [h, mem_pySortedReverse, initSets, mem_append, mem_map] at ht
    rcases ht with ⟨p, -, rfl⟩ | ht
    · simp [KKSet.Consistent, KKSet.add, KKSet.empty]
    · rw [eq_of_mem_replicate ht]; rfl
  decreasing := by
    rw [h]
    exact pySortedReverse_pairwise _ KKSet.key KKSet.lt_iff_key _
  count := by
    rw [(init_items_perm h).length_eq, h, (pySortedReverse_perm _ _).countP_eq, initSets,
      countP_append, countP_replicate, Nat.min_eq_left hlen]
    have hall : (KKSet.nonempty ∘ fun p : Nat × Nat => KKSet.empty.add p.1 p.2) = fun _ => true := by
      funext p; simp [KKSet.nonempty]
    simp [KKSet.nonempty]

theorem init_level (hlen : xs.length = k)
    (h : s.sets = pySortedReverse KKSet.lt (initSets xs k)) : s.Level := by
  refine ⟨1, fun t ht => ?_⟩
  rw [h, mem_pySortedReverse, initSets, hlen, Nat.sub_self, replicate_zero,
    append_nil, mem_map] at ht
  obtain ⟨p, -, rfl⟩ := ht
  rfl

end KKState

/-! ## Lemmas: the loop -/

section Loop

variable {k : Nat} (Good : KKState k → Prop)
  (hmerge : ∀ s t : KKState k, Good s → Good t → Good (s.merge t))

include hmerge

/-- Whatever holds of the first states and survives a merge holds of the last state, which has
all their items.  One turn takes two states out and puts one back, so `fuel` turns are enough. -/
theorem kkLoop_spec : ∀ (fuel : Nat) (states : List (KKState k)), states ≠ [] →
    states.length ≤ fuel + 1 → (∀ s ∈ states, Good s) →
    ∃ s, kkLoop fuel states = [s] ∧ Good s ∧ s.items.Perm (states.flatMap KKState.items) := by
  intro fuel
  induction fuel with
  | zero =>
    intro states hne hlen hgood
    obtain ⟨s, rfl⟩ : ∃ s, states = [s] := by
      cases states with
      | nil => exact absurd rfl hne
      | cons s rest => cases rest with
        | nil => exact ⟨s, rfl⟩
        | cons t rest => simp at hlen
    exact ⟨s, rfl, hgood s mem_cons_self, by simp⟩
  | succ fuel ih =>
    intro states hne hlen hgood
    unfold kkLoop
    cases h0 : heappop KKState.lt states with
    | none => exact absurd ((heappop_eq_none _ _).1 h0) hne
    | some p0 =>
      obtain ⟨s0, rest0⟩ := p0
      have hp0 := heappop_perm _ _ _ _ h0
      dsimp only
      cases h1 : heappop KKState.lt rest0 with
      | none =>
        rw [(heappop_eq_none _ _).1 h1] at hp0
        have hs := perm_singleton.1 hp0
        subst hs
        exact ⟨s0, rfl, hgood s0 mem_cons_self, by simp⟩
      | some p1 =>
        obtain ⟨s1, rest1⟩ := p1
        have hp : states.Perm (s0 :: s1 :: rest1) := hp0.trans ((heappop_perm _ _ _ _ h1).cons s0)
        have hg : ∀ s ∈ s0 :: s1 :: rest1, Good s := fun s hs => hgood s (hp.mem_iff.2 hs)
        have hl := hp.length_eq
        simp only [length_cons] at hl
        obtain ⟨s, hs, hgs, hperm⟩ := ih (heappush rest1 (s0.merge s1)) (by simp [heappush])
          (by simp [heappush]; omega) (by
            intro t ht
            rcases mem_cons.1 ht with rfl | ht
            · exact hmerge _ _ (hg s0 (by simp)) (hg s1 (by simp))
            · exact hg t (by simp [ht]))
        refine ⟨s, hs, hgs, hperm.trans ?_⟩
        refine Perm.trans ?_ (hp.flatMap_right _).symm
        simp only [flatMap_cons, ← append_assoc]
        exact Perm.append_right _ (KKState.merge_items_perm s0 s1)

end Loop

variable {k n : Nat} {seqlenList : List Nat} {parts : List (List Nat)}

theorem foldl_heappush_perm {α : Type} (xs heap : List α) :
    (xs.foldl heappush heap).Perm (xs ++ heap) := by
  induction xs generalizing heap with
  | nil => exact .refl _
  | cons x xs ih => exact (ih _).trans perm_middle

/-! ## Lemmas: the items -/

theorem sortedSeqlenList_perm (seqlenList : List Nat) :
    ((sortedSeqlenList seqlenList).map Prod.fst).Perm (range seqlenList.length) := by
  refine ((pySorted_perm _ _).map Prod.fst).trans ?_
  rw [map_fst_zip (by simp)]

@[simp] theorem length_sortedSeqlenList (seqlenList : List Nat) :
    (sortedSeqlenList seqlenList).length = seqlenList.length := by
  simp [sortedSeqlenList]

theorem flatten_offsetBlocks (xs : List (Nat × Nat)) (k : Nat) (hdvd : k ∣ xs.length) :
    (offsetBlocks xs k).flatten = xs := by
  -- the first `b` blocks are the first `b * k` items
  have hpre : ∀ b, b * k ≤ xs.length →
      ((range b).map fun b => (xs.drop (b * k)).take k).flatten = xs.take (b * k) := by
    intro b
    induction b with
    | zero => simp
    | succ b ih =>
      intro hb
      have hb' : b * k + k ≤ xs.length := by rw [Nat.succ_mul] at hb; exact hb
      rw [range_succ, map_append, flatten_append, ih (by omega), Nat.succ_mul,
        take_add]
      simp
  unfold offsetBlocks
  rw [hpre _ (Nat.div_mul_le_self _ _), Nat.div_mul_cancel hdvd, take_length]

theorem length_of_mem_offsetBlocks {xs : List (Nat × Nat)} {block : List (Nat × Nat)}
    (h : block ∈ offsetBlocks xs k) : block.length = k := by
  obtain ⟨b, hb, rfl⟩ := mem_map.1 h
  have hb : (b + 1) * k ≤ xs.length := by
    have := mem_range.1 hb
    exact (Nat.mul_le_mul_right k this).trans (Nat.div_mul_le_self _ _)
  rw [Nat.succ_mul] at hb
  rw [length_take, length_drop]
  omega

/-- The states at the start: one for each block, with the block's items. -/
theorem initStates_spec (Good : KKState k → Prop) (blocks : List (List (Nat × Nat)))
    (hlen : ∀ b ∈ blocks, (b.length = 1 ∨ b.length = k) ∧ b.length ≤ k)
    (hgood : ∀ b ∈ blocks, ∀ s : KKState k,
      s.sets = pySortedReverse KKSet.lt (KKState.initSets b k) → Good s) :
    ∃ states, blocks.mapM (fun items => KKState.init items k) = .ok states ∧
      states.length = blocks.length ∧ (∀ s ∈ states, Good s) ∧
      (states.flatMap KKState.items).Perm blocks.flatten := by
  induction blocks with
  | nil => exact ⟨[], rfl, rfl, by simp, .refl _⟩
  | cons b blocks ih =>
    obtain ⟨s, hs, hsets⟩ := KKState.init_eq_ok b (hlen b mem_cons_self).1
      (hlen b mem_cons_self).2
    obtain ⟨states, hst, hl, hg, hp⟩ := ih (fun c hc => hlen c (mem_cons_of_mem _ hc))
      (fun c hc => hgood c (mem_cons_of_mem _ hc))
    refine ⟨s :: states, by rw [mapM_cons, hs, hst]; rfl, by simp [hl], ?_, ?_⟩
    · grind
    · exact (KKState.init_items_perm hsets).append hp

theorem finalState_spec (Good : KKState k → Prop)
    (hmerge : ∀ s t : KKState k, Good s → Good t → Good (s.merge t))
    (blocks : List (List (Nat × Nat))) (hne : blocks ≠ [])
    (hlen : ∀ b ∈ blocks, (b.length = 1 ∨ b.length = k) ∧ b.length ≤ k)
    (hgood : ∀ b ∈ blocks, ∀ s : KKState k,
      s.sets = pySortedReverse KKSet.lt (KKState.initSets b k) → Good s) :
    ∃ states s, blocks.mapM (fun items => KKState.init items k) = .ok states ∧
      kkLoop (states.foldl heappush []).length (states.foldl heappush []) = [s] ∧ Good s ∧
      s.items.Perm blocks.flatten := by
  obtain ⟨states, hst, hl, hg, hp⟩ := initStates_spec Good blocks hlen hgood
  have hheap : (states.foldl heappush []).Perm states := by
    simpa using foldl_heappush_perm states []
  have hne' : states.foldl heappush [] ≠ [] := by
    intro h
    rw [h] at hheap
    have := hheap.length_eq
    rw [hl] at this
    exact hne (length_eq_zero_iff.1 this.symm)
  obtain ⟨s, hs, hgs, hps⟩ := kkLoop_spec Good hmerge _ _ hne' (Nat.le_succ _)
    (fun t ht => hg t (hheap.mem_iff.1 ht))
  exact ⟨states, s, hst, hs, hgs, hps.trans ((hheap.flatMap_right _).trans hp)⟩

theorem flatten_getPartitions (s : KKState k) : s.getPartitions.flatten = s.items.map Prod.fst := by
  unfold KKState.getPartitions KKState.items
  rw [map_flatMap, flatMap_def]

theorem length_getPartitions (s : KKState k) : s.getPartitions.length = k := by
  simp [KKState.getPartitions, s.size]

theorem Spread.getPartitions_ne_nil {s : KKState k} (h : s.Spread)
    (hk : k ≤ s.items.length) : ∀ p ∈ s.getPartitions, p ≠ [] := by
  have hcount : s.sets.countP KKSet.nonempty = s.sets.length := by
    rw [h.count, Nat.min_eq_right hk, s.size]
  have hall := countP_eq_length.1 hcount
  intro p hp
  obtain ⟨t, ht, rfl⟩ := mem_map.1 hp
  rw [Ne, map_eq_nil_iff]
  exact (KKSet.nonempty_iff t).1 (hall t ht)

theorem Level.length_of_mem_getPartitions {s : KKState k} (h : s.Level) :
    ∀ p ∈ s.getPartitions, p.length * k = s.items.length := by
  obtain ⟨q, hq⟩ := h
  intro p hp
  obtain ⟨t, ht, rfl⟩ := mem_map.1 hp
  rw [length_map, hq t ht, KKState.Level.length_items hq, Nat.mul_comm]

/-- A partition of the indices `0, ..., n - 1` into non-empty ascending lists. -/
structure IsPartition (n : Nat) (parts : List (List Nat)) : Prop where
  nonempty : ∀ p ∈ parts, p ≠ []
  ascending : ∀ p ∈ parts, p.Pairwise (· < ·)
  perm : parts.flatten.Perm (List.range n)

theorem IsPartition.mem_iff (h : IsPartition n parts) (i : Nat) : i < n ↔ ∃ p ∈ parts, i ∈ p := by
  rw [← mem_range, ← h.perm.mem_iff, mem_flatten]

theorem IsPartition.disjoint (h : IsPartition n parts) : parts.Pairwise Disjoint :=
  (nodup_flatten.1 (h.perm.nodup_iff.2 nodup_range)).2

section

variable (Good : KKState k → Prop) (hmerge : ∀ s t : KKState k, Good s → Good t → Good (s.merge t))
  (hk : 1 ≤ k) (hkn : k ≤ seqlenList.length)
include Good hmerge hk hkn

/-- What survives a merge and holds of every item alone holds of the state that is returned. -/
theorem exists_finalState (hgood : ∀ p ∈ sortedSeqlenList seqlenList, ∀ s : KKState k,
      s.sets = pySortedReverse KKSet.lt (KKState.initSets [p] k) → Good s) :
    ∃ s : KKState k, karmarkarKarp seqlenList k false = .ok s.getPartitions ∧ Good s ∧
      s.items.Perm (sortedSeqlenList seqlenList) := by
  obtain ⟨states, s, hst, hs, hgoods, hp⟩ := finalState_spec Good hmerge
    ((sortedSeqlenList seqlenList).map fun p => [p])
    (by rw [Ne, map_eq_nil_iff, ← length_eq_zero_iff, length_sortedSeqlenList]; omega)
    (by
      intro b hb
      obtain ⟨p, -, rfl⟩ := mem_map.1 hb
      exact ⟨.inl rfl, hk⟩)
    (by
      intro b hb s hsets
      obtain ⟨p, hp, rfl⟩ := mem_map.1 hb
      exact hgood p hp s hsets)
  refine ⟨s, ?_, hgoods, by rwa [← flatMap_def, flatMap_singleton'] at hp⟩
  unfold karmarkarKarp
  simp only [Bool.false_eq_true, if_false, hst, ok_bind, hs]
  rfl

/-- What survives a merge and holds of every block holds of the state that is returned with
`equal_size`, all sets of which have the same number of items. -/
theorem exists_finalState_equalSize (hdvd : k ∣ seqlenList.length)
    (hgood : ∀ b ∈ offsetBlocks (sortedSeqlenList seqlenList) k, ∀ s : KKState k,
      s.sets = pySortedReverse KKSet.lt (KKState.initSets b k) → Good s) :
    ∃ s : KKState k, karmarkarKarp seqlenList k true = .ok s.getPartitions ∧ Good s ∧
      (∀ p ∈ s.getPartitions, p.length * k = seqlenList.length) ∧
      s.items.Perm (sortedSeqlenList seqlenList) := by
  have hdvd' : k ∣ (sortedSeqlenList seqlenList).length := by
    rw [length_sortedSeqlenList]; exact hdvd
  have hpos : 0 < seqlenList.length / k := Nat.div_pos hkn hk
  obtain ⟨states, s, hst, hs, ⟨hgoods, hlevel⟩, hp⟩ := finalState_spec
    (fun s => Good s ∧ s.Level) (fun s t hs ht => ⟨hmerge s t hs.1 ht.1, hs.2.merge ht.2⟩)
    (offsetBlocks (sortedSeqlenList seqlenList) k)
    (by
      rw [Ne, ← length_eq_zero_iff, offsetBlocks, length_map, length_range,
        length_sortedSeqlenList]
      omega)
    (fun b hb => ⟨.inr (length_of_mem_offsetBlocks hb), (length_of_mem_offsetBlocks hb).le⟩)
    (fun b hb s hsets => ⟨hgood b hb s hsets,
      KKState.init_level (length_of_mem_offsetBlocks hb) hsets⟩)
  rw [flatten_offsetBlocks _ _ hdvd'] at hp
  have hlen : s.items.length = seqlenList.length := by
    rw [hp.length_eq, length_sortedSeqlenList]
  have hsizes : ∀ p ∈ s.getPartitions, p.length * k = seqlenList.length := by
    rw [← hlen]; exact Level.length_of_mem_getPartitions hlevel
  have hcheck : (s.getPartitions.forM fun partition =>
      pyAssert (partition.length * k == seqlenList.length)
        s!"{partition.length} * {k} != {seqlenList.length}") = .ok () := by
    refine forM_eq_ok _ _ fun p hp => ?_
    rw [hsizes p hp, beq_self_eq_true, pyAssert_true]
  refine ⟨s, ?_, hgoods, hsizes, hp⟩
  unfold karmarkarKarp
  have hmod : (seqlenList.length % k == 0) = true := by
    simpa using Nat.mod_eq_zero_of_dvd hdvd
  simp only [if_true, if_neg (Nat.one_le_iff_ne_zero.1 hk), hmod, pyAssert_true, hst,
    ok_bind, hs, hcheck, pure, Except.pure]

end

theorem karmarkarKarp_spec (seqlenList : List Nat) (k : Nat) (equalSize : Bool) (hk : 1 ≤ k)
    (hkn : k ≤ seqlenList.length) (hdvd : equalSize = true → k ∣ seqlenList.length) :
    ∃ parts, karmarkarKarp seqlenList k equalSize = .ok parts ∧ parts.length = k ∧
      (∀ p ∈ parts, p ≠ []) ∧ parts.flatten.Perm (range seqlenList.length) ∧
      (equalSize = true → ∀ p ∈ parts, p.length * k = seqlenList.length) := by
  have hperm : ∀ s : KKState k, s.items.Perm (sortedSeqlenList seqlenList) →
      s.getPartitions.flatten.Perm (range seqlenList.length) := by
    intro s hs
    rw [flatten_getPartitions]
    exact (hs.map Prod.fst).trans (sortedSeqlenList_perm seqlenList)
  cases equalSize with
  | false =>
    obtain ⟨s, hok, hgood, hp⟩ := exists_finalState KKState.Spread
      (fun _ _ => KKState.Spread.merge) hk hkn
      (fun p _ s hsets => KKState.init_spread (by simpa using hk) hsets)
    have hlen : s.items.length = seqlenList.length := by
      rw [hp.length_eq, length_sortedSeqlenList]
    exact ⟨s.getPartitions, hok, length_getPartitions s,
      Spread.getPartitions_ne_nil hgood (by omega), hperm s hp, fun h => by cases h⟩
  | true =>
    obtain ⟨s, hok, -, hsizes, hp⟩ := exists_finalState_equalSize (fun _ => True)
      (fun _ _ _ _ => trivial) hk hkn (hdvd rfl) (fun _ _ _ _ => trivial)
    refine ⟨s.getPartitions, hok, length_getPartitions s, ?_, hperm s hp, fun _ => hsizes⟩
    intro p hp he
    have := hsizes p hp
    rw [he] at this
    simp at this
    omega

theorem checkAndSortPartitions_spec (n k : Nat) (parts : List (List Nat)) (hlen : parts.length = k)
    (hne : ∀ p ∈ parts, p ≠ []) (hperm : parts.flatten.Perm (range n)) :
    checkAndSortPartitions n k parts
      = .ok (parts.map (pySorted fun a b => decide (a < b))) := by
  unfold checkAndSortPartitions
  have hl : (parts.length == k) = true := by simpa using hlen
  have hmap := mapM_eq_ok_map (fun (x : List Nat × Nat) => (do
      pyAssert (0 < x.1.length) s!"the {x.2}-th partition is empty"
      return pySorted (fun a b => decide (a < b)) x.1 : Except PyErr (List Nat)))
    (fun x => pySorted (fun a b => decide (a < b)) x.1) parts.zipIdx (by
      intro x hx
      have hpos : 0 < x.1.length := length_pos_iff.2 (hne x.1 (fst_mem_of_mem_zipIdx hx))
      rw [decide_eq_true hpos]
      rfl)
  have hseen : (parts.flatten.all (· < n) && (range n).all (parts.flatten.contains ·)) = true := by
    grind
  have hsorted : parts.zipIdx.map (fun x => pySorted (fun a b => decide (a < b)) x.1)
      = parts.map (pySorted fun a b => decide (a < b)) := by
    rw [show (fun x : List Nat × Nat => pySorted (fun a b => decide (a < b)) x.1)
      = (pySorted fun a b => decide (a < b)) ∘ Prod.fst from rfl, ← map_map,
      zipIdx_map_fst]
  simp only [hl, hmap, hseen, hsorted]
  rfl

theorem isPartition_map_pySorted (hne : ∀ p ∈ parts, p ≠ [])
    (hperm : parts.flatten.Perm (range n)) :
    IsPartition n (parts.map (pySorted fun a b => decide (a < b))) where
  nonempty := by
    intro p hp he
    obtain ⟨q, hq, rfl⟩ := mem_map.1 hp
    exact hne q hq (length_eq_zero_iff.1 (by rw [← length_pySorted, he]; rfl))
  ascending := by
    intro p hp
    obtain ⟨q, hq, rfl⟩ := mem_map.1 hp
    have hsort := pySorted_pairwise (fun a b : Nat => decide (a < b)) id (by simp) q
    have hnd : (pySorted (fun a b : Nat => decide (a < b)) q).Nodup :=
      (pySorted_perm _ _).nodup_iff.2
        ((nodup_flatten.1 (hperm.nodup_iff.2 nodup_range)).1 q hq)
    exact (hsort.and hnd).imp fun h => lt_of_le_of_ne h.1 h.2
  perm := by
    refine Perm.trans ?_ hperm
    clear hne hperm
    induction parts with
    | nil => exact .refl _
    | cons p parts ih => exact (pySorted_perm _ p).append ih

/-- The partitions are returned, none is empty, and with `equal_size` they have equal sizes. -/
theorem getSeqlenBalancedPartitions_spec (seqlenList : List Nat) (k : Nat) (equalSize : Bool)
    (hk : 1 ≤ k) (hkn : k ≤ seqlenList.length) (hdvd : equalSize = true → k ∣ seqlenList.length) :
    ∃ parts, getSeqlenBalancedPartitions seqlenList k equalSize = .ok parts ∧ parts.length = k ∧
      IsPartition seqlenList.length parts ∧
      (equalSize = true → ∀ p ∈ parts, p.length = seqlenList.length / k) := by
  obtain ⟨parts, hkk, hlen, hne, hperm, hsize⟩ :=
    karmarkarKarp_spec seqlenList k equalSize hk hkn hdvd
  refine ⟨parts.map (pySorted fun a b => decide (a < b)), ?_, by simpa using hlen,
    isPartition_map_pySorted hne hperm, fun heq p hp => ?_⟩
  · unfold getSeqlenBalancedPartitions
    rw [decide_eq_true hkn, hkk]
    exact checkAndSortPartitions_spec _ _ _ hlen hne hperm
  · obtain ⟨q, hq, rfl⟩ := mem_map.1 hp
    rw [length_pySorted, ← hsize heq q hq, Nat.mul_div_cancel _ hk]

theorem karmarkarKarp_zero (seqlenList : List Nat) :
    karmarkarKarp seqlenList 0 false = .error .indexError := by
  unfold karmarkarKarp
  cases sortedSeqlenList seqlenList with
  | nil => rfl
  | cons p rest => rfl

theorem isPartition_of_getSeqlenBalancedPartitions
    (h : getSeqlenBalancedPartitions seqlenList k false = .ok parts) :
    parts.length = k ∧ IsPartition seqlenList.length parts := by
  have hok := h
  obtain ⟨_, hassert, h⟩ := bind_eq_ok.1 h
  have hkn : k ≤ seqlenList.length := of_decide_eq_true (pyAssert_eq_ok.1 hassert)
  rcases Nat.eq_zero_or_pos k with rfl | hk
  · rw [karmarkarKarp_zero] at h
    cases h
  · obtain ⟨parts', hok', hlen, hpart, -⟩ :=
      getSeqlenBalancedPartitions_spec seqlenList k false hk hkn (fun h => by cases h)
    rw [hok] at hok'
    cases hok'
    exact ⟨hlen, hpart⟩

/-! ## Top theorem -/

/-- The balanced partitions are returned for all lengths, and they are a partition of the
indices. -/
theorem getSeqlenBalancedPartitions_partition (seqlenList : List Nat) (k : Nat) (equalSize : Bool)
    (hk : 1 ≤ k) (hkn : k ≤ seqlenList.length) (hdvd : equalSize = true → k ∣ seqlenList.length) :
    ∃ parts, getSeqlenBalancedPartitions seqlenList k equalSize = .ok parts ∧
      parts.length = k ∧
      (∀ p ∈ parts, p ≠ [] ∧ p.Pairwise (· < ·)) ∧
      parts.Pairwise List.Disjoint ∧
      (∀ i, (∃ p ∈ parts, i ∈ p) ↔ i < seqlenList.length) ∧
      (equalSize = true → ∀ p ∈ parts, p.length = seqlenList.length / k) := by
  obtain ⟨parts, hok, hlen, hpart, hsize⟩ :=
    getSeqlenBalancedPartitions_spec seqlenList k equalSize hk hkn hdvd
  exact ⟨parts, hok, hlen, fun p hp => ⟨hpart.nonempty p hp, hpart.ascending p hp⟩,
    hpart.disjoint, fun i => (hpart.mem_iff i).symm, hsize⟩

theorem getSeqlenBalancedPartitions_partition_ties :
    ∃ parts, getSeqlenBalancedPartitions [0, 7, 0, 7] 2 true = .ok parts ∧
      parts.length = 2 ∧
      (∀ p ∈ parts, p ≠ [] ∧ p.Pairwise (· < ·)) ∧
      parts.Pairwise List.Disjoint ∧
      (∀ i, (∃ p ∈ parts, i ∈ p) ↔ i < 4) ∧
      (true = true → ∀ p ∈ parts, p.length = 4 / 2) :=
  getSeqlenBalancedPartitions_partition [0, 7, 0, 7] 2 true (by decide) (by decide) (by decide)

end Verl
