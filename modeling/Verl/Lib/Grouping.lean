import Verl.Lib.Numerals

/-! # Grouping samples by a label

Two ways to sum over the samples that share the label of sample `i`:

* `appendAt`: a `defaultdict(list)`, one `append` for each sample.  After the loop the list of a
  label has the values of its samples in order (`listAt_foldl_appendAt`).
* `uniqueInverse` and `bincount`: the labels are numbered by their place among the sorted distinct
  labels (`uniqueInverse_eq_iff`), and one sum is taken for each number (`getElem?_bincount`).

`sampleMean` and `sampleVariance` are those of a set of samples.

`foldl_update_finRange` is for loops that assign `xs[i]` from `xs[i]` for every `i`, and
`foldl_groups` for loops that assign the rows of one label after the other. -/

namespace Verl

open List

variable {G A : Type} [DecidableEq G]

/-! ## Lists of a defaultdict -/

/-- `d[key].append(a)` on a `defaultdict(list)`. -/
def appendAt (d : List (G × List A)) (key : G) (a : A) : List (G × List A) :=
  match d with
  | [] => [(key, [a])]
  | (k, as) :: rest => if k = key then (k, as ++ [a]) :: rest else (k, as) :: appendAt rest key a

variable {g key : G} {n : Nat} {a : A} {I : Type} {d : List (G × List A)}

@[simp] theorem appendAt_nil (key : G) (a : A) : appendAt [] key a = [(key, [a])] := rfl

@[simp] theorem appendAt_cons (k key : G) (as : List A) (rest : List (G × List A)) (a : A) :
    appendAt ((k, as) :: rest) key a =
      if k = key then (k, as ++ [a]) :: rest else (k, as) :: appendAt rest key a := rfl

/-- The list of a label; a label that was never used has the empty one. -/
def listAt (d : List (G × List A)) (key : G) : List A := (d.lookup key).getD []

theorem listAt_nil (key : G) : listAt ([] : List (G × List A)) key = [] := rfl

theorem listAt_cons (k key : G) (as : List A) (rest : List (G × List A)) :
    listAt ((k, as) :: rest) key = if key = k then as else listAt rest key := by
  unfold listAt
  rw [lookup_cons]
  by_cases h : key = k
  · grind
  · rw [if_neg h, beq_eq_false_iff_ne.2 h]

theorem listAt_appendAt (d : List (G × List A)) (key g : G) (a : A) :
    listAt (appendAt d key a) g = listAt d g ++ (if g = key then [a] else []) := by
  induction d with
  | nil =>
    rw [appendAt_nil, listAt_cons]
    rfl
  | cons p rest ih =>
    obtain ⟨k, as⟩ := p
    rw [appendAt_cons, listAt_cons]
    by_cases hk : k = key
    · subst hk
      rw [if_pos rfl, listAt_cons]
      by_cases hg : g = k
      · rw [if_pos hg, if_pos hg, if_pos hg]
      · grind
    · rw [if_neg hk, listAt_cons]
      by_cases hg : g = k
      · grind
      · rw [if_neg hg, if_neg hg, ih]

theorem listAt_foldl_appendAt (label : I → G) (value : I → A) (is : List I)
    (d : List (G × List A)) (g : G) :
    listAt (is.foldl (fun d i => appendAt d (label i) (value i)) d) g =
      listAt d g ++ (is.filter fun i => label i = g).map value := by
  induction is generalizing d with
  | nil => simp
  | cons i is ih =>
    rw [foldl_cons, ih, listAt_appendAt]
    by_cases h : g = label i
    · simp [h]
    · simp [h, Ne.symm h]

theorem appendAt_ne_nil (h : ∀ p ∈ d, p.2 ≠ []) : ∀ p ∈ appendAt d key a, p.2 ≠ [] := by
  induction d with
  | nil =>
    intro p hp
    rw [appendAt_nil, mem_singleton] at hp
    subst hp
    exact cons_ne_nil _ _
  | cons q rest ih =>
    obtain ⟨k, as⟩ := q
    intro p hp
    rw [appendAt_cons] at hp
    have hrest : ∀ p ∈ rest, p.2 ≠ [] := fun p hp => h p (mem_cons_of_mem _ hp)
    by_cases hk : k = key
    · rw [if_pos hk] at hp
      rcases mem_cons.1 hp with rfl | hp
      · simp
      · exact hrest p hp
    · grind

theorem foldl_appendAt_ne_nil (label : I → G) (value : I → A) (is : List I)
    (d : List (G × List A)) (h : ∀ p ∈ d, p.2 ≠ []) :
    ∀ p ∈ is.foldl (fun d i => appendAt d (label i) (value i)) d, p.2 ≠ [] := by
  induction is generalizing d with
  | nil => exact h
  | cons i is ih => exact ih _ (appendAt_ne_nil h)

theorem mem_keys_appendAt : g ∈ (appendAt d key a).map Prod.fst ↔ g ∈ d.map Prod.fst ∨ g = key := by
  induction d with
  | nil => simp
  | cons q rest ih =>
    obtain ⟨k, as⟩ := q
    rw [appendAt_cons]
    by_cases hk : k = key
    · grind
    · grind

theorem mem_keys_foldl_appendAt (label : I → G) (value : I → A) (is : List I)
    (d : List (G × List A)) (g : G) :
    g ∈ (is.foldl (fun d i => appendAt d (label i) (value i)) d).map Prod.fst ↔
      g ∈ d.map Prod.fst ∨ ∃ i ∈ is, label i = g := by
  induction is generalizing d with
  | nil => simp
  | cons i is ih =>
    rw [foldl_cons, ih, mem_keys_appendAt, or_assoc]
    apply or_congr_right
    constructor
    · grind
    · grind

theorem nodup_keys_appendAt
    (h : (d.map Prod.fst).Nodup) : ((appendAt d key a).map Prod.fst).Nodup := by
  induction d with
  | nil => simp
  | cons q rest ih =>
    obtain ⟨k, as⟩ := q
    rw [appendAt_cons]
    rw [map_cons, nodup_cons] at h
    by_cases hk : k = key
    · grind
    · rw [if_neg hk, map_cons, nodup_cons, mem_keys_appendAt]
      exact ⟨fun hmem => hmem.elim h.1 hk, ih h.2⟩

theorem nodup_keys_foldl_appendAt (label : I → G) (value : I → A) (is : List I)
    (d : List (G × List A)) (h : (d.map Prod.fst).Nodup) :
    ((is.foldl (fun d i => appendAt d (label i) (value i)) d).map Prod.fst).Nodup := by
  induction is generalizing d with
  | nil => exact h
  | cons i is ih => exact ih _ (nodup_keys_appendAt h)

theorem listAt_eq_nil (h : g ∉ d.map Prod.fst) : listAt d g = [] := by
  induction d with
  | nil => rfl
  | cons p rest ih =>
    rw [map_cons, mem_cons, not_or] at h
    rw [listAt_cons, if_neg h.1, ih h.2]

theorem listAt_of_mem (hkeys : (d.map Prod.fst).Nodup) {p : G × List A}
    (hp : p ∈ d) : listAt d p.1 = p.2 := by
  induction d with
  | nil => cases hp
  | cons q rest ih =>
    rw [listAt_cons]
    rcases mem_cons.1 hp with rfl | hrest
    · rw [if_pos rfl]
    · grind

theorem lookup_eq_listAt (h : listAt d g ≠ []) : d.lookup g = some (listAt d g) := by
  unfold listAt at *
  cases hd : d.lookup g with
  | none =>
    rw [hd] at h
    exact absurd rfl h
  | some as => rfl

theorem lookup_map_snd {B : Type} (f : A → B) (d : List (G × A)) (g : G) :
    (d.map fun p => (p.1, f p.2)).lookup g = (d.lookup g).map f := by
  induction d with
  | nil => rfl
  | cons p d ih =>
    rw [map_cons, lookup_cons, lookup_cons]
    cases g == p.1 with
    | true => rfl
    | false => exact ih

/-! ## Sums over the samples of a label -/

theorem toFinset_filter_finRange (p : Fin n → Prop) [DecidablePred p] :
    ((finRange n).filter fun i => p i).toFinset = Finset.univ.filter p := by
  ext i
  simp

theorem sum_map_filter_finRange {K : Type} [AddCommMonoid K] (p : Fin n → Prop)
    [DecidablePred p] (value : Fin n → K) :
    (((finRange n).filter fun i => p i).map value).sum = ∑ i with p i, value i := by
  rw [← toFinset_filter_finRange p]
  exact (sum_toFinset value ((nodup_finRange n).filter _)).symm

theorem length_filter_finRange (p : Fin n → Prop) [DecidablePred p] :
    ((finRange n).filter fun i => p i).length = (Finset.univ.filter p).card := by
  rw [← toFinset_filter_finRange p]
  exact (toFinset_card_of_nodup ((nodup_finRange n).filter _)).symm

/-! ## Loops that assign every entry -/

theorem foldl_update [DecidableEq I] (f : I → A → A) (is : List I) (hnd : is.Nodup)
    (xs : I → A) (i : I) :
    is.foldl (fun xs i => Function.update xs i (f i (xs i))) xs i =
      if i ∈ is then f i (xs i) else xs i := by
  induction is generalizing xs with
  | nil => simp
  | cons j is ih =>
    obtain ⟨hj, hnd⟩ := nodup_cons.1 hnd
    rw [foldl_cons, ih hnd]
    by_cases hij : i = j
    · subst hij
      simp [hj]
    · simp [hij]

theorem foldl_update_finRange (f : Fin n → A → A) (xs : Fin n → A) :
    (finRange n).foldl (fun xs i => Function.update xs i (f i (xs i))) xs =
      fun i => f i (xs i) := by
  funext i
  rw [foldl_update f _ (nodup_finRange n), if_pos (mem_finRange i)]

/-- A loop over the labels, a turn of which assigns the rows of its label: a row is assigned in the
turn of its own label. -/
theorem foldl_groups {B : Type} [DecidableEq I] (label : I → G) {d : List (G × List I)}
    (hkeys : (d.map Prod.fst).Nodup) (hlabel : ∀ p ∈ d, ∀ i ∈ p.2, label i = p.1)
    {step : (I → B) → List I → I → B} {row : List I → I → B → B}
    (hstep : ∀ b g i, step b g i = if i ∈ g then row g i (b i) else b i) (b : I → B) (i : I) :
    d.foldl (fun b p => step b p.2) b i =
      if i ∈ listAt d (label i) then row (listAt d (label i)) i (b i) else b i := by
  induction d generalizing b with
  | nil => rfl
  | cons p rest ih =>
    obtain ⟨k, as⟩ := p
    rw [map_cons, nodup_cons] at hkeys
    rw [foldl_cons, ih hkeys.2 fun p hp => hlabel p (mem_cons_of_mem _ hp), listAt_cons,
      hstep]
    by_cases hk : label i = k
    · have hnil : listAt rest (label i) = [] := listAt_eq_nil (hk ▸ hkeys.1)
      rw [if_pos hk, hnil, if_neg not_mem_nil]
    · have hi : i ∉ as := fun hi => hk (hlabel _ mem_cons_self i hi)
      rw [if_neg hk, if_neg hi]

theorem label_of_mem_foldl_appendAt (label : I → G) (is : List I) {p : G × List I}
    (hp : p ∈ is.foldl (fun d i => appendAt d (label i) i) []) {i : I} (hi : i ∈ p.2) :
    label i = p.1 := by
  have hkeys := nodup_keys_foldl_appendAt label id is [] nodup_nil
  have hlist := listAt_foldl_appendAt label id is [] p.1
  rw [listAt_of_mem hkeys hp, listAt_nil, nil_append, map_id] at hlist
  rw [hlist, mem_filter, decide_eq_true_iff] at hi
  exact hi.2

/-! ## Numbers of labels -/

section Unique

variable {G : Type} [LinearOrder G] {n : Nat}

/-- `np.unique`. -/
def unique (label : Fin n → G) : List G := (Finset.univ.image label).sort (· ≤ ·)

/-- `np.unique(label, return_inverse=True)[1]`. -/
def uniqueInverse (label : Fin n → G) (i : Fin n) : Nat := (unique label).idxOf (label i)

theorem mem_unique (label : Fin n → G) (i : Fin n) : label i ∈ unique label := by
  unfold unique
  rw [Finset.mem_sort]
  exact Finset.mem_image_of_mem label (Finset.mem_univ i)

/-- Two samples have one number exactly when they have one label. -/
theorem uniqueInverse_eq_iff (label : Fin n → G) (i j : Fin n) :
    uniqueInverse label i = uniqueInverse label j ↔ label i = label j := by
  unfold uniqueInverse
  rw [idxOf_inj (mem_unique label i)]

/-- The number of different labels. -/
def numLabels {L : Type} [DecidableEq L] (label : Fin n → L) : Nat := (Finset.univ.image label).card

theorem uniqueInverse_lt (label : Fin n → G) (i : Fin n) :
    uniqueInverse label i < numLabels label := by
  have hlength : (unique label).length = numLabels label := Finset.length_sort _
  rw [← hlength]
  exact idxOf_lt_length_of_mem (mem_unique label i)

section

variable {L M : Type} [DecidableEq L] [DecidableEq M] {label : Fin n → L} {other : Fin n → M}

theorem numLabels_le (h : ∀ i j, label i = label j → other i = other j) :
    numLabels other ≤ numLabels label := by
  have hpairs : (Finset.univ.image fun i => (label i, other i)).card = numLabels label := by
    unfold numLabels
    rw [show label = Prod.fst ∘ fun i => (label i, other i) from rfl, ← Finset.image_image]
    apply (Finset.card_image_of_injOn _).symm
    intro p hp q hq heq
    obtain ⟨i, -, rfl⟩ := Finset.mem_image.1 (Finset.mem_coe.1 hp)
    obtain ⟨j, -, rfl⟩ := Finset.mem_image.1 (Finset.mem_coe.1 hq)
    exact Prod.ext heq (h i j heq)
  rw [← hpairs]
  unfold numLabels
  rw [show other = Prod.snd ∘ fun i => (label i, other i) from rfl, ← Finset.image_image]
  exact Finset.card_image_le

theorem numLabels_congr (h : ∀ i j, label i = label j ↔ other i = other j) :
    numLabels label = numLabels other :=
  le_antisymm (numLabels_le fun i j => (h i j).2) (numLabels_le fun i j => (h i j).1)

end

/-- The ids are equal exactly where the labels are, and they are `0..G-1` for `G` labels. -/
structure IsFactorization {L : Type} [DecidableEq L] (ids : Fin n → Int) (label : Fin n → L) :
    Prop where
  eq_iff : ∀ i j, ids i = ids j ↔ label i = label j
  image : Finset.univ.image ids = Finset.Ico 0 (numLabels label : Int)

theorem isFactorization_iff {L : Type} [DecidableEq L] (ids : Fin n → Int) (label : Fin n → L) :
    IsFactorization ids label ↔ (∀ i j, ids i = ids j ↔ label i = label j) ∧
      ∀ i, 0 ≤ ids i ∧ ids i < numLabels label := by
  constructor
  · intro h
    refine ⟨h.eq_iff, fun i => Finset.mem_Ico.1 ?_⟩
    rw [← h.image]
    exact Finset.mem_image_of_mem ids (Finset.mem_univ i)
  · rintro ⟨heq, hbound⟩
    refine ⟨heq, Finset.eq_of_subset_of_card_le ?_ ?_⟩
    · grind
    · rw [Int.card_Ico]
      exact (numLabels_congr heq).ge

/-- `np.unique` factorizes whatever tells the labels apart. -/
theorem isFactorization_uniqueInverse_iff {L : Type} [DecidableEq L] (key : Fin n → G)
    (label : Fin n → L) :
    IsFactorization (fun i => (uniqueInverse key i : Int)) label ↔
      ∀ i j, key i = key j ↔ label i = label j := by
  rw [isFactorization_iff]
  simp only [Int.natCast_inj, uniqueInverse_eq_iff]
  refine ⟨And.left, fun h => ⟨h, fun i => ⟨Int.natCast_nonneg _, ?_⟩⟩⟩
  rw [← numLabels_congr h, Int.ofNat_lt]
  exact uniqueInverse_lt key i

end Unique

/-- `torch.bincount(inv, weights=weights)`. -/
def bincount {K : Type} [AddCommMonoid K] {n : Nat} (inv : Fin n → Nat) (weights : Fin n → K) :
    List K :=
  (List.range (Finset.univ.sup fun i => inv i + 1)).map fun number =>
    ∑ i with inv i = number, weights i

/-- `bincount[inv]` at `i`: the sum over all samples with the number of `i`. -/
theorem getElem?_bincount {K : Type} [AddCommMonoid K] {n : Nat} (inv : Fin n → Nat)
    (weights : Fin n → K) (i : Fin n) :
    (bincount inv weights)[inv i]? = some (∑ j with inv j = inv i, weights j) := by
  have hlt : inv i < Finset.univ.sup fun i => inv i + 1 :=
    Finset.le_sup (f := fun i => inv i + 1) (Finset.mem_univ i)
  unfold bincount
  rw [getElem?_map, getElem?_range hlt]
  rfl

/-! ## Mean and variance -/

section Moments

variable {I K : Type} [Field K]

def sampleMean (group : Finset I) (value : I → K) : K := (∑ i ∈ group, value i) / group.card

/-- With the Bessel correction. -/
def sampleVariance (group : Finset I) (value : I → K) : K :=
  (∑ i ∈ group, (value i - sampleMean group value) ^ 2) / (group.card - 1)

/-- The sum of the squared deviations from the sum and the sum of the squares. -/
theorem sum_sub_sampleMean_sq (group : Finset I) (value : I → K) (h : (group.card : K) ≠ 0) :
    ∑ i ∈ group, (value i - sampleMean group value) ^ 2 =
      ∑ i ∈ group, value i * value i -
        (∑ i ∈ group, value i) * (∑ i ∈ group, value i) / group.card := by
  have hsum : sampleMean group value * group.card = ∑ i ∈ group, value i :=
    div_mul_cancel₀ _ h
  calc ∑ i ∈ group, (value i - sampleMean group value) ^ 2
      = ∑ i ∈ group, (value i * value i - 2 * sampleMean group value * value i +
          sampleMean group value ^ 2) := by grind
    _ = ∑ i ∈ group, value i * value i -
          2 * sampleMean group value * ∑ i ∈ group, value i +
          group.card * sampleMean group value ^ 2 := by
        rw [Finset.sum_add_distrib, Finset.sum_sub_distrib, ← Finset.mul_sum, Finset.sum_const,
          nsmul_eq_mul]
    _ = _ := by grind

section

variable {group : Finset I} (value : I → K) (h : (group.card : K) ≠ 0)
include h

theorem sum_sub_sampleMean : ∑ i ∈ group, (value i - sampleMean group value) = 0 := by
  unfold sampleMean
  rw [Finset.sum_sub_distrib, Finset.sum_const, nsmul_eq_mul, mul_div_cancel₀ _ h, sub_self]

theorem sampleMean_add_const (c : K) :
    sampleMean group (fun i => value i + c) = sampleMean group value + c := by
  unfold sampleMean
  rw [Finset.sum_add_distrib, Finset.sum_const, nsmul_eq_mul, add_div, mul_div_cancel_left₀ _ h]

theorem sampleVariance_add_const (c : K) :
    sampleVariance group (fun i => value i + c) = sampleVariance group value := by
  unfold sampleVariance
  simp only [sampleMean_add_const value h, add_sub_add_right_eq_sub]

end

theorem sampleMean_map {J : Type} (f : I ↪ J) (group : Finset I) (value : J → K) :
    sampleMean (group.map f) value = sampleMean group fun i => value (f i) := by
  unfold sampleMean
  rw [Finset.sum_map, Finset.card_map]

theorem sampleVariance_map {J : Type} (f : I ↪ J) (group : Finset I) (value : J → K) :
    sampleVariance (group.map f) value = sampleVariance group fun i => value (f i) := by
  unfold sampleVariance
  rw [Finset.sum_map, Finset.card_map, sampleMean_map]

section

variable {group : Finset I} {value value' : I → K} (h : ∀ i ∈ group, value i = value' i)
include h

theorem sampleMean_congr : sampleMean group value = sampleMean group value' := by
  unfold sampleMean
  rw [Finset.sum_congr rfl h]

theorem sampleVariance_congr : sampleVariance group value = sampleVariance group value' := by
  unfold sampleVariance
  rw [sampleMean_congr h]
  congr 1
  exact Finset.sum_congr rfl fun i hi => by rw [h i hi]

end

variable [LinearOrder K] [IsStrictOrderedRing K]

theorem sampleVariance_nonneg {group : Finset I} (value : I → K) (h : 1 ≤ group.card) :
    0 ≤ sampleVariance group value := by
  have hcard : (1 : K) ≤ group.card := by exact_mod_cast h
  apply div_nonneg
  · exact Finset.sum_nonneg fun i _ => sq_nonneg _
  · exact sub_nonneg.mpr hcard

end Moments

end Verl
