import Verl.Lib.Grouping
import Verl.Lib.Python

/-! # Group labels and group statistics (`verl/utils/groupwise.py`)

* `asTorchIndex`: labels of any dtype as numbers.
* `groupMeanStd`: mean, standard deviation and size of every group, from the sums over the
  groups; the variance has a floor.

Where no number is negative, `groupMeanStd_eq` gives the statistics of the groups, and
`indexRows_range` what a sample reads back. -/

namespace Verl

open List

/-! ## Labels -/

/-- A group index by its dtype; `object` is every dtype but integers and floats. -/
inductive GroupIndex (G : Type) (n : Nat) where
  | integer (labels : Fin n → Int)
  | floating (labels : Fin n → ℚ)
  | object (labels : Fin n → G)

/-- One label, as a key of a dictionary. -/
inductive Label (G : Type) where
  | integer (label : Int)
  | floating (label : ℚ)
  | object (label : G)
  deriving DecidableEq

instance {G : Type} [ToString G] : ToString (Label G) where
  toString
    | .integer label => toString label
    | .floating label => toString label
    | .object label => toString label

def GroupIndex.label {G : Type} {n : Nat} : GroupIndex G n → Fin n → Label G
  | integer labels, i => .integer (labels i)
  | floating labels, i => .floating (labels i)
  | object labels, i => .object (labels i)

/-- What numpy asks of a label that is neither an integer nor a float. -/
structure LabelType (G : Type) where
  /-- `int(label)`, where it does not raise. -/
  toInt64? : G → Option Int
  /-- `<` does not raise. -/
  comparable : G → G → Bool
  str : G → String

/-- `np.rint`. -/
def rint (x : ℚ) : Int :=
  let fraction := x - ⌊x⌋
  if fraction < 1 / 2 then ⌊x⌋
  else if 1 / 2 < fraction then ⌊x⌋ + 1
  else if 2 ∣ ⌊x⌋ then ⌊x⌋
  else ⌊x⌋ + 1

/-- `x.astype(np.int64)` drops the fraction. -/
def truncate (x : ℚ) : Int := x.num.tdiv x.den

section Labels

variable {G : Type} [LinearOrder G] {n : Nat}

def asTorchIndex (labelType : LabelType G) : GroupIndex G n → Fin n → Int
  | .integer labels => labels
  | .floating labels =>
    if ∀ i, |labels i - rint (labels i)| ≤ 1 / 10 ^ 6 then fun i => rint (labels i)
    else fun i => truncate (labels i)
  | .object labels =>
    if h : ∀ i, (labelType.toInt64? (labels i)).isSome then
      fun i => (labelType.toInt64? (labels i)).get (h i)
    else if ∀ i j, labelType.comparable (labels i) (labels j) then
      fun i => uniqueInverse labels i
    else fun i => uniqueInverse (fun j => labelType.str (labels j)) i

/-- Two samples have one number only if they have one label, and no number is negative. -/
def KeepsGroups (labelType : LabelType G) (index : GroupIndex G n) : Prop :=
  (∀ i, 0 ≤ asTorchIndex labelType index i) ∧
    ∀ i j, asTorchIndex labelType index i = asTorchIndex labelType index j →
      index.label i = index.label j

theorem keepsGroups_object {labelType : LabelType G} {labels : Fin n → G} {i : Fin n}
    (hstr : labelType.toInt64? (labels i) = none)
    (hcomp : ∀ i j, labelType.comparable (labels i) (labels j)) :
    KeepsGroups labelType (.object labels) := by
  have hnot : ¬∀ i, (labelType.toInt64? (labels i)).isSome := by grind
  have hindex : asTorchIndex labelType (.object labels) =
      fun i => (uniqueInverse labels i : Int) := by
    simp only [asTorchIndex]
    rw [dif_neg hnot, if_pos hcomp]
  unfold KeepsGroups
  rw [hindex]
  refine ⟨fun i => Int.natCast_nonneg _, fun i j h => ?_⟩
  have heq := (uniqueInverse_eq_iff labels i j).mp (Int.natCast_inj.mp h)
  exact congrArg Label.object heq

theorem asTorchIndex_eq_of_label (labelType : LabelType G) (index : GroupIndex G n) {i j : Fin n}
    (h : index.label i = index.label j) :
    asTorchIndex labelType index i = asTorchIndex labelType index j := by
  cases index with
  | integer labels => exact Label.integer.inj h
  | floating labels =>
    have heq : labels i = labels j := Label.floating.inj h
    simp only [asTorchIndex]
    split
    · exact congrArg rint heq
    · exact congrArg truncate heq
  | object labels =>
    have heq : labels i = labels j := Label.object.inj h
    simp only [asTorchIndex]
    split
    · simp only [heq]
    · split
      · exact congrArg Nat.cast ((uniqueInverse_eq_iff labels i j).mpr heq)
      · exact congrArg Nat.cast ((uniqueInverse_eq_iff _ i j).mpr (congrArg labelType.str heq))

theorem KeepsGroups.eq_iff {labelType : LabelType G} {index : GroupIndex G n}
    (h : KeepsGroups labelType index) (i j : Fin n) :
    asTorchIndex labelType index i = asTorchIndex labelType index j ↔
      index.label i = index.label j :=
  ⟨h.2 i j, asTorchIndex_eq_of_label labelType index⟩

end Labels

/-! ## Statistics -/

section Statistics

variable {K : Type} [Field K] {n : Nat}

/-- `torch.zeros(size).index_add_(0, gidx, values)`. -/
def indexAdd (size : Nat) (gidx : Fin n → Int) (values : Fin n → K) : Except PyErr (List K) :=
  if ∀ i, 0 ≤ gidx i ∧ gidx i < size then
    .ok ((List.range size).map fun g : Nat => ∑ i with gidx i = g, values i)
  else .error .indexError

/-- The number of groups `G`. -/
def numGroups (gidx : Fin n → Int) : Int :=
  match ((List.finRange n).map gidx).max? with
  | none => 0
  | some largest => largest + 1

/-- `(mean, std, count)`; the square root is a parameter. -/
def groupMeanStd [LinearOrder K] (sqrt : K → K) (scores : Fin n → K) (gidx : Fin n → Int)
    (eps : K) : Except PyErr (List K × List K × List K) := do
  let size := numGroups gidx
  if size = 0 then .ok ([], [], [])
  else if size < 0 then .error (.runtimeError "Trying to create tensor with negative dimension")
  else
    let count ← indexAdd size.toNat gidx fun _ => 1
    let s1 ← indexAdd size.toNat gidx scores
    let s2 ← indexAdd size.toNat gidx fun i => scores i * scores i
    let mean := List.zipWith (fun s1 count => s1 / max count 1) s1 count
    let square := List.zipWith (fun s1 count => s1 * s1 / max count 1) s1 count
    let varNum := List.zipWith (· - ·) s2 square
    let var := List.zipWith (fun varNum count => varNum / max (count - 1) 1) varNum count
    let std := var.map fun var => sqrt (max var eps)
    -- singleton groups
    let mean := List.zipWith (fun mean count => if count ≤ 1 then 0 else mean) mean count
    let std := List.zipWith (fun std count => if count ≤ 1 then 1 else std) std count
    return (mean, std, count)

/-- `xs[g]`; an index may count from the end. -/
def indexRows (xs : List K) (g : Fin n → Int) : Except PyErr (Fin n → K) :=
  if ∀ i, -xs.length ≤ g i ∧ g i < xs.length then
    .ok fun i => (xs[(g i % xs.length).toNat]?).getD 0
  else .error .indexError

theorem lt_numGroups (gidx : Fin n → Int) (i : Fin n) : gidx i < numGroups gidx := by
  have hmem : gidx i ∈ (finRange n).map gidx := mem_map_of_mem (mem_finRange i)
  unfold numGroups
  cases hmax : ((finRange n).map gidx).max? with
  | none =>
    rw [max?_eq_none_iff] at hmax
    rw [hmax] at hmem
    cases hmem
  | some largest =>
    have hle := (max?_eq_some_iff.mp hmax).2 _ hmem
    show gidx i < largest + 1
    omega

theorem exists_numGroups_eq {gidx : Fin n → Int} (h : ∀ i, 0 ≤ gidx i) :
    ∃ size : Nat, numGroups gidx = size := by
  apply Int.eq_ofNat_of_zero_le
  unfold numGroups
  cases hmax : ((finRange n).map gidx).max? with
  | none => exact Int.le_refl 0
  | some largest =>
    obtain ⟨i, -, rfl⟩ := mem_map.mp (max?_eq_some_iff.mp hmax).1
    have hi := h i
    show 0 ≤ gidx i + 1
    omega

theorem indexAdd_eq {gidx : Fin n → Int} (h : ∀ i, 0 ≤ gidx i) {size : Nat}
    (hsize : numGroups gidx = size) (values : Fin n → K) :
    indexAdd size gidx values =
      .ok ((range size).map fun g : Nat => ∑ i with gidx i = g, values i) := by
  apply if_pos
  intro i
  have hlt := lt_numGroups gidx i
  exact ⟨h i, by omega⟩

variable [LinearOrder K]

/-- The mean that `groupMeanStd` gives to a group. -/
def meanOf (count s1 : K) : K := if count ≤ 1 then 0 else s1 / max count 1

/-- The standard deviation that `groupMeanStd` gives to a group. -/
def stdOf (sqrt : K → K) (eps count s1 s2 : K) : K :=
  if count ≤ 1 then 1
  else sqrt (max ((s2 - s1 * s1 / max count 1) / max (count - 1) 1) eps)

theorem groupMeanStd_eq (sqrt : K → K) (scores : Fin n → K) {gidx : Fin n → Int} (eps : K)
    (h : ∀ i, 0 ≤ gidx i) {size : Nat} (hsize : numGroups gidx = size) :
    groupMeanStd sqrt scores gidx eps = .ok
      ((range size).map fun g : Nat =>
          meanOf (∑ i with gidx i = g, 1) (∑ i with gidx i = g, scores i),
        (range size).map fun g : Nat =>
          stdOf sqrt eps (∑ i with gidx i = g, 1) (∑ i with gidx i = g, scores i)
            (∑ i with gidx i = g, scores i * scores i),
        (range size).map fun g : Nat => ∑ i with gidx i = g, 1) := by
  unfold groupMeanStd
  rw [hsize]
  cases size with
  | zero => rfl
  | succ k =>
    have hne : ¬((k + 1 : Nat) : Int) = 0 := by omega
    have hneg : ¬((k + 1 : Nat) : Int) < 0 := by omega
    simp only [Int.toNat_natCast, indexAdd_eq h hsize, ok_bind]
    simp only [zipWith_map_left, zipWith_map_right, zipWith_self]
    rfl

omit [LinearOrder K] in
theorem indexRows_range {gidx : Fin n → Int} (h : ∀ i, 0 ≤ gidx i) {size : Nat}
    (hsize : numGroups gidx = size) (f : Nat → K) :
    indexRows ((range size).map f) gidx = .ok fun i => f (gidx i).toNat := by
  have hbound : ∀ i, -(((range size).map f).length : Int) ≤ gidx i ∧
      gidx i < ((range size).map f).length := by
    intro i
    have hi := h i
    have hlt := lt_numGroups gidx i
    rw [length_map, length_range]
    omega
  unfold indexRows
  rw [if_pos hbound]
  congr 1
  funext i
  have hlt := (hbound i).2
  rw [Int.emod_eq_of_lt (h i) hlt]
  rw [length_map, length_range] at hlt
  rw [getElem?_map, getElem?_range (by have := h i; omega)]
  rfl

end Statistics

end Verl
