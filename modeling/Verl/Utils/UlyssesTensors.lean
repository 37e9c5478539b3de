import Verl.Lib.NdTensor
import Verl.Utils.Ulysses

/-! # Ulysses sequence parallelism on tensors (`verl/utils/ulysses.py`)

A function of the ranks of a group takes the tensors of all of them and a rank, and gives what that
rank returns.

    inputs     pad, slice          [1, L]          → [1, L'/s]
    attention  gather seq          [b, n, h, ...]  → [b, s*n, h/s, ...]
               gather heads        [b, s*n, h/s, ...] → [b, n, h, ...]
    outputs    gather, unpad       [L'/s, ...]     → [L, ...]

* `gatherHeadsScatterSeq_gatherSeqScatterHeads`: one all-to-all undoes the other. -/

namespace Verl.Ulysses

open NdTensor Function

/-! ## Algorithm -/

section Algorithm

variable {n m s : Nat} {α : Type}

/-- `_pad_tensor`. -/
def padTensor [Zero α] (x : NdTensor n α) (dim : Fin n) (paddingSize : Nat) : NdTensor n α :=
  x.append (.ofFn (Function.update x.shape dim paddingSize) fun _ => 0) dim
    (agreeOff_update dim x.shape paddingSize).symm

/-- `_unpad_tensor`. -/
def unpadTensor (x : NdTensor n α) (dim : Fin n) (paddingSize : Int) : NdTensor n α :=
  x.slice dim 0 (clipBound (x.shape dim) 1 (-paddingSize)).toNat

def sliceInputTensor [Zero α] (spWorldSize spRank : Nat) (x : NdTensor n α) (dim : Fin n)
    (padding : Bool) : NdTensor n α :=
  let x := if padding && x.shape dim % spWorldSize != 0 then
    padTensor x dim (spWorldSize - x.shape dim % spWorldSize) else x
  let parts := x.shape dim / spWorldSize
  x.slice dim (spRank * parts) ((spRank + 1) * parts)

/-- `torch.tensor_split(t, sections, dim)`, its part `i`. -/
def tensorSplit (t : NdTensor n α) (sections : Nat) (dim : Fin n) (i : Nat) : NdTensor n α :=
  let size := t.shape dim / sections
  let rest := t.shape dim % sections
  t.slice dim (i * size + min i rest) ((i + 1) * size + min (i + 1) rest)

def allToAllTensor (localInput : Fin s → NdTensor n α) (scatterDim gatherDim : Fin n)
    (rank : Fin s) : Except PyErr (NdTensor n α) :=
  let outputList := (List.finRange s).map fun j => tensorSplit (localInput j) s scatterDim rank
  -- the buffers have the shape of the first part of this rank
  if outputList.all (·.shape = (tensorSplit (localInput rank) s scatterDim 0).shape) then
    cat gatherDim outputList
  else .error (.runtimeError "all_to_all")

def gatherSeqScatterHeads (x : Fin s → NdTensor n α) (seqDim headDim : Fin n)
    (unpaddedDimSize : Nat) (rank : Fin s) : Except PyErr (NdTensor n α) := do
  let x ← allToAllTensor x headDim seqDim rank
  if unpaddedDimSize ≠ 0 ∧ unpaddedDimSize % s ≠ 0 then
    return unpadTensor x seqDim (x.shape seqDim - unpaddedDimSize)
  else return x

def gatherHeadsScatterSeq [Zero α] (x : Fin s → NdTensor n α) (headDim seqDim : Fin n)
    (rank : Fin s) : Except PyErr (NdTensor n α) :=
  let padded := fun rank =>
    let dimSize := (x rank).shape seqDim
    if dimSize % s ≠ 0 then padTensor (x rank) seqDim (s - dimSize % s) else x rank
  allToAllTensor padded seqDim headDim rank

def allGatherTensor (localTensor : Fin s → NdTensor (n + 1) α) (rank : Fin s) :
    Except PyErr (NdTensor (n + 1) α) :=
  if ∀ j, (localTensor j).shape = (localTensor rank).shape then
    cat 0 ((List.finRange s).map localTensor)
  else .error (.runtimeError "all_gather_into_tensor")

/-- `t.split(splitSize, dim=0)`; a size of zero is for a dimension without entries. -/
def split (t : NdTensor (n + 1) α) (splitSize : Nat) : List (NdTensor (n + 1) α) :=
  let numSplits := if splitSize = 0 then 1 else max ((t.shape 0 + splitSize - 1) / splitSize) 1
  (List.range numSplits).map fun i => t.slice 0 (i * splitSize) ((i + 1) * splitSize)

/-- `Gather.forward`. -/
def gather (localTensor : Fin s → NdTensor (n + 1) α) (gatherDim : Fin (n + 1)) (rank : Fin s) :
    Except PyErr (NdTensor (n + 1) α) := do
  let output ← allGatherTensor localTensor rank
  cat gatherDim (split output ((localTensor rank).shape 0))

def gatherOutputsAndUnpad (x : Fin s → NdTensor (n + 1) α) (gatherDim : Fin (n + 1))
    (unpadDim : Option (Fin (n + 1))) (paddingSize : Nat) (rank : Fin s) :
    Except PyErr (NdTensor (n + 1) α) := do
  let x ← gather x gatherDim rank
  match unpadDim with
  | none => return x
  | some dim => if paddingSize = 0 then return x else return unpadTensor x dim paddingSize

/-- `torch.cat((position_ids_rmpad, pad_pos_ids), dim=-1)`, every row of which counts from zero. -/
def padPositionIds (positionIds : NdTensor (m + 2) Nat) (padSize : Nat) : NdTensor (m + 2) Nat :=
  positionIds.append (.ofFn (Function.update positionIds.shape (Fin.last _) padSize)
    fun ix => ix (Fin.last _)) (Fin.last _) (agreeOff_update _ positionIds.shape padSize).symm

/-- `ulysses_pad`; the position ids have two or three dimensions. -/
def ulyssesPad (inputIds : NdTensor 2 α) (positionIds : Option (NdTensor (m + 2) Nat))
    (spSize : Nat) (padValue : α) :
    Except PyErr (NdTensor 2 α × Option (NdTensor (m + 2) Nat) × Nat) := do
  if let some p := positionIds then
    pyAssert (p.shape (Fin.last m).castSucc = 1) ""
    pyAssert (inputIds.shape 1 = p.shape (Fin.last (m + 1))) ""
  let padSize := ulyssesPadSize spSize (inputIds.shape 1)
  if 0 < padSize then
    return (inputIds.append (.ofFn (Function.update inputIds.shape 1 padSize) fun _ => padValue) 1
      (agreeOff_update 1 inputIds.shape padSize).symm,
      positionIds.map fun p => padPositionIds p padSize, padSize)
  else return (inputIds, positionIds, padSize)

/-- `ulysses_pad_and_slice_inputs`, on a rank. -/
def ulyssesPadAndSliceInputs [Zero α] (inputIds : NdTensor 2 α)
    (positionIds : Option (NdTensor (m + 2) Nat)) (spSize : Nat) (skipPositionIds : Bool)
    (padValue : α) (spRank : Nat) :
    Except PyErr (NdTensor 2 α × Option (NdTensor (m + 2) Nat) × Nat) := do
  let (inputIds, positionIds, padSize) ← ulyssesPad inputIds positionIds spSize padValue
  let inputIds := sliceInputTensor spSize spRank inputIds 1 false
  let positionIds := if skipPositionIds then positionIds
    else positionIds.map fun p => sliceInputTensor spSize spRank p 1 false
  return (inputIds, positionIds, padSize)

end Algorithm

/-! ## Property -/

section Property

variable {n m s : Nat} {α β : Type}

/-- `y` has along `g` what `f` makes of the positions that `x` has along `d`. -/
structure PositionWise (f : NdTensor n α → NdTensor m β) (d : Fin n) (g : Fin m)
    (x : NdTensor n α) (y : NdTensor m β) : Prop where
  size : y.shape g = x.shape d
  position : ∀ i, i < x.shape d → y.slice g i (i + 1) = f (x.slice d i (i + 1))

/-- What the ranks computed at the positions of their shards, in tensors of one shape; a batch
dimension in front of the positions is not empty. -/
structure Outputs (f : NdTensor n α → NdTensor (m + 1) β) (d : Fin n) (g : Fin (m + 1))
    (shards : Fin s → NdTensor n α) (outputs : Fin s → NdTensor (m + 1) β) : Prop where
  positionWise : ∀ rank, PositionWise f d g (shards rank) (outputs rank)
  shape : ∀ rank rank', (outputs rank).shape = (outputs rank').shape
  batch : g ≠ 0 → ∀ rank, 0 < (outputs rank).shape 0

/-- What the ranks compute at the positions of their shards, gathered and without the padding, is on
every rank what is computed at the positions of `x`, in their order. -/
def GathersBack (d : Fin n) (x : NdTensor n α) (shards : Fin s → NdTensor n α)
    (padSize : Nat) : Prop :=
  ∀ (m : Nat) (β : Type) (f : NdTensor n α → NdTensor (m + 1) β) (g : Fin (m + 1))
    (outputs : Fin s → NdTensor (m + 1) β), Outputs f d g shards outputs →
      ∃ y, (∀ rank, gatherOutputsAndUnpad outputs g (some g) padSize rank = .ok y) ∧
        PositionWise f d g x y

/-- The position ids that go with input ids. -/
def MatchesInput (inputIds : NdTensor 2 α) (positionIds : NdTensor (m + 2) Nat) : Prop :=
  positionIds.shape (Fin.last m).castSucc = 1 ∧
    inputIds.shape 1 = positionIds.shape (Fin.last (m + 1))

end Property

/-! ## Lemmas -/

section Lemmas

variable {n m s : Nat} {α β : Type}

variable {p len : Nat} {d : Fin n} {x z : NdTensor n α}

variable {xs : Fin s → NdTensor (n + 1) α} {shape : Fin (n + 1) → Nat}

theorem gather_eq (hshape : ∀ rank, (xs rank).shape = shape) {g : Fin (n + 1)} (hbatch : g ≠ 0 → 0 < shape 0)
    (rank : Fin s) : gather xs g rank = .ok (glue xs shape hshape g) := by
  have hs : 0 < s := Nat.lt_of_le_of_lt (Nat.zero_le _) rank.isLt
  have hall : allGatherTensor xs rank = .ok (glue xs shape hshape 0) := by
    unfold allGatherTensor
    rw [if_pos fun j => (hshape j).trans (hshape rank).symm, cat_eq_glue hshape 0 hs]
  unfold gather split
  rw [hall, ok_bind, hshape, size_glue]
  by_cases hzero : shape 0 = 0
  · obtain rfl : g = 0 := by omega
    have hwhole : (glue xs shape hshape 0).shape 0 ≤ (0 + 1) * shape 0 := by
      rw [size_glue, hzero]
      exact Nat.le_refl _
    rw [if_pos hzero]
    dsimp only
    rw [List.range_one, List.map_singleton, Nat.zero_mul, slice_zero hwhole]
    rfl
  · have hpos := Nat.pos_of_ne_zero hzero
    have hnum : max ((s * shape 0 + shape 0 - 1) / shape 0) 1 = s := by
      rw [Nat.add_sub_assoc hpos, Nat.mul_comm, Nat.mul_add_div hpos,
        Nat.div_eq_of_lt (Nat.sub_lt hpos Nat.one_pos)]
      exact Nat.max_eq_left hs
    have hpieces : ((List.range s).map fun i =>
        (glue xs shape hshape 0).slice 0 (i * shape 0) ((i + 1) * shape 0)) =
          (List.finRange s).map xs := by
      rw [← List.map_coe_finRange_eq_range, List.map_map]
      exact List.map_congr_left fun i _ => slice_glue hshape 0 i
    rw [if_neg hzero, hnum, hpieces, cat_eq_glue hshape g hs]

theorem unpadTensor_eq (x : NdTensor n α) (dim : Fin n) {paddingSize : Nat}
    (hpos : 0 < paddingSize) (hle : paddingSize ≤ x.shape dim) :
    unpadTensor x dim paddingSize = x.slice dim 0 (x.shape dim - paddingSize) := by
  unfold unpadTensor clipBound
  congr 1
  omega

theorem gatherOutputsAndUnpad_eq (hshape : ∀ rank, (xs rank).shape = shape) {g : Fin (n + 1)} (hbatch : g ≠ 0 → 0 < shape 0)
    {paddingSize : Nat} (hle : paddingSize ≤ s * shape g) (rank : Fin s) :
    gatherOutputsAndUnpad xs g (some g) paddingSize rank =
      .ok ((glue xs shape hshape g).slice g 0 (s * shape g - paddingSize)) := by
  unfold gatherOutputsAndUnpad
  rw [gather_eq hshape hbatch, ok_bind]
  dsimp only
  by_cases hzero : paddingSize = 0
  · rw [hzero, Nat.sub_zero, slice_zero (Nat.le_of_eq (size_glue hshape g))]
    rfl
  · have hle' : paddingSize ≤ (glue xs shape hshape g).shape g := (size_glue hshape g).symm ▸ hle
    rw [if_neg hzero, unpadTensor_eq _ g (Nat.pos_of_ne_zero hzero) hle', size_glue]
    rfl

/-- What was computed at the positions of the shards of `z`, put together without the last
positions. -/
theorem gatherOutputsAndUnpad_positionWise (hsize : z.shape d = s * p) (hlen : len ≤ s * p)
    {f : NdTensor n α → NdTensor (m + 1) β} {g : Fin (m + 1)} {outputs : Fin s → NdTensor (m + 1) β}
    (h : Outputs f d g (fun rank => z.slice d (rank * p) ((rank + 1) * p)) outputs) (hs : 0 < s) :
    ∃ y, (∀ rank, gatherOutputsAndUnpad outputs g (some g) (s * p - len) rank = .ok y) ∧
      PositionWise f d g (z.slice d 0 len) y := by
  have hshape : ∀ rank, (outputs rank).shape = (outputs ⟨0, hs⟩).shape := fun rank => h.shape _ _
  have hend : ∀ rank : Fin s, ((rank : Nat) + 1) * p ≤ s * p := fun rank =>
    Nat.mul_le_mul_right p rank.isLt
  have hshard : ∀ rank : Fin s, (z.slice d (rank * p) ((rank + 1) * p)).shape d = p := by
    intro rank
    rw [size_slice, hsize, Nat.min_eq_left (hend rank), Nat.succ_mul, Nat.add_sub_cancel_left]
  have hp : (outputs ⟨0, hs⟩).shape g = p := (h.positionWise ⟨0, hs⟩).size.trans (hshard ⟨0, hs⟩)
  refine ⟨_, gatherOutputsAndUnpad_eq hshape (fun hg => h.batch hg _) (by rw [hp]; omega), ?_, ?_⟩
  · rw [size_slice, size_slice, size_glue, hp]
    omega
  · intro i hi
    rw [size_slice] at hi
    have hppos : 0 < p := Nat.pos_of_mul_pos_left (a := s) (by omega)
    have hrank : i / p < s := (Nat.div_lt_iff_lt_mul hppos).2 (by omega)
    have hmod := Nat.mod_lt i hppos
    have hsplit : i / p * p + i % p = i := by
      rw [Nat.mul_comm]
      exact Nat.div_add_mod i p
    have hsucc : (i / p + 1) * p = i / p * p + p := Nat.succ_mul _ _
    have hposition := (h.positionWise ⟨i / p, hrank⟩).position (i % p)
      (by rw [hshard]; exact hmod)
    have hglue := slice_glue hshape g ⟨i / p, hrank⟩
    rw [hp] at hglue
    dsimp only at hglue hposition
    rw [← hglue, slice_slice _ _ (by omega), slice_slice _ _ (by omega), ← Nat.add_assoc,
      hsplit] at hposition
    rw [slice_slice _ _ (by rw [hp]; omega), slice_slice _ _ (by omega), Nat.zero_add, Nat.zero_add,
      hposition]

theorem gathersBack (hs : 0 < s) (hsize : z.shape d = s * p) (hlen : len ≤ s * p) :
    GathersBack d (z.slice d 0 len)
      (fun rank : Fin s => z.slice d (rank * p) ((rank + 1) * p)) (s * p - len) :=
  fun _ _ _ _ _ h => gatherOutputsAndUnpad_positionWise hsize hlen h hs

theorem sliceInputTensor_eq [Zero α] (hs : 0 < s) (hsize : z.shape d = s * p) (rank : Nat) :
    sliceInputTensor s rank z d false = z.slice d (rank * p) ((rank + 1) * p) := by
  unfold sliceInputTensor
  rw [Bool.false_and, if_neg Bool.false_ne_true]
  dsimp only
  rw [hsize, Nat.mul_div_cancel_left p hs]

theorem dvd_add_ulyssesPadSize (hs : 0 < s) (len : Nat) : s ∣ len + ulyssesPadSize s len := by
  have hdvd := dvd_length_ulyssesPad hs () (List.replicate len ())
  rwa [length_ulyssesPad, List.length_replicate] at hdvd

theorem ulyssesPadSize_eq_zero_iff (hs : 0 < s) (len : Nat) :
    ulyssesPadSize s len = 0 ↔ len % s = 0 := by
  unfold ulyssesPadSize
  have hmod := Nat.mod_lt len hs
  split
  · omega
  · by_cases hzero : len % s = 0
    · rw [hzero, Nat.sub_zero, Nat.mod_self]
    · rw [Nat.mod_eq_of_lt (by omega : s - len % s < s)]
      omega

/-- Padding that is there is what is missing to the next multiple. -/
theorem ulyssesPadSize_eq_sub (hs : 0 < s) (h : len % s ≠ 0) :
    ulyssesPadSize s len = s - len % s := by
  unfold ulyssesPadSize
  rw [if_neg, Nat.mod_eq_of_lt (by omega)]
  intro hone
  obtain rfl : s = 1 := by omega
  exact h (Nat.mod_one len)

theorem gathersBack_of_padded [Zero α] (hs : 0 < s)
    (hsize : z.shape d = x.shape d + ulyssesPadSize s (x.shape d))
    (hx : z.slice d 0 (x.shape d) = x) :
    GathersBack d x (fun rank : Fin s => sliceInputTensor s rank z d false)
      (ulyssesPadSize s (x.shape d)) := by
  obtain ⟨p, hp⟩ := dvd_add_ulyssesPadSize hs (x.shape d)
  have hback := gathersBack hs (hsize.trans hp) (hp ▸ Nat.le_add_right (x.shape d) _)
  rw [hx, ← hp, Nat.add_sub_cancel_left] at hback
  have hshards : (fun rank : Fin s => sliceInputTensor s rank z d false) =
      fun rank : Fin s => z.slice d (rank * p) ((rank + 1) * p) :=
    funext fun rank => sliceInputTensor_eq hs (hsize.trans hp) rank
  rw [hshards]
  exact hback

/-- The input ids are the first positions of what they are padded to. -/
theorem exists_ulyssesPad {inputIds : NdTensor 2 α} {positionIds : Option (NdTensor (m + 2) Nat)}
    (hpositions : ∀ p ∈ positionIds, MatchesInput inputIds p) (spSize : Nat) (padValue : α) :
    ∃ z positions, ulyssesPad inputIds positionIds spSize padValue =
      .ok (z, positions, ulyssesPadSize spSize (inputIds.shape 1)) ∧
        z.shape 1 = inputIds.shape 1 + ulyssesPadSize spSize (inputIds.shape 1) ∧
          z.slice 1 0 (inputIds.shape 1) = inputIds := by
  have hpad : ∃ positions, ulyssesPad inputIds positionIds spSize padValue =
      if 0 < ulyssesPadSize spSize (inputIds.shape 1) then
        .ok (inputIds.append (.ofFn (update inputIds.shape 1
          (ulyssesPadSize spSize (inputIds.shape 1))) fun _ => padValue) 1
          (agreeOff_update 1 inputIds.shape _).symm, positions,
          ulyssesPadSize spSize (inputIds.shape 1))
      else .ok (inputIds, positions, ulyssesPadSize spSize (inputIds.shape 1)) := by
    cases positionIds with
    | none => exact ⟨none, rfl⟩
    | some p =>
      obtain ⟨hbatch, hlen⟩ := hpositions p rfl
      unfold ulyssesPad
      dsimp only
      rw [decide_eq_true hbatch, decide_eq_true hlen]
      by_cases hpos : 0 < ulyssesPadSize spSize (inputIds.shape 1)
      · refine ⟨some (padPositionIds p (ulyssesPadSize spSize (inputIds.shape 1))), ?_⟩
        rw [if_pos hpos, if_pos hpos]
        rfl
      · refine ⟨some p, ?_⟩
        rw [if_neg hpos, if_neg hpos]
        rfl
  obtain ⟨positions, hpad⟩ := hpad
  rw [hpad]
  by_cases hpos : 0 < ulyssesPadSize spSize (inputIds.shape 1)
  · refine ⟨_, positions, if_pos hpos, ?_, slice_append _ _ 1 _⟩
    refine (size_append _ _ 1 _).trans (congrArg (inputIds.shape 1 + ·) ?_)
    exact update_self 1 _ inputIds.shape
  · have hzero : ulyssesPadSize spSize (inputIds.shape 1) = 0 := by omega
    exact ⟨inputIds, positions, if_neg hpos, by rw [hzero, Nat.add_zero],
      slice_zero (Nat.le_refl _)⟩

theorem gathersBack_ulyssesPad [Zero α] (hs : 0 < s) (inputIds : NdTensor 2 α)
    {positionIds : Option (NdTensor (m + 2) Nat)}
    (hpositions : ∀ p ∈ positionIds, MatchesInput inputIds p) (skipPositionIds : Bool)
    (padValue : α) :
    ∃ (shards : Fin s → NdTensor 2 α) (positions : Fin s → Option (NdTensor (m + 2) Nat)),
      (∀ rank : Fin s,
        ulyssesPadAndSliceInputs inputIds positionIds s skipPositionIds padValue rank =
          .ok (shards rank, positions rank, ulyssesPadSize s (inputIds.shape 1))) ∧
      GathersBack 1 inputIds shards (ulyssesPadSize s (inputIds.shape 1)) := by
  obtain ⟨z, positions, hz, hsize, hx⟩ := exists_ulyssesPad hpositions s padValue
  refine ⟨fun rank => sliceInputTensor s rank z 1 false,
    fun rank => if skipPositionIds then positions
      else positions.map fun p => sliceInputTensor s rank p 1 false,
    fun rank => ?_, gathersBack_of_padded hs hsize hx⟩
  unfold ulyssesPadAndSliceInputs
  rw [hz]
  rfl

theorem gathersBack_sliceInputTensor [Zero α] (hs : 0 < s) (x : NdTensor n α) (d : Fin n) :
    GathersBack d x (fun rank : Fin s => sliceInputTensor s rank x d true)
      (ulyssesPadSize s (x.shape d)) := by
  by_cases hzero : x.shape d % s = 0
  · have hnone := (ulyssesPadSize_eq_zero_iff hs (x.shape d)).2 hzero
    have hshards : (fun rank : Fin s => sliceInputTensor s rank x d true) =
        fun rank : Fin s => sliceInputTensor s rank x d false := by simp [sliceInputTensor, hzero]
    rw [hshards]
    exact gathersBack_of_padded hs (by rw [hnone, Nat.add_zero]) (slice_zero (Nat.le_refl _))
  · have hshards : (fun rank : Fin s => sliceInputTensor s rank x d true) = fun rank : Fin s =>
        sliceInputTensor s rank (padTensor x d (s - x.shape d % s)) d false := by
      simp [sliceInputTensor, Bool.true_and, bne_iff_ne.2 hzero]
    rw [hshards]
    refine gathersBack_of_padded hs ?_ (slice_append _ _ d _)
    rw [ulyssesPadSize_eq_sub hs hzero]
    refine (size_append _ _ d _).trans (congrArg (x.shape d + ·) ?_)
    exact update_self d _ x.shape

/-! ## Lemmas: all-to-all -/

theorem tensorSplit_eq (hs : 0 < s) (hsize : x.shape d = s * p) (i : Nat) :
    tensorSplit x s d i = x.slice d (i * p) ((i + 1) * p) := by
  unfold tensorSplit
  rw [hsize, Nat.mul_div_cancel_left p hs, Nat.mul_mod_right]
  dsimp only
  rw [Nat.min_zero, Nat.min_zero, Nat.add_zero, Nat.add_zero]

theorem shape_slice_part (hsize : x.shape d = s * p) (i : Fin s) :
    (x.slice d (i * p) ((i + 1) * p)).shape = update x.shape d p := by
  have hend : ((i : Nat) + 1) * p ≤ s * p := Nat.mul_le_mul_right p i.isLt
  rw [shape_slice, hsize, Nat.min_eq_left hend, Nat.succ_mul, Nat.add_sub_cancel_left]

theorem allToAllTensor_eq {xs : Fin s → NdTensor n α} {shape : Fin n → Nat}
    (hshape : ∀ rank, (xs rank).shape = shape) {a : Fin n} (b : Fin n)
    (hsize : shape a = s * p) (rank : Fin s) :
    allToAllTensor xs a b rank =
      cat b ((List.finRange s).map fun j => (xs j).slice a (rank * p) ((rank + 1) * p)) := by
  have hs : 0 < s := Nat.lt_of_le_of_lt (Nat.zero_le _) rank.isLt
  have hpart : ∀ j i : Fin s, tensorSplit (xs j) s a i = (xs j).slice a (i * p) ((i + 1) * p) :=
    fun j i => tensorSplit_eq hs ((congrFun (hshape j) a).trans hsize) i
  have hpartShape : ∀ j i : Fin s,
      (tensorSplit (xs j) s a i).shape = update shape a p := by
    intro j i
    rw [hpart, shape_slice_part ((congrFun (hshape j) a).trans hsize), hshape]
  unfold allToAllTensor
  rw [if_pos]
  · exact congrArg (cat b) (List.map_congr_left fun j _ => hpart j rank)
  · rw [List.all_map, List.all_eq_true]
    intro j _
    exact decide_eq_true ((hpartShape j rank).trans (hpartShape rank ⟨0, hs⟩).symm)

theorem gatherHeadsScatterSeq_gatherSeqScatterHeads [Zero α] {xs : Fin s → NdTensor n α}
    {shape : Fin n → Nat} (hshape : ∀ rank, (xs rank).shape = shape) {seqDim headDim : Fin n}
    (hne : seqDim ≠ headDim) (hdvd : s ∣ shape headDim) :
    ∃ ys, (∀ rank, gatherSeqScatterHeads xs seqDim headDim 0 rank = .ok (ys rank)) ∧
      ∀ rank, gatherHeadsScatterSeq ys headDim seqDim rank = .ok (xs rank) := by
  obtain ⟨p, hp⟩ := hdvd
  have hhead : ∀ rank, (xs rank).shape headDim = s * p := fun rank =>
    (congrFun (hshape rank) headDim).trans hp
  have hparts : ∀ rank j : Fin s, ((xs j).slice headDim (rank * p) ((rank + 1) * p)).shape =
      update shape headDim p := by
    intro rank j
    rw [shape_slice_part (hhead j), hshape]
  have hseq : update shape headDim p seqDim = shape seqDim :=
    update_of_ne hne p shape
  refine ⟨fun rank => glue _ _ (hparts rank) seqDim, fun rank => ?_, fun rank => ?_⟩
  · have hs : 0 < s := Nat.lt_of_le_of_lt (Nat.zero_le _) rank.isLt
    unfold gatherSeqScatterHeads
    rw [allToAllTensor_eq hshape seqDim hp, cat_eq_glue (hparts rank) seqDim hs]
    rfl
  · have hs : 0 < s := Nat.lt_of_le_of_lt (Nat.zero_le _) rank.isLt
    have hys : ∀ rank, (glue _ _ (hparts rank) seqDim).shape = update
        (update shape headDim p) seqDim (s * shape seqDim) := by
      intro rank
      rw [shape_glue, hseq]
    have hpadded : (fun rank => if (glue _ _ (hparts rank) seqDim).shape seqDim % s ≠ 0 then
        padTensor (glue _ _ (hparts rank) seqDim) seqDim
          (s - (glue _ _ (hparts rank) seqDim).shape seqDim % s)
        else glue _ _ (hparts rank) seqDim) = fun rank => glue _ _ (hparts rank) seqDim := by
      simp [if_neg, size_glue, Nat.mul_mod_right]
    unfold gatherHeadsScatterSeq
    dsimp only
    rw [hpadded, allToAllTensor_eq hys headDim (update_self seqDim _ _)]
    have hback : ((List.finRange s).map fun j => (glue _ _ (hparts j) seqDim).slice seqDim
        (rank * shape seqDim) ((rank + 1) * shape seqDim)) =
          (List.range s).map fun j => (xs rank).slice headDim (j * p) ((j + 1) * p) := by
      rw [← List.map_coe_finRange_eq_range, List.map_map]
      refine List.map_congr_left fun j _ => ?_
      have hglue := slice_glue (hparts j) seqDim rank
      rw [hseq] at hglue
      exact hglue
    rw [hback, cat_slices hs (hhead rank)]

/-- Sequences are put together again, however they are padded, and heads are. -/
theorem ulysses_roundTrip (s : Nat) (hs : 0 < s) (α : Type) [Zero α] :
    (∀ (m : Nat) (inputIds : NdTensor 2 α) (positionIds : Option (NdTensor (m + 2) Nat)),
      (∀ p ∈ positionIds, MatchesInput inputIds p) → ∀ (skipPositionIds : Bool) (padValue : α),
        ∃ (shards : Fin s → NdTensor 2 α) (positions : Fin s → Option (NdTensor (m + 2) Nat)),
          (∀ rank : Fin s,
            ulyssesPadAndSliceInputs inputIds positionIds s skipPositionIds padValue rank =
              .ok (shards rank, positions rank, ulyssesPadSize s (inputIds.shape 1))) ∧
          GathersBack 1 inputIds shards (ulyssesPadSize s (inputIds.shape 1))) ∧
    (∀ (n : Nat) (x : NdTensor n α) (d : Fin n),
      GathersBack d x (fun rank : Fin s => sliceInputTensor s rank x d true)
        (ulyssesPadSize s (x.shape d))) ∧
    ∀ (n : Nat) (xs : Fin s → NdTensor n α) (shape : Fin n → Nat) (seqDim headDim : Fin n),
      (∀ rank, (xs rank).shape = shape) → seqDim ≠ headDim → s ∣ shape headDim →
        ∃ ys, (∀ rank, gatherSeqScatterHeads xs seqDim headDim 0 rank = .ok (ys rank)) ∧
          ∀ rank, gatherHeadsScatterSeq ys headDim seqDim rank = .ok (xs rank) :=
  ⟨fun _ inputIds _ hpositions skip padValue =>
    gathersBack_ulyssesPad hs inputIds hpositions skip padValue,
    fun _ x d => gathersBack_sliceInputTensor hs x d,
    fun _ _ _ _ _ hshape hne hdvd => gatherHeadsScatterSeq_gatherSeqScatterHeads hshape hne hdvd⟩

end Lemmas

/-! ## Three positions and two heads on two ranks -/

def tokens : NdTensor 2 Nat := .ofFn (fun d => if d = 0 then 1 else 3) fun ix => 7 + ix 1

def counted : NdTensor 2 Nat := .ofFn (fun d => if d = 0 then 1 else 3) fun ix => ix 1

def states (rank : Fin 2) : NdTensor 3 Nat :=
  .ofFn (fun d => if d = 0 then 1 else 2) fun ix => 100 * rank + 10 * ix 1 + ix 2

theorem ulysses_roundTrip_two :
    (∃ (shards : Fin 2 → NdTensor 2 Nat) (positions : Fin 2 → Option (NdTensor 2 Nat)),
      (∀ rank : Fin 2, ulyssesPadAndSliceInputs tokens (some counted) 2 false 0 rank =
        .ok (shards rank, positions rank, 1)) ∧ GathersBack 1 tokens shards 1) ∧
    (∃ y, (∀ rank : Fin 2, gatherOutputsAndUnpad
        (fun rank : Fin 2 => sliceInputTensor 2 rank tokens 1 true) 1 (some 1) 1 rank = .ok y) ∧
      PositionWise id 1 1 tokens y) ∧
    ∃ ys, (∀ rank, gatherSeqScatterHeads states 1 2 0 rank = .ok (ys rank)) ∧
      ∀ rank, gatherHeadsScatterSeq ys 2 1 rank = .ok (states rank) := by
  obtain ⟨hpad, hslice, hheads⟩ := ulysses_roundTrip 2 (by decide) Nat
  refine ⟨hpad 0 tokens (some counted) ?_ false 0, hslice 2 tokens 1 1 Nat id 1 _ ?_,
    hheads 3 states _ 1 2 (fun _ => rfl) (by decide) (by decide)⟩
  · intro p hp
    obtain rfl := Option.some.inj hp
    exact ⟨rfl, rfl⟩
  · exact ⟨fun _ => ⟨rfl, fun _ _ => rfl⟩, by decide, by decide⟩

end Verl.Ulysses
