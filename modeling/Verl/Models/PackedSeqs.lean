import Verl.Lib.Masked
import Verl.Lib.Python
import Verl.Lib.ZigZag

/-! # Packed sequences under context parallelism (`verl/models/mcore/util.py`)

A batch is packed sequence by sequence, each padded to a multiple of the alignment; with FP8 the
last sequence is padded further, to a total that TransformerEngine takes.  Every context-parallel
rank holds chunk `r` from the front and from the back of each padded sequence.

    preprocess_packed_seqs    packs the real tokens of a padded batch
    postprocess_packed_seqs   gathers the ranks' outputs, writes them back to the padded batch

* `ThdLayout`: padded lengths and where the sequences start, which both ways of packing compute.
* `postprocessPackedSeqs_eq`: gathering over all ranks gives every sequence back. -/

namespace Verl.MCore

open List

/-- The sizes of the tensor and the context parallel groups, and a rank of the latter (`mpu`). -/
structure ParallelState where
  tpSize : Nat
  cpSize : Nat
  cpRank : Nat

/-! ## The layout -/

/-- The alignment of a sequence and of the total, from the alignment without FP8. -/
def computeFp8ThdAlignSize (alignSize : Nat) : Nat × Nat := (Nat.lcm 16 alignSize, alignSize * 128)

/-- `align_size`, without FP8. -/
def baseAlignSize (tpSize cpSize : Nat) : Nat := if 1 < cpSize then tpSize * cpSize * 2 else tpSize

/-- `align_size`. -/
def alignSize (tpSize cpSize : Nat) (useFp8Padding : Bool) : Nat :=
  if useFp8Padding then (computeFp8ThdAlignSize (baseAlignSize tpSize cpSize)).1
  else baseAlignSize tpSize cpSize

/-- `(align_size - n % align_size) % align_size`. -/
def padSize (align n : Nat) : Nat := (align - n % align) % align

/-- `xs[-1] += k`. -/
def addLast (k : Nat) : List Nat → List Nat
  | [] => []
  | [x] => [x + k]
  | x :: y :: xs => x :: addLast k (y :: xs)

/-- The fields that are not the same for all batches; the four `cu_seqlens` are one tensor, and so
are the two `max_seqlen`. -/
structure PackedSeqParams where
  cuSeqlensPadded : List Nat
  maxSeqlen : Nat
  deriving DecidableEq

structure ThdLayout where
  seqlensPadded : List Nat
  params : PackedSeqParams

def thdLayout (tpSize cpSize : Nat) (useFp8Padding : Bool) (seqlens : List Nat) :
    Except PyErr ThdLayout :=
  let seqlensPadded := seqlens.map fun n =>
    n + padSize (alignSize tpSize cpSize useFp8Padding) n
  let cuSeqlensPadded := offsets seqlensPadded
  let totalAlign := (computeFp8ThdAlignSize (baseAlignSize tpSize cpSize)).2
  let padSizeLast :=
    if useFp8Padding then padSize totalAlign (cuSeqlensPadded.getLastD 0) else 0
  let seqlensPadded := addLast padSizeLast seqlensPadded
  match seqlensPadded.max? with
  | none =>
    if useFp8Padding then .error .indexError
    else .error (.valueError "max() iterable argument is empty")
  | some maxSeqlen => .ok
    { seqlensPadded := seqlensPadded
      params :=
        { cuSeqlensPadded := addLast padSizeLast cuSeqlensPadded
          maxSeqlen := maxSeqlen } }

/-- A sequence with its padded length and where it starts in the padded batch. -/
structure SeqSlot (α : Type) where
  tokens : List α
  seqlenPadded : Nat
  cuSeqlen : Nat

variable {α : Type}

/-- The sequences of a batch, as the loops over `range(batch_size)` read them. -/
def seqSlots (seqs : List (List α)) (layout : ThdLayout) : List (SeqSlot α) :=
  (seqs.zip (layout.seqlensPadded.zip layout.params.cuSeqlensPadded)).map fun p =>
    { tokens := p.1, seqlenPadded := p.2.1, cuSeqlen := p.2.2 }

/-- `shape[0]`. -/
def localLen (cpSize : Nat) (layout : ThdLayout) : Nat := layout.seqlensPadded.sum / cpSize

/-- `buf[offset : offset + size] = data`. -/
def store {m : Nat} (buf : Buffer α m) (offset size : Nat) (data : List α) :
    Except PyErr (Buffer α m) :=
  match buf.assign offset size data with
  | some buf => .ok buf
  | none => .error (.runtimeError "The expanded size of the tensor must match the existing size")

/-- The same under `if size > 0`. -/
def storePositive {m : Nat} (buf : Buffer α m) (offset size : Nat) (data : List α) :
    Except PyErr (Buffer α m) :=
  if 0 < size then store buf offset size data else .ok buf

/-! ## `preprocess_packed_seqs` -/

/-- One turn of the loop. -/
def packSeq (ps : ParallelState) {m : Nat} (buf : Buffer α m) (seq : SeqSlot α) :
    Except PyErr (Buffer α m) :=
  if ps.cpSize ≤ 1 then store buf seq.cuSeqlen seq.tokens.length seq.tokens
  else do
    let seqlen := seq.seqlenPadded / ps.cpSize
    let halfSeqlen := seqlen / 2
    let startIdx := seq.cuSeqlen / ps.cpSize
    let d := seq.tokens
    let firstStart := halfSeqlen * ps.cpRank
    let firstEnd := min (halfSeqlen * (ps.cpRank + 1)) d.length
    let firstLen := firstEnd - firstStart
    let buf ← storePositive buf startIdx firstLen (getSlice d firstStart firstLen)
    let remainStart := seq.seqlenPadded - halfSeqlen * (ps.cpRank + 1)
    let remainEnd := min (seq.seqlenPadded - halfSeqlen * ps.cpRank) d.length
    let remainLen := remainEnd - remainStart
    storePositive buf (startIdx + halfSeqlen) remainLen (getSlice d remainStart remainLen)

/-- `preprocess_packed_seqs` with `pre_process`, on the rows of `input_ids` and
`attention_mask`. -/
def preprocessPackedSeqs (zero : α) (ps : ParallelState) (useFp8Padding : Bool)
    (inputIds : List (List α)) (attentionMask : List (List Bool)) :
    Except PyErr (List α × PackedSeqParams) := do
  let layout ← thdLayout ps.tpSize ps.cpSize useFp8Padding (attentionMask.map (List.count true))
  let seqs := List.zipWith maskSelect attentionMask inputIds
  let inputIdsRmpad ← (seqSlots seqs layout).foldlM (packSeq ps)
    (Buffer.replicate (localLen ps.cpSize layout) zero)
  return (inputIdsRmpad.toList, layout.params)

/-! ## `postprocess_packed_seqs` -/

/-- `row[mask] = vals`. -/
def maskPut (row : List α) (mask : List Bool) (vals : List α) : Except PyErr (List α) :=
  if vals.length = mask.count true then .ok (maskAssign mask row vals)
  else match vals with
    | [v] => .ok (maskAssign mask row (List.replicate (mask.count true) v))
    | _ => .error (.runtimeError "shape mismatch: value tensor cannot be broadcast to indexing result")

/-- Writes the two chunks of each rank to their places from the front and from the back. -/
def writeChunks {m : Nat} (cpSize halfSeqlen : Nat) (chunks : Nat → List α × List α)
    (tmp : Buffer α m) : Except PyErr (Buffer α m) :=
  (List.range cpSize).foldlM (fun tmp (j : Nat) => do
      let tmp ← store tmp (j * halfSeqlen) halfSeqlen (chunks j).1
      store tmp (m - (j + 1) * halfSeqlen) halfSeqlen (chunks j).2)
    tmp

/-- One sequence put together from the outputs of all ranks; `empty` is what `torch.empty`
finds. -/
def gatherSeq (empty : α) (cpSize : Nat) (outputList : List (List α)) (start stop : Nat) :
    Except PyErr (List α) := do
  let sLenPaddedChunk := (stop - start) / cpSize
  let halfSeqlen := sLenPaddedChunk / 2
  let sLenPadded := sLenPaddedChunk * cpSize
  let tmp ← writeChunks cpSize halfSeqlen (fun j =>
      let o := outputList.getD j []
      let packedStartIdx := start / cpSize
      (getSlice o packedStartIdx halfSeqlen,
        getSlice o (packedStartIdx + halfSeqlen) (sLenPaddedChunk - halfSeqlen)))
    (Buffer.replicate sLenPadded empty)
  return tmp.toList

/-- The outputs of all ranks, with the rank's own one in its place. -/
def gatherOutputs (ps : ParallelState) (gathered : List (List α)) (output : List α) :
    List (List α) :=
  if 1 < ps.cpSize then gathered.set ps.cpRank output else [output]

/-- One turn of the loop: the outputs of a sequence, at the positions of its tokens. -/
def unpackSeq (zero empty : α) (ps : ParallelState) (outputList : List (List α)) (seqLen : Nat)
    (mask : List Bool) (start stop : Nat) : Except PyErr (List α) := do
  let sLen := mask.count true
  if ps.cpSize ≤ 1 then
    maskPut (List.replicate seqLen zero) mask (getSlice (outputList.getD 0 []) start sLen)
  else do
    let tmp ← gatherSeq empty ps.cpSize outputList start stop
    maskPut (List.replicate seqLen zero) mask (tmp.take sLen)

/-- `postprocess_packed_seqs` with `post_process`; `gathered` is what `all_gather` returns. -/
def postprocessPackedSeqs (zero empty : α) (ps : ParallelState) (gathered : List (List α))
    (output : List α) (params : PackedSeqParams) (attentionMask : List (List Bool)) (seqLen : Nat) :
    Except PyErr (List (List α)) :=
  let cuPadded := params.cuSeqlensPadded
  (attentionMask.zip (cuPadded.zip cuPadded.tail)).mapM fun p =>
    unpackSeq zero empty ps (gatherOutputs ps gathered output) seqLen p.1 p.2.1 p.2.2

/-! ## Lemmas: the layout -/

theorem dvd_add_padSize {align : Nat} (halign : 0 < align) (n : Nat) :
    align ∣ n + padSize align n := by
  unfold padSize
  have hmod := Nat.mod_lt n halign
  rw [Nat.dvd_iff_mod_eq_zero, Nat.add_mod, Nat.mod_mod]
  by_cases h : n % align = 0
  · rw [h, Nat.sub_zero, Nat.mod_self, Nat.zero_mod]
  · rw [Nat.mod_eq_of_lt (a := align - n % align) (by omega), Nat.add_sub_cancel' hmod.le,
      Nat.mod_self]

theorem addLast_cons_cons (k x y : Nat) (xs : List Nat) :
    addLast k (x :: y :: xs) = x :: addLast k (y :: xs) := rfl

theorem length_addLast (k : Nat) (xs : List Nat) : (addLast k xs).length = xs.length := by
  induction xs with
  | nil => rfl
  | cons x xs ih =>
    cases xs with
    | nil => rfl
    | cons y xs => exact congrArg (· + 1) ih

theorem forall₂_le_addLast (k : Nat) {xs ys : List Nat} (h : Forall₂ (· ≤ ·) xs ys) :
    Forall₂ (· ≤ ·) xs (addLast k ys) := by
  induction h with
  | nil => exact .nil
  | @cons x y xs ys hxy hrest ih =>
    cases ys with
    | nil =>
      cases hrest
      exact .cons (Nat.le_add_right_of_le hxy) .nil
    | cons y' ys => exact .cons hxy ih

theorem forall_mem_addLast {k m : Nat} {xs : List Nat} (hxs : ∀ x ∈ xs, m ∣ x) (hk : m ∣ k) :
    ∀ x ∈ addLast k xs, m ∣ x := by
  induction xs with
  | nil => simp [addLast]
  | cons x xs ih =>
    rw [forall_mem_cons] at hxs
    cases xs with
    | nil => exact forall_mem_singleton.2 (Nat.dvd_add hxs.1 hk)
    | cons y xs => exact forall_mem_cons.2 ⟨hxs.1, ih hxs.2⟩

theorem addLast_scanl (k s : Nat) {xs : List Nat} (h : xs ≠ []) :
    addLast k (xs.scanl (· + ·) s) = (addLast k xs).scanl (· + ·) s := by
  induction xs generalizing s with
  | nil => exact absurd rfl h
  | cons x xs ih =>
    cases xs with
    | nil => exact congrArg (fun n => [s, n]) (Nat.add_assoc s x k)
    | cons y xs =>
      have hrest := ih (s + x) (cons_ne_nil _ _)
      simp only [scanl_cons] at hrest ⊢
      rw [addLast_cons_cons, hrest, addLast_cons_cons, scanl_cons]

theorem getLastD_offsets (xs : List Nat) : (offsets xs).getLastD 0 = xs.sum := by
  have hlast : (offsets xs).getLast? = some xs.sum := by
    rw [offsets_eq, getLast?_map, getLast?_range, if_neg (by omega), Option.map_some,
      Nat.add_sub_cancel, rowStart_length]
  rw [getLastD_eq_getLast?, hlast, Option.getD_some]

theorem dvd_sum {m : Nat} {xs : List Nat} (h : ∀ x ∈ xs, m ∣ x) : m ∣ xs.sum := by
  induction xs with
  | nil => exact Nat.dvd_zero m
  | cons x xs ih =>
    rw [forall_mem_cons] at h
    exact Nat.dvd_add h.1 (ih h.2)

section Alignment

variable {tpSize cpSize : Nat}

theorem baseAlignSize_pos (cpSize : Nat) (htp : 1 ≤ tpSize) : 0 < baseAlignSize tpSize cpSize := by
  unfold baseAlignSize
  by_cases hcp : 1 < cpSize
  · rw [if_pos hcp]
    have hmul := Nat.mul_pos htp (show 0 < cpSize by omega)
    omega
  · grind

theorem alignSize_pos (cpSize : Nat) (htp : 1 ≤ tpSize) (useFp8Padding : Bool) :
    0 < alignSize tpSize cpSize useFp8Padding := by
  have hbase := baseAlignSize_pos cpSize htp
  cases useFp8Padding with
  | false => exact hbase
  | true => exact Nat.lcm_pos (by decide) hbase

theorem two_mul_dvd_alignSize (hcp : 1 < cpSize) (useFp8Padding : Bool) :
    2 * cpSize ∣ alignSize tpSize cpSize useFp8Padding := by
  have hbase : 2 * cpSize ∣ baseAlignSize tpSize cpSize := by
    unfold baseAlignSize
    rw [if_pos hcp]
    exact ⟨tpSize, by rw [Nat.mul_assoc, Nat.mul_comm, Nat.mul_comm cpSize 2]⟩
  cases useFp8Padding with
  | false => exact hbase
  | true => exact hbase.trans (Nat.dvd_lcm_right 16 _)

theorem alignSize_dvd_total :
    alignSize tpSize cpSize true ∣ (computeFp8ThdAlignSize (baseAlignSize tpSize cpSize)).2 := by
  apply Nat.lcm_dvd
  · exact (show 16 ∣ 128 by decide).mul_left _
  · exact Nat.dvd_mul_right _ _

end Alignment

/-- What is known of a layout. -/
structure LayoutOf (tpSize cpSize : Nat) (useFp8Padding : Bool) (seqlens : List Nat)
    (layout : ThdLayout) : Prop where
  cuSeqlens : layout.params.cuSeqlensPadded = offsets layout.seqlensPadded
  le : List.Forall₂ (· ≤ ·) seqlens layout.seqlensPadded
  dvd : ∀ n ∈ layout.seqlensPadded, alignSize tpSize cpSize useFp8Padding ∣ n

variable {useFp8Padding : Bool} {n k cpSize w cpRank m i seqLen tpSize : Nat} {done d : List α}
  {layout : ThdLayout} {ps : ParallelState} {ns : List Nat} {outs : Nat → List α}
  {outputList seqs : List (List α)} {buf : Buffer α m} {zero : α} {attentionMask : List (List Bool)}

theorem thdLayout_eq_ok (cpSize : Nat) (htp : 1 ≤ tpSize) (useFp8Padding : Bool)
    {seqlens : List Nat} (hne : seqlens ≠ []) :
    ∃ layout, thdLayout tpSize cpSize useFp8Padding seqlens = .ok layout ∧
      LayoutOf tpSize cpSize useFp8Padding seqlens layout := by
  have halign := alignSize_pos cpSize htp useFp8Padding
  unfold thdLayout
  dsimp only
  generalize hpadded : (seqlens.map fun n =>
    n + padSize (alignSize tpSize cpSize useFp8Padding) n) = padded
  have hpaddedNe : padded ≠ [] := by
    rw [← hpadded, ne_eq, map_eq_nil_iff]
    exact hne
  have hdvd : ∀ n ∈ padded, alignSize tpSize cpSize useFp8Padding ∣ n := by
    intro n hn
    rw [← hpadded] at hn
    obtain ⟨len, -, rfl⟩ := mem_map.1 hn
    exact dvd_add_padSize halign len
  have hle : Forall₂ (· ≤ ·) seqlens padded := by
    simp [← hpadded]
  generalize hlast : (if useFp8Padding then
    padSize (computeFp8ThdAlignSize (baseAlignSize tpSize cpSize)).2
      ((offsets padded).getLastD 0) else 0) = padSizeLast
  have hlastDvd : alignSize tpSize cpSize useFp8Padding ∣ padSizeLast := by
    rw [← hlast]
    cases useFp8Padding with
    | false => exact Nat.dvd_zero _
    | true =>
      rw [getLastD_offsets]
      have htotalPos : 0 < (computeFp8ThdAlignSize (baseAlignSize tpSize cpSize)).2 :=
        Nat.mul_pos (baseAlignSize_pos _ htp) (by decide)
      have htotal := alignSize_dvd_total.trans (dvd_add_padSize htotalPos padded.sum)
      exact (Nat.dvd_add_right (dvd_sum hdvd)).1 htotal
  split
  · next hmax =>
    have hnil : addLast padSizeLast padded = [] := max?_eq_none_iff.1 hmax
    rw [← length_eq_zero_iff, length_addLast, length_eq_zero_iff] at hnil
    exact absurd hnil hpaddedNe
  · refine ⟨_, rfl, ?_, ?_, ?_⟩
    · exact addLast_scanl padSizeLast 0 hpaddedNe
    · exact forall₂_le_addLast padSizeLast hle
    · exact forall_mem_addLast hdvd hlastDvd

theorem thdLayout_nil (tpSize cpSize : Nat) (useFp8Padding : Bool) :
    ∃ e, thdLayout tpSize cpSize useFp8Padding [] = .error e := by
  cases useFp8Padding with
  | false => exact ⟨_, rfl⟩
  | true => exact ⟨_, rfl⟩

/-! ## Lemmas: packing -/

/-- A sequence padded with zeros to `n` items. -/
def padTo (zero : α) (n : Nat) (d : List α) : List α := d ++ List.replicate (n - d.length) zero

theorem length_padTo (zero : α) (h : d.length ≤ n) : (padTo zero n d).length = n := by
  unfold padTo
  rw [length_append, length_replicate]
  omega

theorem getElem?_padTo_of_lt (h : i < d.length) : (padTo zero n d)[i]? = d[i]? := by
  unfold padTo
  rw [getElem?_append_left h]

theorem getElem?_padTo_of_le (h : d.length ≤ i) (hi : i < n) :
    (padTo zero n d)[i]? = some zero := by
  unfold padTo
  rw [getElem?_append_right h, getElem?_replicate, if_pos (by omega)]

theorem take_padTo (d : List α) : (padTo zero n d).take d.length = d := by
  unfold padTo
  rw [take_left]

theorem getSlice_padTo {o : Nat} (hn : o + w ≤ n) (hd : d.length ≤ n) :
    getSlice (padTo zero n d) o w = padTo zero w (getSlice d o (min (o + w) d.length - o)) := by
  have hlen : (getSlice d o (min (o + w) d.length - o)).length = min (o + w) d.length - o := by
    unfold getSlice
    rw [length_take, length_drop]
    omega
  apply ext_getElem?
  intro i
  by_cases hi : i < w
  · rw [getElem?_getSlice _ _ hi]
    by_cases hlt : o + i < d.length
    · rw [getElem?_padTo_of_lt hlt, getElem?_padTo_of_lt (by omega), getElem?_getSlice _ _ (by omega)]
    · rw [getElem?_padTo_of_le (by omega) (by omega), getElem?_padTo_of_le (by omega) hi]
  · rw [getElem?_eq_none, getElem?_eq_none]
    · rw [length_padTo _ (by omega)]
      omega
    · rw [length_getSlice (by rw [length_padTo _ hd]; exact hn)]
      omega

/-- What a rank holds of a sequence that is padded to `n` tokens. -/
def localPiece (zero : α) (cpSize cpRank n : Nat) (d : List α) : List α :=
  if cpSize ≤ 1 then padTo zero n d
  else zigzagShard cpSize (n / cpSize / 2) (padTo zero n d) cpRank

theorem half_eq (hcp : 1 < cpSize) (hdvd : 2 * cpSize ∣ n) :
    n / cpSize = 2 * (n / cpSize / 2) ∧ n = 2 * cpSize * (n / cpSize / 2) := by
  obtain ⟨h, rfl⟩ := hdvd
  have hdiv : 2 * cpSize * h / cpSize = 2 * h := by
    rw [show 2 * cpSize * h = 2 * h * cpSize by rw [Nat.mul_right_comm]]
    exact Nat.mul_div_cancel _ (by omega)
  rw [hdiv, Nat.mul_div_cancel_left h (by decide)]
  exact ⟨rfl, rfl⟩

theorem length_localPiece (zero : α) (hcp : 1 ≤ cpSize)
    (hrank : cpRank < cpSize) (hd : d.length ≤ n) (hdvd : 1 < cpSize → 2 * cpSize ∣ n) :
    (localPiece zero cpSize cpRank n d).length = n / cpSize := by
  unfold localPiece
  by_cases hone : cpSize ≤ 1
  · rw [if_pos hone, length_padTo _ hd, show cpSize = 1 by omega, Nat.div_one]
  · obtain ⟨hchunk, hn⟩ := half_eq (by omega) (hdvd (by omega))
    rw [if_neg hone, length_zigzagShard (by rw [length_padTo _ hd]; exact hn) hrank, ← hchunk]

section

variable {v : List α} (hbuf : buf.toList = done ++ replicate k zero) (hv : v.length ≤ w)
  (hw : w ≤ k)
include hbuf hv hw

theorem store_behind : ∃ buf', store buf done.length v.length v = .ok buf' ∧
      buf'.toList = (done ++ padTo zero w v) ++ replicate (k - w) zero := by
  have hm : done.length + k = m := by
    rw [← buf.length_eq, hbuf, length_append, length_replicate]
  obtain ⟨buf', hassign, hlist⟩ := buf.assign_eq
    (show done.length + v.length ≤ m by omega) (show v.length = v.length from rfl)
  refine ⟨buf', ?_, ?_⟩
  · unfold store
    rw [hassign]
  · rw [hlist, hbuf, setSlice_append, drop_replicate]
    unfold padTo
    rw [append_assoc, append_assoc, replicate_append_replicate]
    congr 3
    omega

theorem storePositive_behind : ∃ buf', storePositive buf done.length v.length v = .ok buf' ∧
      buf'.toList = (done ++ padTo zero w v) ++ replicate (k - w) zero := by
  unfold storePositive
  by_cases hpos : 0 < v.length
  · rw [if_pos hpos]
    exact store_behind hbuf hv hw
  · have hnil : v = [] := length_eq_zero_iff.1 (by omega)
    refine ⟨buf, if_neg hpos, ?_⟩
    rw [hbuf, hnil, append_assoc]
    unfold padTo
    rw [nil_append, length_nil, replicate_append_replicate]
    congr 2
    omega

end

theorem packSeq_eq (hcp : 1 ≤ ps.cpSize) (hrank : ps.cpRank < ps.cpSize) (seq : SeqSlot α)
    (hbuf : buf.toList = done ++ replicate k zero) (hstart : done.length = seq.cuSeqlen / ps.cpSize)
    (hlen : seq.tokens.length ≤ seq.seqlenPadded)
    (hdvd : 1 < ps.cpSize → 2 * ps.cpSize ∣ seq.seqlenPadded)
    (hk : seq.seqlenPadded / ps.cpSize ≤ k) :
    ∃ buf', packSeq ps buf seq = .ok buf' ∧ buf'.toList =
      (done ++ localPiece zero ps.cpSize ps.cpRank seq.seqlenPadded seq.tokens) ++
        replicate (k - seq.seqlenPadded / ps.cpSize) zero := by
  unfold packSeq localPiece
  by_cases hone : ps.cpSize ≤ 1
  · rw [if_pos hone]
    have hcpOne : ps.cpSize = 1 := by omega
    rw [hcpOne, Nat.div_one] at hstart hk
    rw [hcpOne, Nat.div_one, ← hstart]
    exact store_behind hbuf hlen hk
  · rw [if_neg hone, if_neg hone]
    obtain ⟨hchunk, hn⟩ := half_eq (by omega) (hdvd (by omega))
    generalize hhalf : seq.seqlenPadded / ps.cpSize / 2 = h at hchunk hn
    have hle := succ_mul_le (h := h) hrank
    have hsucc := Nat.add_one_mul ps.cpRank h
    have htwo := Nat.mul_assoc 2 ps.cpSize h
    have hcomm : ∀ r, h * r = r * h := Nat.mul_comm h
    dsimp only
    rw [hhalf, hcomm, hcomm, ← hstart]
    generalize hfront : getSlice seq.tokens (ps.cpRank * h)
      (min ((ps.cpRank + 1) * h) seq.tokens.length - ps.cpRank * h) = front
    have hfrontLen : front.length =
        min ((ps.cpRank + 1) * h) seq.tokens.length - ps.cpRank * h := by
      rw [← hfront]
      unfold getSlice
      rw [length_take, length_drop]
      omega
    generalize hback : getSlice seq.tokens (seq.seqlenPadded - (ps.cpRank + 1) * h)
      (min (seq.seqlenPadded - ps.cpRank * h) seq.tokens.length -
        (seq.seqlenPadded - (ps.cpRank + 1) * h)) = back
    have hbackLen : back.length =
        min (seq.seqlenPadded - ps.cpRank * h) seq.tokens.length -
          (seq.seqlenPadded - (ps.cpRank + 1) * h) := by
      rw [← hback]
      unfold getSlice
      rw [length_take, length_drop]
      omega
    obtain ⟨buf1, hbuf1, hlist1⟩ := storePositive_behind (w := h) hbuf
      (show front.length ≤ h by omega) (by omega)
    rw [← hfrontLen, hbuf1, ← hbackLen]
    have hdone : (done ++ padTo zero h front).length = done.length + h := by
      rw [length_append, length_padTo _ (by omega)]
    obtain ⟨buf2, hbuf2, hlist2⟩ := storePositive_behind (w := h) hlist1
      (show back.length ≤ h by omega) (by omega)
    rw [hdone] at hbuf2
    refine ⟨buf2, hbuf2, ?_⟩
    have hfrontPad : getSlice (padTo zero seq.seqlenPadded seq.tokens) (ps.cpRank * h) h =
        padTo zero h front := by
      rw [getSlice_padTo (by omega) hlen, ← hfront, hsucc]
    have hbackPad : getSlice (padTo zero seq.seqlenPadded seq.tokens)
        (seq.seqlenPadded - (ps.cpRank + 1) * h) h = padTo zero h back := by
      rw [getSlice_padTo (by omega) hlen, ← hback,
        show seq.seqlenPadded - (ps.cpRank + 1) * h + h = seq.seqlenPadded - ps.cpRank * h by omega]
    unfold zigzagShard
    rw [hlist2, hfrontPad, ← hn, hbackPad]
    simp only [append_assoc]
    congr 4
    omega

/-- What a rank holds of all sequences. -/
def localPieces (zero : α) (cpSize cpRank : Nat) (seqs : List (List α)) (ns : List Nat) :
    List (List α) :=
  List.zipWith (fun d n => localPiece zero cpSize cpRank n d) seqs ns

/-- The slots of sequences that start at `start`. -/
def slotsFrom (start : Nat) (seqs : List (List α)) (ns : List Nat) : List (SeqSlot α) :=
  (seqs.zip (ns.zip (ns.scanl (· + ·) start))).map fun p =>
    { tokens := p.1, seqlenPadded := p.2.1, cuSeqlen := p.2.2 }

theorem slotsFrom_cons (start n : Nat) (d : List α) (seqs : List (List α)) (ns : List Nat) :
    slotsFrom start (d :: seqs) (n :: ns) =
      { tokens := d, seqlenPadded := n, cuSeqlen := start } ::
        slotsFrom (start + n) seqs ns := by
  unfold slotsFrom
  rw [scanl_cons]
  rfl

theorem slotsFrom_nil (start : Nat) (ns : List Nat) : slotsFrom start ([] : List (List α)) ns = [] :=
  rfl

/-- The sequences, their padded lengths, and what the sizes of the groups say of these. -/
structure Padded (cpSize : Nat) (seqs : List (List α)) (ns : List Nat) : Prop where
  le : List.Forall₂ (fun d n => d.length ≤ n) seqs ns
  dvd : ∀ n ∈ ns, cpSize ∣ n
  twoDvd : 1 < cpSize → ∀ n ∈ ns, 2 * cpSize ∣ n

theorem LayoutOf.padded (hcp : 1 ≤ cpSize)
    (h : LayoutOf tpSize cpSize useFp8Padding (seqs.map length) layout) :
    Padded cpSize seqs layout.seqlensPadded := by
  have htwo : 1 < cpSize → ∀ n ∈ layout.seqlensPadded, 2 * cpSize ∣ n := fun hone n hn =>
    (two_mul_dvd_alignSize hone useFp8Padding).trans (h.dvd n hn)
  refine ⟨forall₂_map_left_iff.1 h.le, fun n hn => ?_, htwo⟩
  by_cases hone : 1 < cpSize
  · exact (Nat.dvd_mul_left cpSize 2).trans (htwo hone n hn)
  · rw [show cpSize = 1 by omega]
    exact Nat.one_dvd n

theorem Padded.tail (h : Padded cpSize (d :: seqs) (n :: ns)) : Padded cpSize seqs ns := by
  obtain ⟨hle, hdvd, htwo⟩ := h
  rw [forall_mem_cons] at hdvd
  cases hle with
  | cons _ hrest =>
    exact ⟨hrest, hdvd.2, fun hone n hn => htwo hone n (mem_cons_of_mem _ hn)⟩

theorem Padded.exists_length_le (h : Padded cpSize seqs ns) (hd : seqs[i]? = some d) :
    ∃ n, ns[i]? = some n ∧ d.length ≤ n := by
  obtain ⟨hi, hget⟩ := List.getElem?_eq_some_iff.1 hd
  have hlen := (forall₂_iff_get.1 h.le).1
  have hle := (forall₂_iff_get.1 h.le).2 i hi (by omega)
  rw [get_eq_getElem, hget] at hle
  exact ⟨_, getElem?_eq_getElem (by omega), hle⟩

theorem sum_div {c : Nat} (h : ∀ n ∈ ns, c ∣ n) : ns.sum / c = (ns.map (· / c)).sum := by
  induction ns with
  | nil => rw [sum_nil, Nat.zero_div, map_nil, sum_nil]
  | cons n ns ih =>
    rw [forall_mem_cons] at h
    rw [sum_cons, Nat.add_div_of_dvd_right h.1, ih h.2, map_cons, sum_cons]

theorem foldlM_packSeq (hcp : 1 ≤ ps.cpSize) (hrank : ps.cpRank < ps.cpSize)
    (h : Padded ps.cpSize seqs ns) {start : Nat} (hbuf : buf.toList = done ++ replicate k zero)
    (hstart : done.length = start / ps.cpSize) (hdvd : ps.cpSize ∣ start)
    (hk : (ns.map (· / ps.cpSize)).sum ≤ k) :
    ∃ buf', (slotsFrom start seqs ns).foldlM (packSeq ps) buf = .ok buf' ∧ buf'.toList =
      (done ++ (localPieces zero ps.cpSize ps.cpRank seqs ns).flatten) ++
        replicate (k - (ns.map (· / ps.cpSize)).sum) zero := by
  induction seqs generalizing ns start k buf done with
  | nil =>
    cases h.le
    refine ⟨buf, rfl, ?_⟩
    rw [hbuf]
    simp [localPieces]
  | cons d seqs ih =>
    cases ns with
    | nil => cases h.le
    | cons n ns =>
      obtain ⟨hd, -⟩ := forall₂_cons.1 h.le
      have hn := h.dvd n mem_cons_self
      have htwo : 1 < ps.cpSize → 2 * ps.cpSize ∣ n :=
        fun hone => h.twoDvd hone n mem_cons_self
      rw [map_cons, sum_cons] at hk
      obtain ⟨buf1, hpack, hlist⟩ := packSeq_eq hcp hrank
        { tokens := d, seqlenPadded := n, cuSeqlen := start } hbuf hstart hd htwo
        (by dsimp only; omega)
      dsimp only at hlist
      have hpiece := length_localPiece zero hcp hrank hd htwo
      have hnext : (done ++ localPiece zero ps.cpSize ps.cpRank n d).length =
          (start + n) / ps.cpSize := by
        rw [length_append, hstart, hpiece, Nat.add_div_of_dvd_right hdvd]
      obtain ⟨buf', hloop, hlist'⟩ := ih h.tail hlist hnext (Nat.dvd_add hdvd hn) (by omega)
      refine ⟨buf', ?_, ?_⟩
      · rw [slotsFrom_cons, foldlM_cons, hpack, ok_bind, hloop]
      · rw [hlist', map_cons, sum_cons, Nat.sub_sub]
        show _ = (done ++ (localPiece zero ps.cpSize ps.cpRank n d ++
          (localPieces zero ps.cpSize ps.cpRank seqs ns).flatten)) ++ _
        rw [append_assoc done]

theorem LayoutOf.seqSlots_eq {seqlens : List Nat}
    (h : LayoutOf tpSize cpSize useFp8Padding seqlens layout)
    (seqs : List (List α)) : seqSlots seqs layout = slotsFrom 0 seqs layout.seqlensPadded := by
  unfold seqSlots
  rw [h.cuSeqlens]
  rfl

theorem localLen_eq (h : Padded cpSize seqs layout.seqlensPadded) :
    localLen cpSize layout = (layout.seqlensPadded.map (· / cpSize)).sum := sum_div h.dvd

theorem foldlM_packSeq_layout (zero : α) (ps : ParallelState) (hcp : 1 ≤ ps.cpSize)
    (hrank : ps.cpRank < ps.cpSize)
    (h : LayoutOf ps.tpSize ps.cpSize useFp8Padding (seqs.map length) layout) :
    ∃ buf, (seqSlots seqs layout).foldlM (packSeq ps)
        (Buffer.replicate (localLen ps.cpSize layout) zero) = .ok buf ∧
      buf.toList = (localPieces zero ps.cpSize ps.cpRank seqs layout.seqlensPadded).flatten := by
  have hpadded := h.padded hcp
  have hlen := localLen_eq hpadded
  have hzeros : (Buffer.replicate (localLen ps.cpSize layout) zero).toList =
      [] ++ replicate (localLen ps.cpSize layout) zero := rfl
  obtain ⟨buf, hloop, hlist⟩ := foldlM_packSeq hcp hrank hpadded hzeros
    (show [].length = 0 / ps.cpSize by simp) (Nat.dvd_zero _) hlen.ge
  refine ⟨buf, by rw [h.seqSlots_eq, hloop], ?_⟩
  rw [hlist, hlen, Nat.sub_self, replicate_zero, append_nil, nil_append]

theorem preprocessPackedSeqs_eq (zero : α) (ps : ParallelState) (htp : 1 ≤ ps.tpSize)
    (hcp : 1 ≤ ps.cpSize) (useFp8Padding : Bool) {inputIds : List (List α)}
    (hne : attentionMask ≠ [])
    (hrows : Forall₂ (fun mask row => mask.length = row.length) attentionMask inputIds) :
    ∃ layout, thdLayout ps.tpSize ps.cpSize useFp8Padding
        ((zipWith maskSelect attentionMask inputIds).map length) = .ok layout ∧
      LayoutOf ps.tpSize ps.cpSize useFp8Padding
        ((zipWith maskSelect attentionMask inputIds).map length) layout ∧
      ∀ cpRank < ps.cpSize,
        preprocessPackedSeqs zero { ps with cpRank := cpRank } useFp8Padding inputIds attentionMask =
          .ok ((localPieces zero ps.cpSize cpRank (zipWith maskSelect attentionMask inputIds)
            layout.seqlensPadded).flatten, layout.params) := by
  have hlens := map_length_maskSelect hrows
  have hlensNe : (zipWith maskSelect attentionMask inputIds).map length ≠ [] := by
    rw [hlens, ne_eq, map_eq_nil_iff]
    exact hne
  obtain ⟨layout, hlayout, hspec⟩ := thdLayout_eq_ok ps.cpSize htp useFp8Padding hlensNe
  refine ⟨layout, hlayout, hspec, fun cpRank hrank => ?_⟩
  obtain ⟨buf, hloop, hlist⟩ := foldlM_packSeq_layout zero { ps with cpRank := cpRank } hcp hrank
    hspec
  unfold preprocessPackedSeqs
  dsimp only at ⊢
  rw [← hlens, hlayout, ok_bind, hloop, ok_bind, hlist]
  rfl

/-! ## Lemmas: gathering -/

theorem rowStart_map_div {c : Nat} (h : ∀ n ∈ ns, c ∣ n) (i : Nat) :
    rowStart (ns.map (· / c)) i = rowStart ns i / c := by
  unfold rowStart
  rw [sum_div fun n hn => h n (mem_of_mem_take hn), map_take]

theorem map_length_localPieces (hcp : 1 ≤ cpSize)
    (hrank : cpRank < cpSize) (h : Padded cpSize seqs ns) :
    (localPieces zero cpSize cpRank seqs ns).map length = ns.map (· / cpSize) := by
  induction seqs generalizing ns with
  | nil =>
    cases h.le
    rfl
  | cons d seqs ih =>
    cases ns with
    | nil => cases h.le
    | cons n ns =>
      have hpiece := length_localPiece zero hcp hrank (forall₂_cons.1 h.le).1
        fun hone => h.twoDvd hone n mem_cons_self
      have hrest := ih h.tail
      unfold localPieces at hrest ⊢
      rw [zipWith_cons_cons, map_cons, map_cons, hpiece, hrest]

theorem getElem?_localPieces (zero : α) (cpRank : Nat)
    (hd : seqs[i]? = some d) (hn : ns[i]? = some n) :
    (localPieces zero cpSize cpRank seqs ns)[i]? = some (localPiece zero cpSize cpRank n d) := by
  unfold localPieces
  rw [getElem?_zipWith, hd, hn]

theorem getSlice_localPieces (zero : α) {o : Nat} (hcp : 1 ≤ cpSize) (hrank : cpRank < cpSize)
    (h : Padded cpSize seqs ns) (hd : seqs[i]? = some d) (hn : ns[i]? = some n) (hle : d.length ≤ n)
    (hw : o + w ≤ n / cpSize) :
    getSlice (localPieces zero cpSize cpRank seqs ns).flatten (rowStart ns i / cpSize + o) w =
      getSlice (localPiece zero cpSize cpRank n d) o w := by
  have hpiece := length_localPiece zero hcp hrank hle
    fun hone => h.twoDvd hone n (mem_of_getElem? hn)
  have hslice := getSlice_flatten (getElem?_localPieces zero cpRank hd hn)
    (show o + w ≤ _ by rw [hpiece]; exact hw)
  rwa [map_length_localPieces hcp hrank h, rowStart_map_div h.dvd] at hslice

theorem writeChunks_eq {h : Nat} (chunks : Nat → List α × List α) {shards : List (List α)}
    (hfront : ∀ j < cpSize, (chunks j).1 = getSlice (shards.getD j []) 0 h)
    (hback : ∀ j < cpSize, (chunks j).2 = getSlice (shards.getD j []) h h)
    (hshards : ∀ j < cpSize, (shards.getD j []).length = 2 * h) (hm : m = 2 * cpSize * h)
    (buf : Buffer α m) :
    ∃ tmp, writeChunks cpSize h chunks buf = .ok tmp ∧
      tmp.toList = zigzagGather cpSize h shards buf.toList cpSize := by
  -- the loop over the first `k` ranks
  suffices hloop : ∀ k ≤ cpSize, ∃ tmp, (range k).foldlM (fun tmp (j : Nat) => do
        let tmp ← store tmp (j * h) h (chunks j).1
        store tmp (m - (j + 1) * h) h (chunks j).2) buf = .ok tmp ∧
      tmp.toList = zigzagGather cpSize h shards buf.toList k from hloop cpSize (Nat.le_refl _)
  intro k hk
  induction k with
  | zero => exact ⟨buf, rfl, rfl⟩
  | succ k ih =>
    obtain ⟨tmp, hloop, hlist⟩ := ih (by omega)
    have hkcp : k < cpSize := by omega
    have hle := succ_mul_le (h := h) hkcp
    have hsucc := Nat.add_one_mul k h
    have htwo := Nat.mul_assoc 2 cpSize h
    have hlen := hshards k hkcp
    have hlenFront : (getSlice (shards.getD k []) 0 h).length = h := length_getSlice (by omega)
    have hlenBack : (getSlice (shards.getD k []) h h).length = h := length_getSlice (by omega)
    obtain ⟨tmp1, hassign1, hlist1⟩ := tmp.assign_eq (show k * h + h ≤ m by omega) hlenFront
    obtain ⟨tmp2, hassign2, hlist2⟩ := tmp1.assign_eq (show m - (k + 1) * h + h ≤ m by omega)
      hlenBack
    refine ⟨tmp2, ?_, ?_⟩
    · rw [range_succ, foldlM_append, hloop, ok_bind, foldlM_cons,
        hfront k hkcp, hback k hkcp]
      unfold store
      rw [hassign1, ok_bind, hassign2]
      rfl
    · have hoffset : m - (k + 1) * h = 2 * cpSize * h - (k + 1) * h := by rw [hm]
      rw [hlist2, hlist1, hlist, hoffset]
      rfl

theorem getD_map_range {β : Type} {j : Nat} (hj : j < n) (f : Nat → List β) :
    ((range n).map f).getD j [] = f j := by grind

theorem writeChunks_shards {h : Nat} (chunks : Nat → List α × List α) {xs : List α}
    (hxs : xs.length = 2 * cpSize * h)
    (hfront : ∀ j < cpSize, (chunks j).1 = getSlice (zigzagShard cpSize h xs j) 0 h)
    (hback : ∀ j < cpSize, (chunks j).2 = getSlice (zigzagShard cpSize h xs j) h h)
    (hm : m = 2 * cpSize * h) (buf : Buffer α m) :
    ∃ tmp, writeChunks cpSize h chunks buf = .ok tmp ∧ tmp.toList = xs := by
  have hshard : ∀ j < cpSize,
      ((range cpSize).map (zigzagShard cpSize h xs)).getD j [] = zigzagShard cpSize h xs j :=
    fun j hj => getD_map_range hj _
  obtain ⟨tmp, hloop, hlist⟩ := writeChunks_eq chunks
    (fun j hj => by rw [hshard j hj, hfront j hj]) (fun j hj => by rw [hshard j hj, hback j hj])
    (fun j hj => by rw [hshard j hj, length_zigzagShard hxs hj]) hm buf
  refine ⟨tmp, hloop, ?_⟩
  rw [hlist, zigzagGather_shards hxs (by rw [buf.length_eq, hm])]

theorem gatherSeq_eq {empty : α} (hcp : 1 < cpSize) (h : Padded cpSize seqs ns)
    (hd : seqs[i]? = some d) (hn : ns[i]? = some n) (hle : d.length ≤ n)
    (houtputs : ∀ j < cpSize, outputList.getD j [] = (localPieces zero cpSize j seqs ns).flatten) :
    gatherSeq empty cpSize outputList (rowStart ns i) (rowStart ns (i + 1)) =
      .ok (padTo zero n d) := by
  obtain ⟨hchunk, hhalf⟩ := half_eq hcp (h.twoDvd hcp n (mem_of_getElem? hn))
  have hstop : rowStart ns (i + 1) - rowStart ns i = n := by
    rw [rowStart_succ hn]
    omega
  generalize hh : n / cpSize / 2 = half at hchunk hhalf
  have hpiece : ∀ j, localPiece zero cpSize j n d =
      zigzagShard cpSize half (padTo zero n d) j := by
    intro j
    unfold localPiece
    rw [if_neg (by omega), hh]
  have hpadded : (padTo zero n d).length = 2 * cpSize * half := by
    rw [length_padTo _ hle]
    exact hhalf
  have hm : n / cpSize * cpSize = 2 * cpSize * half := by
    rw [hchunk, Nat.mul_right_comm]
  have hfront : ∀ j < cpSize, getSlice (outputList.getD j []) (rowStart ns i / cpSize) half =
      getSlice (zigzagShard cpSize half (padTo zero n d) j) 0 half := by
    intro j hj
    rw [houtputs j hj, ← hpiece]
    exact getSlice_localPieces zero (by omega) hj h hd hn hle (o := 0) (by omega)
  have hback : ∀ j < cpSize, getSlice (outputList.getD j []) (rowStart ns i / cpSize + half)
      (n / cpSize - half) = getSlice (zigzagShard cpSize half (padTo zero n d) j) half half := by
    intro j hj
    rw [houtputs j hj, ← hpiece, show n / cpSize - half = half by omega]
    exact getSlice_localPieces zero (by omega) hj h hd hn hle (by omega)
  obtain ⟨tmp, hloop, hlist⟩ := writeChunks_shards (fun j =>
      (getSlice (outputList.getD j []) (rowStart ns i / cpSize) half,
        getSlice (outputList.getD j []) (rowStart ns i / cpSize + half) (n / cpSize - half)))
    hpadded hfront hback hm (Buffer.replicate (n / cpSize * cpSize) empty)
  unfold gatherSeq
  dsimp only
  rw [hstop, hh, hloop, ok_bind, hlist]
  rfl

theorem maskPut_eq {row vals : List α} {mask : List Bool} (h : vals.length = mask.count true) :
    maskPut row mask vals = .ok (maskAssign mask row vals) := if_pos h

/-- Without context parallelism the tokens of a sequence are one stretch of the output. -/
theorem getSlice_outputs {s : Nat} (hone : cpSize = 1) (h : Padded cpSize seqs ns)
    (hd : seqs[i]? = some d) (hn : ns[i]? = some n) (hle : d.length ≤ n) (hs : s ≤ d.length)
    (houtputs : ∀ j < cpSize, outputList.getD j [] = (localPieces zero cpSize j seqs ns).flatten) :
    getSlice (outputList.getD 0 []) (rowStart ns i) s = d.take s := by
  subst hone
  have hslice := getSlice_localPieces zero (Nat.le_refl 1) Nat.one_pos h hd hn hle
    (show 0 + s ≤ n / 1 by omega)
  rw [Nat.div_one, Nat.add_zero] at hslice
  rw [houtputs 0 Nat.one_pos, hslice]
  show (padTo zero n d).take s = d.take s
  unfold padTo
  rw [take_append_of_le_length hs]

/-- The first items of a sequence, at the positions of its tokens in the padded batch. -/
theorem unpackSeq_take (zero empty : α)
    (hcp : 1 ≤ ps.cpSize) (h : Padded ps.cpSize seqs ns)
    {mask : List Bool} (hd : seqs[i]? = some d) (hn : ns[i]? = some n)
    (hle : d.length ≤ n) (hcount : mask.count true ≤ d.length)
    (houtputs : ∀ j < ps.cpSize, outputList.getD j [] =
      (localPieces zero ps.cpSize j seqs ns).flatten) :
    unpackSeq zero empty ps outputList seqLen mask (rowStart ns i) (rowStart ns (i + 1)) =
      .ok (maskAssign mask (replicate seqLen zero) (d.take (mask.count true))) := by
  have hlen : (d.take (mask.count true)).length = mask.count true := by grind
  unfold unpackSeq
  by_cases hone : ps.cpSize ≤ 1
  · rw [if_pos hone, getSlice_outputs (by omega) h hd hn hle hcount houtputs, maskPut_eq hlen]
  · rw [if_neg hone]
    rw [gatherSeq_eq (by omega) h hd hn hle houtputs, ok_bind]
    unfold padTo
    rw [take_append_of_le_length hcount, maskPut_eq hlen]

theorem gatherOutputs_getD (hrank : ps.cpRank < ps.cpSize) {j : Nat} (hj : j < ps.cpSize) :
    (gatherOutputs ps ((range ps.cpSize).map outs) (outs ps.cpRank)).getD j [] = outs j := by
  unfold gatherOutputs
  by_cases hone : 1 < ps.cpSize
  · grind
  · grind

theorem mapM_zip_offsets {β γ : Type} {f : β → Nat → Nat → Except PyErr γ} {xs : List β}
    {ys : List γ} (hlen : xs.length = ns.length) (hlen' : ys.length = ns.length)
    (hf : ∀ (i : Nat) x n y, xs[i]? = some x → ns[i]? = some n → ys[i]? = some y →
      f x (rowStart ns i) (rowStart ns (i + 1)) = .ok y) :
    ((xs.zip ((offsets ns).zip (offsets ns).tail)).mapM fun p => f p.1 p.2.1 p.2.2) = .ok ys := by
  apply mapM_eq_ok_of_forall₂
  rw [forall₂_iff_get]
  refine ⟨?_, fun i hi hi' => ?_⟩
  · rw [length_zip, length_zip, length_tail, length_offsets]
    omega
  · have hx := getElem?_eq_getElem (l := xs) (i := i) (by omega)
    have hn := getElem?_eq_getElem (l := ns) (i := i) (by omega)
    have hy := getElem?_eq_getElem (l := ys) (i := i) hi'
    have hstart : (offsets ns)[i]? = some (rowStart ns i) := getElem?_offsets_of_getElem? hn
    have hstop := getElem?_tail_offsets hn
    rw [← rowStart_succ hn] at hstop
    obtain ⟨hi1, hstart⟩ := List.getElem?_eq_some_iff.1 hstart
    obtain ⟨hi2, hstop⟩ := List.getElem?_eq_some_iff.1 hstop
    rw [get_eq_getElem, getElem_zip, getElem_zip]
    rw [hstart, hstop]
    exact hf i _ _ _ hx hn hy

theorem postprocessPackedSeqs_take (zero empty : α) (ps : ParallelState) (hcp : 1 ≤ ps.cpSize)
    (hrank : ps.cpRank < ps.cpSize) {params : PackedSeqParams}
    (hparams : params.cuSeqlensPadded = offsets ns) (h : Padded ps.cpSize seqs ns)
    (hcounts : Forall₂ (fun mask d => mask.count true ≤ d.length) attentionMask seqs)
    (houts : ∀ r < ps.cpSize, outs r = (localPieces zero ps.cpSize r seqs ns).flatten) :
    postprocessPackedSeqs zero empty ps ((range ps.cpSize).map outs) (outs ps.cpRank)
        params attentionMask seqLen =
      .ok (zipWith (fun mask d =>
        maskAssign mask (replicate seqLen zero) (d.take (mask.count true)))
          attentionMask seqs) := by
  have hlen := (forall₂_iff_get.1 h.le).1
  have hlenMasks := (forall₂_iff_get.1 hcounts).1
  unfold postprocessPackedSeqs
  rw [hparams]
  apply mapM_zip_offsets (f := unpackSeq zero empty ps (gatherOutputs ps _ _) seqLen)
  · omega
  · grind
  · intro i mask n y hmask hn hy
    rw [getElem?_zipWith, hmask] at hy
    cases hd : seqs[i]? with
    | none =>
      rw [hd] at hy
      cases hy
    | some d =>
      rw [hd] at hy
      cases hy
      obtain ⟨hi, hmask'⟩ := List.getElem?_eq_some_iff.1 hmask
      obtain ⟨hi', hd'⟩ := List.getElem?_eq_some_iff.1 hd
      have hcount := (forall₂_iff_get.1 hcounts).2 i hi hi'
      rw [get_eq_getElem, get_eq_getElem, hmask', hd'] at hcount
      obtain ⟨n', hn', hle⟩ := h.exists_length_le hd
      rw [hn] at hn'
      cases hn'
      exact unpackSeq_take zero empty hcp h hd hn hle hcount
        fun j hj => (gatherOutputs_getD hrank hj).trans (houts j hj)

theorem postprocessPackedSeqs_eq (zero empty : α) (ps : ParallelState) (hcp : 1 ≤ ps.cpSize)
    (hrank : ps.cpRank < ps.cpSize) {inputIds : List (List α)}
    (useFp8Padding : Bool)
    (hrows : Forall₂ (fun mask row => mask.length = row.length) attentionMask inputIds)
    (hwidth : ∀ row ∈ inputIds, row.length = seqLen)
    (h : LayoutOf ps.tpSize ps.cpSize useFp8Padding
      ((zipWith maskSelect attentionMask inputIds).map length) layout)
    (houts : ∀ r < ps.cpSize, outs r = (localPieces zero ps.cpSize r
      (zipWith maskSelect attentionMask inputIds) layout.seqlensPadded).flatten) :
    postprocessPackedSeqs zero empty ps ((range ps.cpSize).map outs) (outs ps.cpRank)
        layout.params attentionMask seqLen =
      .ok (zipWith (zipWith fun m x => if m then x else zero) attentionMask inputIds) := by
  have hcounts : Forall₂ (fun mask d => mask.count true ≤ d.length) attentionMask
      (zipWith maskSelect attentionMask inputIds) := by
    clear houts h hwidth
    induction hrows with
    | nil => exact .nil
    | cons hlen _ ih => exact .cons (length_maskSelect hlen).ge ih
  rw [postprocessPackedSeqs_take zero empty ps hcp hrank h.cuSeqlens (h.padded hcp) hcounts houts]
  congr 1
  clear houts h hcounts
  induction hrows with
  | nil => rfl
  | @cons mask row masks rows hlen _ ih =>
    rw [zipWith_cons_cons, zipWith_cons_cons, zipWith_cons_cons,
      ih fun row' hrow' => hwidth row' (mem_cons_of_mem _ hrow'), ← length_maskSelect hlen,
      take_length, ← hwidth row mem_cons_self, maskAssign_maskSelect hlen]

end Verl.MCore
