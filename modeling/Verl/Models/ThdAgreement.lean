import Verl.Models.ThdEngine

/-! # The model engine packs as `preprocess_packed_seqs` (`verl/models/mcore/util.py`)

Both ways of packing compute one layout, so they can be compared on a batch of nested sequences and
on the same sequences padded from the left.

    out       the engine without `need_roll`, the packed tokens of `preprocess_packed_seqs`
    rolled    the engine with `need_roll`, where a slot holds the token after its own

* `EngineAgrees`: what the two outputs of a rank are.
* `EngineFits`: the batches for which they are.  A sequence padded to far more than its own length
  and the alignment leaves no room for its front chunks, and an empty sequence writes zero over the
  last slot of the sequence before it. -/

namespace Verl.MCore

open List

variable {α : Type}

/-- A row of a batch that is padded from the left. -/
def leftPadded (pad : α) (width : Nat) (seq : List α) : List α :=
  List.replicate (width - seq.length) pad ++ seq

/-- Its attention mask. -/
def leftPaddedMask (width : Nat) (seq : List α) : List Bool :=
  List.replicate (width - seq.length) false ++ List.replicate seq.length true

/-- The position in the sequence of a local slot. -/
def slotPosition (cpSize halfSeqlen cpRank slot : Nat) : Nat :=
  if cpSize ≤ 1 then slot else zigzagPosition cpSize halfSeqlen cpRank slot

/-- What the engine returns on a rank, without and with `need_roll`. -/
structure EngineAgrees (zero : α) (ps : ParallelState) (useFp8Padding : Bool) (seqs : List (List α))
    (out rolled : ThdBatch α) : Prop where
  packs : preprocessThdEngine zero ps false useFp8Padding seqs = .ok out
  rolls : preprocessThdEngine zero ps true useFp8Padding seqs = .ok rolled
  params : rolled.params = out.params
  same : ∀ pad width, (∀ seq ∈ seqs, seq.length ≤ width) →
    preprocessPackedSeqs zero ps useFp8Padding (seqs.map (leftPadded pad width))
      (seqs.map (leftPaddedMask width)) = .ok (out.inputIds, out.params)
  next : ∀ (i : Nat) (seq : List α) start stop, seqs[i]? = some seq →
    out.params.cuSeqlensPadded[i]? = some start → out.params.cuSeqlensPadded[i + 1]? = some stop →
    ∀ slot < (stop - start) / ps.cpSize, ∀ position,
      slotPosition ps.cpSize ((stop - start) / ps.cpSize / 2) ps.cpRank slot = position →
      position + 1 < seq.length →
      rolled.inputIds[start / ps.cpSize + slot]? = seq[position + 1]?

/-- The lengths padded to the alignment, the last one with FP8 to an aligned total. -/
def paddedLengths (tpSize cpSize : Nat) (useFp8Padding : Bool) (seqlens : List Nat) : List Nat :=
  let padded := seqlens.map fun n => n + padSize (alignSize tpSize cpSize useFp8Padding) n
  let totalAlign := (computeFp8ThdAlignSize (baseAlignSize tpSize cpSize)).2
  addLast (if useFp8Padding then padSize totalAlign padded.sum else 0) padded

/-- The batches the engine packs right on all ranks. -/
structure EngineFits (zero : α) (tpSize cpSize : Nat) (useFp8Padding : Bool)
    (seqs : List (List α)) : Prop where
  nonempty : seqs ≠ []
  some_ne_nil : 1 < cpSize → ∃ seq ∈ seqs, seq ≠ []
  /-- The front half of a padded sequence lies inside the sequence or the alignment. -/
  room : 1 < cpSize → ∀ (i : Nat) (seq : List α) n, seqs[i]? = some seq →
    (paddedLengths tpSize cpSize useFp8Padding (seqs.map List.length))[i]? = some n →
    n / 2 < max seq.length (alignSize tpSize cpSize useFp8Padding)
  /-- Before an empty sequence, what follows a rank's last slot is behind the end or zero. -/
  before_empty : 1 < cpSize → ∀ (i : Nat) (seq : List α) n, seqs[i]? = some seq →
    (paddedLengths tpSize cpSize useFp8Padding (seqs.map List.length))[i]? = some n →
    (paddedLengths tpSize cpSize useFp8Padding (seqs.map List.length))[i + 1]? = some 0 →
    ∀ cpRank < cpSize, n - cpRank * (n / cpSize / 2) < seq.length →
      seq[n - cpRank * (n / cpSize / 2)]? = some zero

/-! ## Lemmas: the layout -/

variable {layout : ThdLayout} {useFp8Padding : Bool} {seqs : List (List α)}

theorem seqlensPadded_of_thdLayout {tpSize cpSize : Nat} {seqlens : List Nat}
    (h : thdLayout tpSize cpSize useFp8Padding seqlens = .ok layout) :
    layout.seqlensPadded = paddedLengths tpSize cpSize useFp8Padding seqlens := by
  unfold thdLayout at h
  dsimp only at h
  rw [getLastD_offsets] at h
  split at h
  · grind
  · cases h
    rfl

theorem maskSelect_leftPadded (pad : α) (width : Nat) (seq : List α) :
    maskSelect (leftPaddedMask width seq) (leftPadded pad width seq) = seq := by
  unfold leftPaddedMask leftPadded
  rw [maskSelect_append (by simp), maskSelect_replicate_false, maskSelect_replicate_true,
    nil_append]

theorem zipWith_leftPadded (pad : α) (width : Nat) (seqs : List (List α)) :
    zipWith maskSelect (seqs.map (leftPaddedMask width)) (seqs.map (leftPadded pad width)) =
      seqs := by
  induction seqs with
  | nil => rfl
  | cons seq seqs ih =>
    rw [map_cons, map_cons, zipWith_cons_cons, maskSelect_leftPadded, ih]

theorem forall₂_leftPadded (pad : α) (width : Nat) (seqs : List (List α)) :
    Forall₂ (fun (mask : List Bool) (row : List α) => mask.length = row.length)
      (seqs.map (leftPaddedMask width)) (seqs.map (leftPadded pad width)) := by
  rw [forall₂_map_left_iff, forall₂_map_right_iff, forall₂_same]
  intro seq _
  unfold leftPaddedMask leftPadded
  simp

/-- `preprocess_packed_seqs` on a left-padded batch: the pieces of the sequences. -/
theorem preprocessPackedSeqs_leftPadded (zero pad : α) (ps : ParallelState) (htp : 1 ≤ ps.tpSize)
    (hcp : 1 ≤ ps.cpSize) (hrank : ps.cpRank < ps.cpSize) (hne : seqs ≠ [])
    (hlayout : thdLayout ps.tpSize ps.cpSize useFp8Padding (seqs.map length) = .ok layout)
    (width : Nat) :
    preprocessPackedSeqs zero ps useFp8Padding (seqs.map (leftPadded pad width))
        (seqs.map (leftPaddedMask width)) =
      .ok ((localPieces zero ps.cpSize ps.cpRank seqs layout.seqlensPadded).flatten,
        layout.params) := by
  have hmasks : seqs.map (leftPaddedMask width) ≠ [] := by
    rw [ne_eq, map_eq_nil_iff]
    exact hne
  obtain ⟨layout', hlayout', -, hpack⟩ := preprocessPackedSeqs_eq zero ps htp hcp useFp8Padding
    hmasks (forall₂_leftPadded pad width seqs)
  have hrun := hpack ps.cpRank hrank
  rw [zipWith_leftPadded] at hlayout' hrun
  rw [hlayout] at hlayout'
  cases hlayout'
  exact hrun

/-- The local tensor is empty iff all sequences are. -/
theorem localLen_pos_iff {tpSize cpSize : Nat} (hcp : 1 ≤ cpSize)
    (hlayout : thdLayout tpSize cpSize useFp8Padding (seqs.map length) = .ok layout)
    (h : Padded cpSize seqs layout.seqlensPadded) :
    0 < localLen cpSize layout ↔ ∃ seq ∈ seqs, seq ≠ [] := by
  have hzero : ∀ align, padSize align 0 = 0 := by
    intro align
    unfold padSize
    rw [Nat.zero_mod, Nat.sub_zero, Nat.mod_self]
  constructor
  · intro hpos
    by_contra hall
    push Not at hall
    have hlens : seqs.map length = replicate seqs.length 0 := by
      rw [eq_replicate_iff]
      refine ⟨length_map _, fun n hn => ?_⟩
      obtain ⟨seq, hseq, rfl⟩ := mem_map.1 hn
      rw [hall seq hseq, length_nil]
    have hadd : ∀ k, addLast 0 (replicate k 0) = replicate k 0 := by
      intro k
      induction k with
      | zero => rfl
      | succ k ih =>
        cases k with
        | zero => rfl
        | succ k => exact congrArg (0 :: ·) ih
    have hpadded := seqlensPadded_of_thdLayout hlayout
    unfold paddedLengths at hpadded
    dsimp only at hpadded
    rw [hlens, map_replicate, hzero, sum_replicate_nat,
      Nat.mul_zero, hzero, ite_self, hadd] at hpadded
    unfold localLen at hpos
    rw [hpadded, sum_replicate_nat, Nat.mul_zero, Nat.zero_div] at hpos
    exact Nat.lt_irrefl 0 hpos
  · rintro ⟨seq, hseq, hne⟩
    obtain ⟨i, hi⟩ := mem_iff_getElem?.1 hseq
    obtain ⟨n, hn, hle⟩ := h.exists_length_le hi
    have hpos := length_pos_iff.2 hne
    have hsum := rowStart_add_lt hn (show 0 < n by omega)
    exact Nat.div_pos (Nat.le_of_dvd (by omega) (dvd_sum h.dvd)) (by omega)

theorem getElem?_slotsFrom (start : Nat) {i n : Nat} {ns : List Nat}
    {seq : List α} (hseq : seqs[i]? = some seq) (hn : ns[i]? = some n) :
    ∃ slot ∈ slotsFrom start seqs ns, slot.tokens = seq ∧ slot.seqlenPadded = n := by
  induction i generalizing start seqs ns with
  | zero =>
    cases seqs with
    | nil => cases hseq
    | cons d seqs =>
      cases ns with
      | nil => cases hn
      | cons n' ns =>
        cases hseq
        cases hn
        rw [slotsFrom_cons]
        exact ⟨_, mem_cons_self, rfl, rfl⟩
  | succ i ih =>
    cases seqs with
    | nil => cases hseq
    | cons d seqs =>
      cases ns with
      | nil => cases hn
      | cons n' ns =>
        rw [slotsFrom_cons]
        obtain ⟨slot, hmem, hslot⟩ := ih (start + n') hseq hn
        exact ⟨slot, mem_cons_of_mem _ hmem, hslot⟩

theorem exists_getElem?_of_mem_slotsFrom {start : Nat} {ns : List Nat}
    {slot : SeqSlot α} (h : slot ∈ slotsFrom start seqs ns) :
    ∃ i : Nat, seqs[i]? = some slot.tokens ∧ ns[i]? = some slot.seqlenPadded := by
  obtain ⟨p, hp, rfl⟩ := mem_map.1 h
  obtain ⟨i, hi⟩ := mem_iff_getElem?.1 hp
  rw [getElem?_zip_eq_some, getElem?_zip_eq_some] at hi
  exact ⟨i, hi.1, hi.2.1⟩

/-! ## Lemmas: the engine on a batch that fits -/

section Fitting

variable {zero : α} {ps : ParallelState} {useFp8Padding : Bool} {seqs : List (List α)}
  {layout : ThdLayout}

variable {n slot i : Nat} {ns : List Nat} {seq : List α}

theorem foldlM_thdSeq_layout (zero : α) (needRoll : Bool) {align : Nat} (hcp : 1 ≤ ps.cpSize)
    (hrank : ps.cpRank < ps.cpSize)
    (h : LayoutOf ps.tpSize ps.cpSize useFp8Padding (seqs.map length) layout)
    (hholds : 1 < ps.cpSize → ∀ seq ∈ slotsFrom 0 seqs layout.seqlensPadded,
      Holds ps.cpSize align seq)
    (hroll : needRoll = true → 1 < ps.cpSize → 0 < localLen ps.cpSize layout ∧
      ∀ seq ∈ slotsFrom 0 seqs layout.seqlensPadded, Fits ps.cpSize align seq) :
    ∃ s, (seqSlots seqs layout).foldlM (thdSeq zero ps align needRoll)
        { inputIds := Buffer.replicate (localLen ps.cpSize layout) zero
          positionIds := Buffer.replicate (localLen ps.cpSize layout) 0
          savedRoll := []
          savedPositionRoll := [] } = .ok s ∧
      s.inputIds.toList =
        (localPieces zero ps.cpSize ps.cpRank seqs layout.seqlensPadded).flatten ∧
      s.savedRoll = savedRolls zero ps align needRoll [] (slotsFrom 0 seqs layout.seqlensPadded) ∧
      s.savedPositionRoll.map Prod.fst = s.savedRoll.map Prod.fst := by
  have hpadded := h.padded hcp
  have hlen := localLen_eq hpadded
  have hzeros : (Buffer.replicate (localLen ps.cpSize layout) zero).toList =
      [] ++ replicate (localLen ps.cpSize layout) zero := rfl
  obtain ⟨s, hloop, hlist, hsaved, hkeys⟩ := @foldlM_thdSeq α zero ps align
    needRoll hcp hrank (localLen ps.cpSize layout) seqs layout.seqlensPadded hpadded 0
    (localLen ps.cpSize layout)
    { inputIds := Buffer.replicate (localLen ps.cpSize layout) zero
      positionIds := Buffer.replicate (localLen ps.cpSize layout) 0
      savedRoll := []
      savedPositionRoll := [] } [] hzeros (show [].length = 0 / ps.cpSize by simp)
    (Nat.dvd_zero _) hlen.ge hholds hroll rfl
  refine ⟨s, by rw [h.seqSlots_eq, hloop], ?_, hsaved, hkeys⟩
  rw [hlist, hlen, Nat.sub_self, replicate_zero, append_nil, nil_append]

/-- Without `need_roll` the engine returns the pieces of the sequences. -/
theorem preprocessThdEngine_packs (zero : α) (ps : ParallelState) (hcp : 1 ≤ ps.cpSize)
    (hrank : ps.cpRank < ps.cpSize)
    (hlayout : thdLayout ps.tpSize ps.cpSize useFp8Padding (seqs.map length) = .ok layout)
    (h : LayoutOf ps.tpSize ps.cpSize useFp8Padding (seqs.map length) layout)
    (hholds : 1 < ps.cpSize → ∀ seq ∈ slotsFrom 0 seqs layout.seqlensPadded,
      Holds ps.cpSize (alignSize ps.tpSize ps.cpSize useFp8Padding) seq) :
    ∃ out, preprocessThdEngine zero ps false useFp8Padding seqs = .ok out ∧
      out.inputIds = (localPieces zero ps.cpSize ps.cpRank seqs layout.seqlensPadded).flatten ∧
      out.params = layout.params := by
  obtain ⟨s, hloop, hlist, -⟩ := foldlM_thdSeq_layout zero false hcp hrank h hholds
    (fun hroll => nomatch hroll)
  unfold preprocessThdEngine
  rw [hlayout, ok_bind]
  dsimp only
  rw [hloop]
  exact ⟨_, rfl, hlist, rfl⟩

theorem getElem?_rollRow {xs : List α} {j : Nat} (h : j + 1 < xs.length) :
    (rollRow xs)[j]? = xs[j + 1]? := by
  unfold rollRow
  rw [getElem?_rotate (by omega), Nat.mod_eq_of_lt h]

theorem length_rollRow (xs : List α) : (rollRow xs).length = xs.length := length_rotate _ _

theorem savedKeys_foldl (zero : α) (align : Nat) (hcp : 1 < ps.cpSize)
    (h : Padded ps.cpSize seqs ns) {start : Nat} (hdvd : ps.cpSize ∣ start)
    {saved : List (Int × α)} (hsaved : SavedKeys (start / ps.cpSize) (saved.map Prod.fst)) :
    SavedKeys (start / ps.cpSize + (ns.map (· / ps.cpSize)).sum)
      (((slotsFrom start seqs ns).foldl (savedAfter zero ps align) saved).map Prod.fst) := by
  induction seqs generalizing ns start saved with
  | nil =>
    cases h.le
    exact hsaved
  | cons d seqs ih =>
    cases ns with
    | nil => cases h.le
    | cons n ns =>
      obtain ⟨hchunk, -⟩ := half_eq hcp (h.twoDvd hcp n mem_cons_self)
      have hdvd' := Nat.dvd_add hdvd (h.dvd n mem_cons_self)
      have hnext : (start + n) / ps.cpSize = start / ps.cpSize + n / ps.cpSize :=
        Nat.add_div_of_dvd_right hdvd
      have hkeys := savedKeys_savedAfter zero align
        { tokens := d, seqlenPadded := n, cuSeqlen := start } hsaved rfl
      rw [← hchunk, ← hnext] at hkeys
      have hrest := ih h.tail hdvd' hkeys
      rw [hnext] at hrest
      rw [slotsFrom_cons, map_cons, sum_cons, ← Nat.add_assoc]
      exact hrest

/-- What a rank holds in a slot of the padded sequence `i`. -/
theorem getElem?_localPieces_padTo (zero : α) {cpSize cpRank : Nat} (hcp : 1 ≤ cpSize)
    (hrank : cpRank < cpSize) (h : Padded cpSize seqs ns) (hseq : seqs[i]? = some seq)
    (hn : ns[i]? = some n) (hle : seq.length ≤ n) (hslot : slot < n / cpSize) :
    (localPieces zero cpSize cpRank seqs ns).flatten[rowStart ns i / cpSize + slot]? =
      (padTo zero n seq)[slotPosition cpSize (n / cpSize / 2) cpRank slot]? := by
  have hslice := getSlice_localPieces zero hcp hrank h hseq hn hle
    (show slot + 1 ≤ n / cpSize from hslot)
  have hget := congrArg (·[0]?) hslice
  rw [getElem?_getSlice _ _ Nat.one_pos, getElem?_getSlice _ _ Nat.one_pos, Nat.add_zero,
    Nat.add_zero] at hget
  rw [hget]
  unfold localPiece slotPosition
  by_cases hone : cpSize ≤ 1
  · rw [if_pos hone, if_pos hone]
  · obtain ⟨hchunk, hn'⟩ := half_eq (by omega) (h.twoDvd (by omega) n (mem_of_getElem? hn))
    rw [if_neg hone, if_neg hone,
      getElem?_zigzagShard (by rw [length_padTo _ hle]; exact hn') hrank (by omega)]

theorem getElem?_localPieces_flatten (zero : α) {cpSize cpRank : Nat} (hcp : 1 ≤ cpSize)
    (hrank : cpRank < cpSize) (h : Padded cpSize seqs ns) (hseq : seqs[i]? = some seq)
    (hn : ns[i]? = some n) (hle : seq.length ≤ n) (hslot : slot < n / cpSize)
    (hlt : slotPosition cpSize (n / cpSize / 2) cpRank slot < seq.length) :
    (localPieces zero cpSize cpRank seqs ns).flatten[rowStart ns i / cpSize + slot]? =
      seq[slotPosition cpSize (n / cpSize / 2) cpRank slot]? := by
  rw [getElem?_localPieces_padTo zero hcp hrank h hseq hn hle hslot, getElem?_padTo_of_lt hlt]

/-- The slot behind one that is rolled. -/
theorem getElem?_rollRow_flatten (zero : α) (hcp : 1 ≤ ps.cpSize) (hrank : ps.cpRank < ps.cpSize)
    (h : Padded ps.cpSize seqs ns) {p : Nat} (hseq : seqs[i]? = some seq) (hn : ns[i]? = some n)
    (hle : seq.length ≤ n) (hslot : slot + 1 < n / ps.cpSize) (hlt : p < seq.length)
    (hp : slotPosition ps.cpSize (n / ps.cpSize / 2) ps.cpRank (slot + 1) = p) :
    rowStart ns i / ps.cpSize + slot + 1 <
        (localPieces zero ps.cpSize ps.cpRank seqs ns).flatten.length ∧
      (rollRow (localPieces zero ps.cpSize ps.cpRank seqs ns).flatten)[
        rowStart ns i / ps.cpSize + slot]? = seq[p]? := by
  have hget := getElem?_localPieces_flatten zero hcp hrank h hseq hn hle hslot
    (by rw [hp]; exact hlt)
  rw [hp] at hget
  have hbound := hget.trans (getElem?_eq_getElem hlt)
  obtain ⟨hj, -⟩ := List.getElem?_eq_some_iff.1 hbound
  exact ⟨hj, (getElem?_rollRow hj).trans hget⟩

/-- With `need_roll` a slot holds the next token, save the last slot before an empty sequence. -/
theorem preprocessThdEngine_rolls (zero : α) (ps : ParallelState) (hcp : 1 ≤ ps.cpSize)
    (hrank : ps.cpRank < ps.cpSize)
    (hlayout : thdLayout ps.tpSize ps.cpSize useFp8Padding (seqs.map length) = .ok layout)
    (h : LayoutOf ps.tpSize ps.cpSize useFp8Padding (seqs.map length) layout)
    (hfits : 1 < ps.cpSize → ∀ seq ∈ slotsFrom 0 seqs layout.seqlensPadded, Fits ps.cpSize (alignSize ps.tpSize ps.cpSize useFp8Padding) seq)
    (hpos : 1 < ps.cpSize → 0 < localLen ps.cpSize layout) :
    ∃ rolled, preprocessThdEngine zero ps true useFp8Padding seqs = .ok rolled ∧
      rolled.params = layout.params ∧
      ∀ i n slot (seq : List α), seqs[i]? = some seq → layout.seqlensPadded[i]? = some n →
        slot < n / ps.cpSize →
        slotPosition ps.cpSize (n / ps.cpSize / 2) ps.cpRank slot + 1 < seq.length →
        rolled.inputIds[rowStart layout.seqlensPadded i / ps.cpSize + slot]? =
          if 1 < ps.cpSize ∧ slot + 1 = n / ps.cpSize ∧ layout.seqlensPadded[i + 1]? = some 0 then
            some zero
          else seq[slotPosition ps.cpSize (n / ps.cpSize / 2) ps.cpRank slot + 1]? := by
  have hpadded := h.padded hcp
  obtain ⟨s, hloop, hlist, hsaved, hkeys⟩ := foldlM_thdSeq_layout zero true hcp hrank h
    (fun hone seq hseq => (hfits hone seq hseq).holds) fun _ hone => ⟨hpos hone, hfits hone⟩
  have hlen := s.inputIds.length_eq
  have hlenPositions := s.positionIds.length_eq
  unfold preprocessThdEngine
  rw [hlayout, ok_bind]
  dsimp only
  rw [hloop, ok_bind]
  by_cases hone : ps.cpSize ≤ 1
  · have hnil : s.savedRoll = [] := by
      rw [hsaved]
      exact if_neg (by omega)
    have hnilPositions : s.savedPositionRoll = [] := by
      rw [hnil] at hkeys
      exact map_eq_nil_iff.1 hkeys
    rw [hnil, hnilPositions]
    refine ⟨_, rfl, rfl, ?_⟩
    intro i n slot seq hseq hn hslot hp
    obtain ⟨n', hn', hle⟩ := hpadded.exists_length_le hseq
    rw [hn] at hn'
    cases hn'
    have hposition : ∀ slot, slotPosition ps.cpSize (n / ps.cpSize / 2) ps.cpRank slot = slot :=
      fun slot => if_pos hone
    have hcpOne : ps.cpSize = 1 := by omega
    rw [hposition] at hp ⊢
    rw [if_neg (by omega)]
    have hroll := getElem?_rollRow_flatten zero hcp hrank hpadded hseq hn hle
      (by rw [hcpOne]; omega) hp (hposition (slot + 1))
    rw [← hlist] at hroll
    exact hroll.2
  · have hmany : 1 < ps.cpSize := by omega
    have hnone : SavedKeys (0 / ps.cpSize) (([] : List (Int × α)).map Prod.fst) :=
      ⟨nodup_nil, by simp, by simp, by simp⟩
    have hsavedKeys := savedKeys_foldl zero
      (alignSize ps.tpSize ps.cpSize useFp8Padding) hmany hpadded (Nat.dvd_zero _) hnone
    have hsavedEq : s.savedRoll = (slotsFrom 0 seqs layout.seqlensPadded).foldl
        (savedAfter zero ps (alignSize ps.tpSize ps.cpSize useFp8Padding)) [] := by
      rw [hsaved]
      exact if_pos ⟨rfl, hmany⟩
    rw [Nat.zero_div, Nat.zero_add, ← localLen_eq hpadded, ← hsavedEq] at hsavedKeys
    have hpos := hpos hmany
    have hrolled : SavedKeys (rollRow s.inputIds.toList).length (s.savedRoll.map Prod.fst) := by
      rw [length_rollRow, hlen]
      exact hsavedKeys
    have hrolledPositions : SavedKeys (rollRow s.positionIds.toList).length
        (s.savedPositionRoll.map Prod.fst) := by
      rw [length_rollRow, hlenPositions, hkeys]
      exact hsavedKeys
    obtain ⟨ys, happly, hsome, hnext⟩ := applySaved_eq hrolled
      (by rw [length_rollRow, hlen]; exact hpos)
    obtain ⟨positions, hpositions, -⟩ := applySaved_eq hrolledPositions
      (by rw [length_rollRow, hlenPositions]; exact hpos)
    rw [happly, hpositions]
    refine ⟨_, rfl, rfl, ?_⟩
    intro i n slot seq hseq hn hslot hp
    obtain ⟨n', hn', hle⟩ := hpadded.exists_length_le hseq
    rw [hn] at hn'
    cases hn'
    have hposition : ∀ slot, slotPosition ps.cpSize (n / ps.cpSize / 2) ps.cpRank slot =
        zigzagPosition ps.cpSize (n / ps.cpSize / 2) ps.cpRank slot := fun slot => if_neg hone
    rw [hposition] at hp ⊢
    have hlookup := lookup_saved zero (alignSize ps.tpSize ps.cpSize useFp8Padding) hmany hpadded
      (Nat.dvd_zero _) hnone hseq hn hslot
    rw [← hsavedEq, Nat.zero_add] at hlookup
    have htoken := lookup_savedAfter_token zero (alignSize ps.tpSize ps.cpSize useFp8Padding)
      (rowStart layout.seqlensPadded i) hmany hrank
      (hpadded.twoDvd hmany n (mem_of_getElem? hn)) hslot hp
    by_cases hlast : slot + 1 = n / ps.cpSize ∧ layout.seqlensPadded[i + 1]? = some 0
    · grind
    · rw [if_neg hlast] at hlookup
      rw [if_neg fun h => hlast h.2]
      cases hown : (savedAfter zero ps (alignSize ps.tpSize ps.cpSize useFp8Padding) []
          { tokens := seq, seqlenPadded := n
            cuSeqlen := rowStart layout.seqlensPadded i }).lookup
              ((rowStart layout.seqlensPadded i / ps.cpSize + slot : Nat) : Int) with
      | some v =>
        rw [hown] at hlookup htoken
        rw [htoken]
        exact hsome _ _ hlookup
      | none =>
        rw [hown] at hlookup htoken
        have hroll := getElem?_rollRow_flatten zero hcp hrank hpadded hseq hn hle
          htoken.1 hp ((hposition _).trans htoken.2)
        rw [← hlist] at hroll
        rw [hnext _ hlookup (by rw [length_rollRow]; exact hroll.1)]
        exact hroll.2

end Fitting

/-! ## Lemmas: what a turn of the loop that returns has read -/

theorem lt_of_thdSeq {zero : α} {ps : ParallelState} {align m : Nat} {s s' : ThdState α m}
    {seq : SeqSlot α} (hcp : 1 < ps.cpSize) (h : thdSeq zero ps align true s seq = .ok s') :
    (ps.cpRank + 1) * (seq.seqlenPadded / ps.cpSize / 2) < max seq.tokens.length align ∧ 0 < m := by
  unfold thdSeq at h
  rw [if_neg (by omega)] at h
  rw [padTo_eq_ite] at h
  obtain ⟨_, -, h⟩ := bind_eq_ok.1 h
  obtain ⟨_, -, h⟩ := bind_eq_ok.1 h
  obtain ⟨_, -, h⟩ := bind_eq_ok.1 h
  obtain ⟨positions, -, h⟩ := bind_eq_ok.1 h
  obtain ⟨token, htoken, h⟩ := bind_eq_ok.1 h
  obtain ⟨position, hposition, -⟩ := bind_eq_ok.1 h
  have hroom := (lt_of_pyGet htoken).2
  have hlocal := lt_of_pyGet hposition
  have hlen := positions.length_eq
  rw [length_padTo_max] at hroom
  dsimp only at hlocal
  exact ⟨by exact_mod_cast hroom, by omega⟩

theorem mul_half_eq {cpSize n : Nat} (hcp : 1 < cpSize) (hdvd : 2 * cpSize ∣ n) :
    cpSize * (n / cpSize / 2) = n / 2 := by
  obtain ⟨-, hn⟩ := half_eq hcp hdvd
  rw [Nat.mul_assoc] at hn
  omega

/-- The last local slot of a sequence. -/
theorem zigzagPosition_last {cpSize cpRank n : Nat} (hcp : 1 < cpSize) (hrank : cpRank < cpSize)
    (hdvd : 2 * cpSize ∣ n) (hpos : 0 < n) {slot : Nat} (hslot : slot + 1 = n / cpSize) :
    zigzagPosition cpSize (n / cpSize / 2) cpRank slot + 1 = n - cpRank * (n / cpSize / 2) := by
  obtain ⟨hchunk, hn⟩ := half_eq hcp hdvd
  generalize n / cpSize / 2 = h at *
  have hle := succ_mul_le (h := h) hrank
  have hsucc := Nat.add_one_mul cpRank h
  have htwo := Nat.mul_assoc 2 cpSize h
  unfold zigzagPosition
  rw [if_neg (by omega)]
  omega

/-! ## The two ways of packing -/

section Agreement

variable {zero : α} {tpSize cpSize : Nat} {useFp8Padding : Bool} {seqs : List (List α)}

theorem seqs_ne_nil_of_packs {ps : ParallelState} {out : ThdBatch α}
    (h : preprocessThdEngine zero ps false useFp8Padding seqs = .ok out) : seqs ≠ [] := by
  rintro rfl
  obtain ⟨layout, hlayout, -⟩ := bind_eq_ok.1 h
  obtain ⟨e, herror⟩ := thdLayout_nil ps.tpSize ps.cpSize useFp8Padding
  rw [map_nil, herror] at hlayout
  cases hlayout

/-- The last rank reads furthest behind its front chunk. -/
theorem fits_of_rolls (hcp : 1 < cpSize) {layout : ThdLayout} {rolled : ThdBatch α}
    (hlayout : thdLayout tpSize cpSize useFp8Padding (seqs.map length) = .ok layout)
    (h : LayoutOf tpSize cpSize useFp8Padding (seqs.map length) layout)
    (hrolls : preprocessThdEngine zero ⟨tpSize, cpSize, cpSize - 1⟩ true useFp8Padding seqs =
      .ok rolled) :
    ∀ seq ∈ slotsFrom 0 seqs layout.seqlensPadded,
      Fits cpSize (alignSize tpSize cpSize useFp8Padding) seq ∧ 0 < localLen cpSize layout := by
  intro seq hseq
  unfold preprocessThdEngine at hrolls
  rw [hlayout, ok_bind] at hrolls
  obtain ⟨s, hloop, -⟩ := bind_eq_ok.1 hrolls
  rw [h.seqSlots_eq] at hloop
  obtain ⟨s₁, s₂, hturn⟩ := exists_of_foldlM hloop hseq
  have hlt := lt_of_thdSeq hcp hturn
  rwa [Nat.sub_add_cancel (by omega)] at hlt

theorem engineFits_of_agrees (htp : 1 ≤ tpSize) (hcp : 1 ≤ cpSize)
    (hagrees : ∀ cpRank < cpSize, ∃ out rolled,
      EngineAgrees zero ⟨tpSize, cpSize, cpRank⟩ useFp8Padding seqs out rolled) :
    EngineFits zero tpSize cpSize useFp8Padding seqs := by
  obtain ⟨out, rolled, hfirst⟩ := hagrees 0 hcp
  have hne := seqs_ne_nil_of_packs hfirst.packs
  have hlensNe : seqs.map length ≠ [] := by
    rw [ne_eq, map_eq_nil_iff]
    exact hne
  obtain ⟨layout, hlayout, hspec⟩ := thdLayout_eq_ok cpSize htp useFp8Padding hlensNe
  have hpadded := hspec.padded hcp
  have hns := seqlensPadded_of_thdLayout hlayout
  have hread : 1 < cpSize → ∀ seq ∈ slotsFrom 0 seqs layout.seqlensPadded,
      Fits cpSize (alignSize tpSize cpSize useFp8Padding) seq ∧ 0 < localLen cpSize layout := by
    intro hmany
    obtain ⟨out, rolled, hlast⟩ := hagrees (cpSize - 1) (by omega)
    exact fits_of_rolls hmany hlayout hspec hlast.rolls
  have hpos : 1 < cpSize → 0 < localLen cpSize layout := by
    intro hmany
    obtain ⟨seq, hseq⟩ := exists_mem_of_ne_nil seqs hne
    obtain ⟨i, hi⟩ := mem_iff_getElem?.1 hseq
    obtain ⟨n, hn, -⟩ := hpadded.exists_length_le hi
    obtain ⟨slot, hslot, -⟩ := getElem?_slotsFrom 0 hi hn
    exact (hread hmany slot hslot).2
  refine ⟨hne, fun hmany => (localLen_pos_iff hcp hlayout hpadded).1 (hpos hmany), ?_, ?_⟩
  · intro hmany i seq n hseq hn
    rw [← hns] at hn
    obtain ⟨slot, hslot, htokens, hlen⟩ := getElem?_slotsFrom 0 hseq hn
    have hroom := (hread hmany slot hslot).1
    unfold Fits at hroom
    rwa [htokens, hlen, mul_half_eq hmany (hpadded.twoDvd hmany n (mem_of_getElem? hn))]
      at hroom
  · intro hmany i seq n hseq hn hempty cpRank hrank hlt
    rw [← hns] at hn hempty
    obtain ⟨out, rolled, hagree⟩ := hagrees cpRank hrank
    obtain ⟨rolled', hrolls, hparams, hslots⟩ := preprocessThdEngine_rolls zero
      ⟨tpSize, cpSize, cpRank⟩ hcp hrank hlayout hspec
      (fun hmany seq hseq => (hread hmany seq hseq).1) hpos
    rw [hagree.rolls] at hrolls
    cases hrolls
    have hdvd := hpadded.twoDvd hmany n (mem_of_getElem? hn)
    obtain ⟨n', hn'', hle⟩ := hpadded.exists_length_le hseq
    rw [hn] at hn''
    cases hn''
    have hhalf : 0 < n / cpSize / 2 := by grind
    -- the slot that the empty sequence writes over
    obtain ⟨slot, hslot⟩ : ∃ slot, slot + 1 = n / cpSize := ⟨n / cpSize - 1, by omega⟩
    have hlast := zigzagPosition_last hmany hrank hdvd (by omega) hslot
    have hposition : slotPosition cpSize (n / cpSize / 2) cpRank slot =
        zigzagPosition cpSize (n / cpSize / 2) cpRank slot := if_neg (by omega)
    have hlt' : slotPosition cpSize (n / cpSize / 2) cpRank slot + 1 < seq.length := by omega
    have hzero := hslots i n slot seq hseq hn (by dsimp only; omega) hlt'
    rw [if_pos ⟨hmany, hslot, hempty⟩] at hzero
    have hstart : (offsets layout.seqlensPadded)[i]? = some (rowStart layout.seqlensPadded i) :=
      getElem?_offsets_of_getElem? hn
    have hstop : (offsets layout.seqlensPadded)[i + 1]? =
        some (rowStart layout.seqlensPadded (i + 1)) := getElem?_offsets_of_getElem? hempty
    rw [← hspec.cuSeqlens, ← hparams, hagree.params] at hstart hstop
    have hwidth : rowStart layout.seqlensPadded (i + 1) - rowStart layout.seqlensPadded i = n := by
      rw [rowStart_succ hn]
      omega
    have hnext := hagree.next i seq _ _ hseq hstart hstop slot (by rw [hwidth]; dsimp only; omega) _
      rfl (by rw [hwidth]; exact hlt')
    rw [hwidth, hzero, hposition, hlast] at hnext
    exact hnext.symm

theorem engineAgrees_of_fits (htp : 1 ≤ tpSize) (hcp : 1 ≤ cpSize)
    (hfit : EngineFits zero tpSize cpSize useFp8Padding seqs) {cpRank : Nat}
    (hrank : cpRank < cpSize) :
    ∃ out rolled, EngineAgrees zero ⟨tpSize, cpSize, cpRank⟩ useFp8Padding seqs out rolled := by
  have hlensNe : seqs.map length ≠ [] := by
    rw [ne_eq, map_eq_nil_iff]
    exact hfit.nonempty
  obtain ⟨layout, hlayout, hspec⟩ := thdLayout_eq_ok cpSize htp useFp8Padding hlensNe
  have hpadded := hspec.padded hcp
  have hns := seqlensPadded_of_thdLayout hlayout
  have hfits : 1 < cpSize → ∀ seq ∈ slotsFrom 0 seqs layout.seqlensPadded,
      Fits cpSize (alignSize tpSize cpSize useFp8Padding) seq := by
    intro hmany slot hslot
    obtain ⟨i, hseq, hn⟩ := exists_getElem?_of_mem_slotsFrom hslot
    unfold Fits
    rw [mul_half_eq hmany (hpadded.twoDvd hmany _ (mem_of_getElem? hn))]
    exact hfit.room hmany i _ _ hseq (by rw [← hns]; exact hn)
  have hpos : 1 < cpSize → 0 < localLen cpSize layout :=
    fun hmany => (localLen_pos_iff hcp hlayout hpadded).2 (hfit.some_ne_nil hmany)
  obtain ⟨out, hpacks, hids, hparams⟩ :=
    preprocessThdEngine_packs zero ⟨tpSize, cpSize, cpRank⟩ hcp hrank hlayout hspec
      fun hone seq hseq => (hfits hone seq hseq).holds
  obtain ⟨rolled, hrolls, hparams', hslots⟩ :=
    preprocessThdEngine_rolls zero ⟨tpSize, cpSize, cpRank⟩ hcp hrank hlayout hspec hfits hpos
  refine ⟨out, rolled, hpacks, hrolls, hparams'.trans hparams.symm, fun pad width _ => ?_, ?_⟩
  · rw [hids, hparams]
    exact preprocessPackedSeqs_leftPadded zero pad ⟨tpSize, cpSize, cpRank⟩ htp hcp hrank
      hfit.nonempty hlayout width
  · intro i seq start stop hseq hstart hstop slot hslot position hposition hlt
    rw [hparams, hspec.cuSeqlens] at hstart hstop
    obtain ⟨n, hn, hle⟩ := hpadded.exists_length_le hseq
    have hwidth : stop - start = n := by
      rw [getElem?_offsets hstart, getElem?_offsets hstop, rowStart_succ hn]
      omega
    rw [hwidth] at hslot hposition
    subst hposition
    rw [getElem?_offsets hstart, hslots i n slot seq hseq hn hslot hlt]
    split
    · next hbefore =>
      obtain ⟨hmany, hlastSlot, hempty⟩ := hbefore
      have hmany : 1 < cpSize := hmany
      have hposition : slotPosition cpSize (n / cpSize / 2) cpRank slot =
          zigzagPosition cpSize (n / cpSize / 2) cpRank slot := if_neg (by omega)
      rw [hposition, zigzagPosition_last hmany hrank
        (hpadded.twoDvd hmany n (mem_of_getElem? hn)) (by omega) hlastSlot] at hlt ⊢
      rw [hns] at hn hempty
      exact (hfit.before_empty hmany i seq n hseq hn hempty cpRank hrank hlt).symm
    · rfl

/-- The engine packs as `preprocess_packed_seqs` and shifts every token, on all ranks, iff the batch
fits. -/
theorem engineAgrees_iff (zero : α) {tpSize cpSize : Nat} (htp : 1 ≤ tpSize) (hcp : 1 ≤ cpSize)
    (useFp8Padding : Bool) (seqs : List (List α)) :
    (∀ cpRank < cpSize, ∃ out rolled,
        EngineAgrees zero ⟨tpSize, cpSize, cpRank⟩ useFp8Padding seqs out rolled) ↔
      EngineFits zero tpSize cpSize useFp8Padding seqs :=
  ⟨engineFits_of_agrees htp hcp, fun hfit _ hrank => engineAgrees_of_fits htp hcp hfit hrank⟩

/-- Without FP8 there is always room, and no sequence without tokens is empty. -/
theorem engineFits_of_ne_nil (zero : α) (htp : 1 ≤ tpSize) (hne : seqs ≠ [])
    (hseqs : ∀ seq ∈ seqs, seq ≠ []) : EngineFits zero tpSize cpSize false seqs := by
  have halign := alignSize_pos cpSize htp false
  have hadd : ∀ xs, addLast 0 xs = xs := by
    intro xs
    induction xs with
    | nil => rfl
    | cons x xs ih =>
      cases xs with
      | nil => rfl
      | cons y xs => exact congrArg (x :: ·) ih
  have hpadded : ∀ (i n : Nat),
      (paddedLengths tpSize cpSize false (seqs.map length))[i]? = some n →
      ∃ seq : List α, seqs[i]? = some seq ∧
        n = seq.length + padSize (alignSize tpSize cpSize false) seq.length := by
    intro i n hn
    unfold paddedLengths at hn
    dsimp only at hn
    rw [if_neg (by decide), hadd, map_map, getElem?_map, Option.map_eq_some_iff] at hn
    obtain ⟨seq, hseq, rfl⟩ := hn
    exact ⟨seq, hseq, rfl⟩
  refine ⟨hne, fun _ => ?_, fun _ i seq n hseq hn => ?_, fun _ i seq n hseq hn hempty => ?_⟩
  · obtain ⟨seq, hseq⟩ := exists_mem_of_ne_nil seqs hne
    exact ⟨seq, hseq, hseqs seq hseq⟩
  · obtain ⟨seq', hseq', rfl⟩ := hpadded i n hn
    rw [hseq] at hseq'
    cases hseq'
    have hpad : padSize (alignSize tpSize cpSize false) seq.length <
        alignSize tpSize cpSize false := Nat.mod_lt _ halign
    omega
  · obtain ⟨seq', hseq', hzero⟩ := hpadded (i + 1) 0 hempty
    have hlen := length_pos_iff.2 (hseqs seq' (mem_of_getElem? hseq'))
    omega

theorem engineAgrees_two :
    (∃ out rolled, EngineAgrees 0 ⟨1, 2, 0⟩ false [[5, 6, 7], [8]] out rolled) ∧
      ∃ out rolled, EngineAgrees 0 ⟨1, 2, 1⟩ false [[5, 6, 7], [8]] out rolled := by
  have hfits : EngineFits 0 1 2 false [[5, 6, 7], [8]] :=
    engineFits_of_ne_nil 0 (by decide) (by decide) (by decide)
  have hagrees := (engineAgrees_iff 0 (by decide) (by decide) false [[5, 6, 7], [8]]).2 hfits
  exact ⟨hagrees 0 (by decide), hagrees 1 (by decide)⟩

/-- With FP8 one token is padded to 512 and leaves the slots of the front chunks open; without FP8
an empty sequence writes zero over what follows a token of the sequence before it. -/
theorem not_engineAgrees :
    (¬ ∀ cpRank < 2, ∃ out rolled, EngineAgrees 0 ⟨1, 2, cpRank⟩ true [[7]] out rolled) ∧
    ¬ ∀ cpRank < 2, ∃ out rolled,
      EngineAgrees 0 ⟨1, 2, cpRank⟩ false [[1, 2, 3, 4, 5, 6, 7, 8], []] out rolled := by
  constructor
  · intro h
    obtain ⟨out, rolled, hagree⟩ := h 0 (by decide)
    have hpacks := hagree.packs
    cases hpacks
  · intro h
    obtain ⟨out, rolled, hagree⟩ := h 1 (by decide)
    have hpacks : preprocessThdEngine 0 ⟨1, 2, 1⟩ false false [[1, 2, 3, 4, 5, 6, 7, 8], []] =
        .ok { inputIds := [3, 4, 5, 6], params := ⟨[0, 8, 8], 8⟩, positionIds := [2, 3, 4, 5] } := rfl
    have hrolls : ∃ positions,
        preprocessThdEngine 0 ⟨1, 2, 1⟩ true false [[1, 2, 3, 4, 5, 6, 7, 8], []] =
          .ok { inputIds := [4, 5, 6, 0], params := ⟨[0, 8, 8], 8⟩
                positionIds := positions } := ⟨_, rfl⟩
    obtain ⟨positions, hrolls⟩ := hrolls
    rw [hagree.packs] at hpacks
    rw [hagree.rolls] at hrolls
    cases hpacks
    cases hrolls
    have hnext := hagree.next 0 _ 0 8 rfl rfl rfl 3 (by decide) 5 rfl (by decide)
    exact absurd (show some 0 = some 7 from hnext) (by decide)

end Agreement

end Verl.MCore
