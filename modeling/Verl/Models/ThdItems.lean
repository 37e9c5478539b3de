import Verl.Models.ThdAgreement

/-! # Nested tensors of items (`verl/models/mcore/util.py`)

`preprocess_thd_engine` also packs nested tensors whose items are tensors, and
`postprocess_thd_engine` gives nested tensors back.  A sequence with fewer numbers than the
alignment is padded with zeros of one dimension, which does not fit a tensor of more; the first
chunk of a rank is not clipped, and a single item is written to all of it.

    tokens   [a b c]      padded to the alignment, then dealt out
    items    [[..] [..]]  dealt out as they are -/

namespace Verl.MCore

open List

variable {α : Type}

/-! ## Algorithm -/

/-- One turn of the loop for items of `itemNumel` numbers, of which `numel` counts each. -/
def thdItemSeq (zero : α) (ps : ParallelState) (align itemNumel : Nat) {m : Nat}
    (s : ThdState α m) (seq : SeqSlot α) : Except PyErr (ThdState α m) :=
  if 1 < ps.cpSize ∧ seq.tokens.length * itemNumel < align then
    .error (.runtimeError "Tensors must have same number of dimensions: got 3 and 1")
  else thdSeq zero ps 0 false s seq

/-- The state before the loop. -/
def ThdState.init (zero : α) (m : Nat) : ThdState α m :=
  { inputIds := Buffer.replicate m zero
    positionIds := Buffer.replicate m 0
    savedRoll := []
    savedPositionRoll := [] }

/-- `preprocess_thd_engine` of a nested tensor of items, without `need_roll`. -/
def preprocessThdItems (zero : α) (ps : ParallelState) (itemNumel : Nat) (useFp8Padding : Bool)
    (inputIds : List (List α)) : Except PyErr (ThdBatch α) := do
  let layout ← thdLayout ps.tpSize ps.cpSize useFp8Padding (inputIds.map List.length)
  let align := alignSize ps.tpSize ps.cpSize useFp8Padding
  let s ← (seqSlots inputIds layout).foldlM (thdItemSeq zero ps align itemNumel)
    (ThdState.init zero (localLen ps.cpSize layout))
  return { inputIds := s.inputIds.toList, params := layout.params
           positionIds := s.positionIds.toList }

/-- One turn of the loop of `postprocess_thd_engine`. -/
def unbindSeq (empty : α) (ps : ParallelState) (outputList : List (List α)) (s start stop : Nat) :
    Except PyErr (List α) :=
  if ps.cpSize ≤ 1 then .ok (getSlice (outputList.getD 0 []) start s)
  else do
    let tmp ← gatherSeq empty ps.cpSize outputList start stop
    return tmp.take s

/-- `postprocess_thd_engine` with `post_process`; `gathered` is what `all_gather` returns. -/
def postprocessThdEngine (empty : α) (ps : ParallelState) (gathered : List (List α))
    (output : List α) (params : PackedSeqParams) (seqLens : List Nat) :
    Except PyErr (List (List α)) :=
  let cuPadded := params.cuSeqlensPadded
  (seqLens.zip (cuPadded.zip cuPadded.tail)).mapM fun p =>
    unbindSeq empty ps (gatherOutputs ps gathered output) p.1 p.2.1 p.2.2

/-! ## What can be packed -/

/-- The front half of the padded sequence lies inside the sequence, or the last rank is left with
one item, which is written to all of its front chunk. -/
def FrontLoads (cpSize n len : Nat) : Prop :=
  n / 2 ≤ len ∨ len = (cpSize - 1) * (n / cpSize / 2) + 1

/-- The batches of tokens that are packed on all ranks. -/
structure TokensLoad (tpSize cpSize : Nat) (useFp8Padding : Bool) (seqlens : List Nat) : Prop where
  nonempty : seqlens ≠ []
  front : 1 < cpSize → ∀ (i len n : Nat), seqlens[i]? = some len →
    (paddedLengths tpSize cpSize useFp8Padding seqlens)[i]? = some n →
    FrontLoads cpSize n (max len (alignSize tpSize cpSize useFp8Padding))

/-- The batches of items that are packed on all ranks. -/
structure ItemsLoad (tpSize cpSize itemNumel : Nat) (useFp8Padding : Bool)
    (seqlens : List Nat) : Prop where
  nonempty : seqlens ≠ []
  numel : 1 < cpSize → ∀ len ∈ seqlens, alignSize tpSize cpSize useFp8Padding ≤ len * itemNumel
  front : 1 < cpSize → ∀ (i len n : Nat), seqlens[i]? = some len →
    (paddedLengths tpSize cpSize useFp8Padding seqlens)[i]? = some n → FrontLoads cpSize n len

/-! ## Lemmas: one turn of the loop -/

variable {n m cpSize align : Nat} {seqs : List (List α)} {ps : ParallelState} {ns : List Nat}
  {d : List α} {seq : SeqSlot α} {zero : α}

theorem store_single (buf : Buffer α m) {offset size : Nat} (h : offset + size ≤ m)
    (x : α) : store buf offset size [x] = store buf offset size (replicate size x) := by
  have hwidth : min (offset + size) m - min offset m = size := by omega
  unfold store Buffer.assign
  dsimp only
  by_cases hone : [x].length = min (offset + size) m - min offset m
  · grind
  · grind

theorem length_of_store {buf buf' : Buffer α m} {offset size : Nat} {data : List α}
    (h : offset + size ≤ m) (hstore : store buf offset size data = .ok buf') :
    data.length = size ∨ data.length = 1 := by
  have hwidth : min (offset + size) m - min offset m = size := by omega
  by_contra hne
  rw [not_or] at hne
  unfold store Buffer.assign at hstore
  rw [dif_neg (by rw [hwidth]; exact hne.1)] at hstore
  match data, hne, hstore with
  | [], _, hstore => cases hstore
  | [x], hne, _ => exact hne.2 rfl
  | x :: y :: data, _, hstore => cases hstore

/-- A sequence as its front chunks hold it, the last one filled up with the last item. -/
def frontFilled (zero : α) (align n : Nat) (d : List α) : List α :=
  if n / 2 ≤ max d.length align then d
  else padTo zero align d ++
    List.replicate (n / 2 - max d.length align) ((padTo zero align d).getLastD zero)

theorem le_length_frontFilled (zero : α) (align n : Nat) (d : List α) :
    n / 2 ≤ max (frontFilled zero align n d).length align := by
  unfold frontFilled
  split
  · next h => exact h
  · rw [length_append, length_padTo_max, length_replicate]
    omega

theorem length_frontFilled_le (h : d.length ≤ n) : (frontFilled zero align n d).length ≤ n := by
  unfold frontFilled
  split
  · exact h
  · rw [length_append, length_padTo_max, length_replicate]
    omega

theorem getElem?_frontFilled (zero : α) (align n : Nat) {p : Nat} (hp : p < d.length) :
    (frontFilled zero align n d)[p]? = d[p]? := by
  unfold frontFilled
  split
  · rfl
  · rw [getElem?_append_left (by rw [length_padTo_max]; omega), getElem?_padTo_of_lt hp]

/-- A front chunk that is not filled by the sequence is that of the last rank, which has one item
for it. -/
theorem getSlice_frontFilled {cpRank h : Nat}
    (hcp : 1 < cpSize) (hrank : cpRank < cpSize) (hshort : ¬cpSize * h ≤ max d.length align)
    (hlast : max d.length align = (cpSize - 1) * h + 1) :
    let filled := padTo zero align d ++
      replicate (cpSize * h - max d.length align) ((padTo zero align d).getLastD zero)
    (cpRank + 1 < cpSize → getSlice filled (cpRank * h) h =
        getSlice (padTo zero align d) (cpRank * h) h) ∧
      (cpRank + 1 = cpSize → ∃ x, getSlice (padTo zero align d) (cpRank * h) h = [x] ∧
        getSlice filled (cpRank * h) h = replicate h x) := by
  intro filled
  have hlen := length_padTo_max zero align d
  have hfilled : filled.length = cpSize * h := by grind
  have hsucc := Nat.add_one_mul cpRank h
  constructor
  · intro hlt
    have hle : (cpRank + 1) * h ≤ (cpSize - 1) * h := Nat.mul_le_mul_right h (by omega)
    apply ext_getElem?
    intro i
    by_cases hi : i < h
    · rw [getElem?_getSlice _ _ hi, getElem?_getSlice _ _ hi,
        getElem?_append_left (by rw [hlen]; omega)]
    · rw [getElem?_eq_none (by rw [length_getSlice (by omega)]; omega),
        getElem?_eq_none (by rw [length_getSlice (by omega)]; omega)]
  · rintro rfl
    rw [Nat.add_sub_cancel] at hlast
    have hpos : 0 < h := Nat.pos_of_ne_zero fun hzero => hshort (by rw [hzero]; omega)
    have hrest : ((padTo zero align d).drop (cpRank * h)).length = 1 := by grind
    obtain ⟨x, hx⟩ := length_eq_one_iff.1 hrest
    have hconcat : padTo zero align d = (padTo zero align d).take (cpRank * h) ++ [x] := by
      rw [← hx, take_append_drop]
    have hlastItem : (padTo zero align d).getLastD zero = x := by
      rw [hconcat, getLastD_concat]
    refine ⟨x, ?_, ?_⟩
    · unfold getSlice
      rw [hx, take_of_length_le (by rw [length_singleton]; exact hpos)]
    · show (List.take h (List.drop (cpRank * h) (_ ++ replicate _ _))) = _
      rw [drop_append_of_le_length (by omega), hx, hlastItem, ← replicate_one,
        replicate_append_replicate, take_replicate]
      congr 1
      omega

theorem padTo_of_le (zero : α) (h : n ≤ d.length) : padTo zero n d = d := by
  unfold padTo
  rw [show n - d.length = 0 by omega, replicate_zero, append_nil]

/-- A sequence that ends before the back chunk of a rank only fills its front chunk. -/
theorem thdSeq_of_short (hcp : 1 < ps.cpSize)
    (s : ThdState α m)
    (hshort : max seq.tokens.length align ≤
      seq.seqlenPadded - seq.seqlenPadded / ps.cpSize / 2 * (ps.cpRank + 1)) :
    thdSeq zero ps align false s seq =
      (store s.inputIds (seq.cuSeqlen / ps.cpSize) (seq.seqlenPadded / ps.cpSize / 2)
        (getSlice (padTo zero align seq.tokens) (seq.seqlenPadded / ps.cpSize / 2 * ps.cpRank)
          (seq.seqlenPadded / ps.cpSize / 2))).bind fun inputIds =>
      (store s.positionIds (seq.cuSeqlen / ps.cpSize) (seq.seqlenPadded / ps.cpSize / 2)
        (range' (seq.seqlenPadded / ps.cpSize / 2 * ps.cpRank)
          (seq.seqlenPadded / ps.cpSize / 2))).map fun positionIds =>
      { s with inputIds := inputIds, positionIds := positionIds } := by
  have hlen := length_padTo_max zero align seq.tokens
  unfold thdSeq
  rw [if_neg (by omega)]
  dsimp only
  rw [padTo_eq_ite]
  generalize padTo zero align seq.tokens = d at *
  generalize seq.seqlenPadded / ps.cpSize / 2 = h at *
  cases store s.inputIds (seq.cuSeqlen / ps.cpSize) h (getSlice d (h * ps.cpRank) h) with
  | error e => rfl
  | ok inputIds =>
    cases store s.positionIds (seq.cuSeqlen / ps.cpSize) h (range' (h * ps.cpRank) h) with
    | error e => rfl
    | ok positionIds =>
      simp only [ok_bind]
      unfold storePositive
      rw [if_neg (by omega), if_neg (by omega)]
      rfl

/-- Filling a sequence up changes nothing in what is written. -/
theorem thdSeq_frontFilled (hcp : 1 < ps.cpSize) (hrank : ps.cpRank < ps.cpSize) (s : ThdState α m)
    (hdvd : 2 * ps.cpSize ∣ seq.seqlenPadded)
    (hm : seq.cuSeqlen / ps.cpSize + seq.seqlenPadded / ps.cpSize ≤ m)
    (hload : FrontLoads ps.cpSize seq.seqlenPadded (max seq.tokens.length align)) :
    thdSeq zero ps align false s
        { seq with tokens := frontFilled zero align seq.seqlenPadded seq.tokens } =
      thdSeq zero ps align false s seq := by
  by_cases hshort : seq.seqlenPadded / 2 ≤ max seq.tokens.length align
  · unfold frontFilled
    rw [if_pos hshort]
  · have hlast := hload.resolve_left hshort
    have hhalf := mul_half_eq hcp hdvd
    obtain ⟨hchunk, hn⟩ := half_eq hcp hdvd
    have hlen := length_padTo_max zero align seq.tokens
    have hfilled : frontFilled zero align seq.seqlenPadded seq.tokens =
        padTo zero align seq.tokens ++
          replicate (seq.seqlenPadded / 2 - max seq.tokens.length align)
            ((padTo zero align seq.tokens).getLastD zero) := if_neg hshort
    have hfilledLen : (frontFilled zero align seq.seqlenPadded seq.tokens).length =
        seq.seqlenPadded / 2 := by grind
    have hsucc : seq.seqlenPadded / ps.cpSize / 2 * (ps.cpRank + 1) ≤ seq.seqlenPadded / 2 := by
      rw [← hhalf, Nat.mul_comm ps.cpSize]
      exact Nat.mul_le_mul_left _ hrank
    rw [thdSeq_of_short hcp s (by dsimp only; omega), thdSeq_of_short hcp s (by omega)]
    rw [padTo_of_le zero (show align ≤ (frontFilled _ _ _ _).length by omega), hfilled, ← hhalf,
      Nat.mul_comm (seq.seqlenPadded / ps.cpSize / 2) ps.cpRank]
    obtain ⟨hother, hown⟩ := getSlice_frontFilled hcp hrank (by omega) hlast
    by_cases hrankLast : ps.cpRank + 1 < ps.cpSize
    · rw [hother hrankLast]
    · obtain ⟨x, hx, hfront⟩ := hown (by omega)
      rw [hx, hfront, store_single s.inputIds (by omega)]

/-- A front chunk that the last rank has written. -/
theorem frontLoads_of_thdSeq (hcp : 1 < ps.cpSize) (hrank : ps.cpRank + 1 = ps.cpSize)
    {s s' : ThdState α m} (hdvd : 2 * ps.cpSize ∣ seq.seqlenPadded)
    (hm : seq.cuSeqlen / ps.cpSize + seq.seqlenPadded / ps.cpSize ≤ m)
    (h : thdSeq zero ps align false s seq = .ok s') :
    FrontLoads ps.cpSize seq.seqlenPadded (max seq.tokens.length align) := by
  have hhalf := mul_half_eq hcp hdvd
  have hlen := length_padTo_max zero align seq.tokens
  unfold thdSeq at h
  rw [if_neg (by omega)] at h
  rw [padTo_eq_ite] at h
  obtain ⟨buf, hstore, -⟩ := bind_eq_ok.1 h
  have hchunk := Nat.div_le_self (seq.seqlenPadded / ps.cpSize) 2
  have hdata := length_of_store (by omega) hstore
  unfold getSlice at hdata
  rw [length_take, length_drop] at hdata
  have hpred : seq.seqlenPadded / ps.cpSize / 2 * ps.cpRank =
      (ps.cpSize - 1) * (seq.seqlenPadded / ps.cpSize / 2) := by grind
  have hsucc : ps.cpSize * (seq.seqlenPadded / ps.cpSize / 2) =
      (ps.cpSize - 1) * (seq.seqlenPadded / ps.cpSize / 2) + seq.seqlenPadded / ps.cpSize / 2 := by
    grind
  rw [hpred] at hdata
  unfold FrontLoads
  generalize seq.seqlenPadded / ps.cpSize / 2 = half at hhalf hsucc hdata ⊢
  by_cases hzero : half = 0
  · subst hzero
    omega
  · omega

/-! ## Lemmas: the loop -/

/-- The sequences as their front chunks hold them. -/
def frontsFilled (zero : α) (align : Nat) (seqs : List (List α)) (ns : List Nat) : List (List α) :=
  List.zipWith (fun d n => frontFilled zero align n d) seqs ns

theorem slotsFrom_frontsFilled (zero : α) (align start : Nat)
    : slotsFrom start (frontsFilled zero align seqs ns) ns =
      (slotsFrom start seqs ns).map fun seq =>
        { seq with tokens := frontFilled zero align seq.seqlenPadded seq.tokens } := by
  induction seqs generalizing start ns with
  | nil => rfl
  | cons d seqs ih =>
    cases ns with
    | nil => rfl
    | cons n ns =>
      show slotsFrom start (frontFilled zero align n d :: frontsFilled zero align seqs ns) (n :: ns) = _
      rw [slotsFrom_cons, slotsFrom_cons, map_cons, ih]

theorem padded_frontsFilled (zero : α) (align : Nat) (h : Padded cpSize seqs ns) :
    Padded cpSize (frontsFilled zero align seqs ns) ns := by
  refine ⟨?_, h.dvd, h.twoDvd⟩
  have hle := h.le
  clear h
  induction hle with
  | nil => exact .nil
  | cons hd _ ih => exact .cons (length_frontFilled_le hd) ih

/-- What is packed of the sequences. -/
def packedSeqs (zero : α) (cpSize align : Nat) (seqs : List (List α)) (ns : List Nat) :
    List (List α) :=
  if cpSize ≤ 1 then seqs else frontsFilled zero align seqs ns

theorem padded_packedSeqs (zero : α) (align : Nat) (h : Padded cpSize seqs ns) :
    Padded cpSize (packedSeqs zero cpSize align seqs ns) ns := by
  unfold packedSeqs
  split
  · exact h
  · exact padded_frontsFilled zero align h

theorem exists_getElem?_packedSeqs (zero : α) (cpSize align : Nat)
    {i : Nat} (hd : seqs[i]? = some d) (hn : ns[i]? = some n) :
    ∃ d', (packedSeqs zero cpSize align seqs ns)[i]? = some d' ∧ ∀ p < d.length, d'[p]? = d[p]? := by
  unfold packedSeqs
  split
  · exact ⟨d, hd, fun p _ => rfl⟩
  · refine ⟨frontFilled zero align n d, ?_, fun p hp => getElem?_frontFilled zero align n hp⟩
    unfold frontsFilled
    rw [getElem?_zipWith, hd, hn]

theorem add_le_of_mem_slotsFrom {start : Nat} (h : seq ∈ slotsFrom start seqs ns) :
    seq.cuSeqlen + seq.seqlenPadded ≤ start + ns.sum := by
  induction seqs generalizing start ns with
  | nil => cases h
  | cons d seqs ih =>
    cases ns with
    | nil => cases h
    | cons n ns =>
      rw [slotsFrom_cons] at h
      rw [sum_cons]
      rcases mem_cons.1 h with rfl | h
      · dsimp only
        omega
      · grind

theorem div_add_div_le_localLen {layout : ThdLayout}
    (h : seq ∈ slotsFrom 0 seqs layout.seqlensPadded) :
    seq.cuSeqlen / cpSize + seq.seqlenPadded / cpSize ≤ localLen cpSize layout := by
  have hle := add_le_of_mem_slotsFrom h
  rw [Nat.zero_add] at hle
  exact (Nat.div_add_div_le_add_div).trans (Nat.div_le_div_right hle)

theorem foldlM_map_congr {ε β γ δ : Type} {f : δ → γ → Except ε δ} {g : δ → β → Except ε δ}
    (h : β → γ) (xs : List β) (hf : ∀ s, ∀ x ∈ xs, f s (h x) = g s x) (s : δ) :
    (xs.map h).foldlM f s = xs.foldlM g s := by
  induction xs generalizing s with
  | nil => rfl
  | cons x xs ih =>
    rw [map_cons, foldlM_cons, hf s x mem_cons_self]
    exact bind_congr fun s' => ih (fun s y hy => hf s y (mem_cons_of_mem _ hy)) s'

section Batch

variable {zero : α} {tpSize cpSize align : Nat} {useFp8Padding : Bool} {seqs : List (List α)}
  {layout : ThdLayout}

/-- The loop over a batch whose front chunks can be written. -/
theorem exists_foldlM_thdSeq (zero : α) (hcp : 1 ≤ cpSize)
    (h : LayoutOf tpSize cpSize useFp8Padding (seqs.map length) layout)
    (hload : 1 < cpSize → ∀ seq ∈ slotsFrom 0 seqs layout.seqlensPadded, FrontLoads cpSize seq.seqlenPadded (max seq.tokens.length align))
    {cpRank : Nat} (hrank : cpRank < cpSize) :
    ∃ s, (seqSlots seqs layout).foldlM (thdSeq zero ⟨tpSize, cpSize, cpRank⟩ align false)
        (ThdState.init zero (localLen cpSize layout)) = .ok s ∧
      s.inputIds.toList = (localPieces zero cpSize cpRank
        (packedSeqs zero cpSize align seqs layout.seqlensPadded) layout.seqlensPadded).flatten := by
  have hpadded := h.padded hcp
  have hpacked := padded_packedSeqs zero align hpadded
  have hlen := localLen_eq hpacked
  -- the loop over what is packed of the sequences
  have hslots : (slotsFrom 0 seqs layout.seqlensPadded).foldlM
      (thdSeq zero ⟨tpSize, cpSize, cpRank⟩ align false)
        (ThdState.init zero (localLen cpSize layout)) =
      (slotsFrom 0 (packedSeqs zero cpSize align seqs layout.seqlensPadded)
        layout.seqlensPadded).foldlM (thdSeq zero ⟨tpSize, cpSize, cpRank⟩ align false)
          (ThdState.init zero (localLen cpSize layout)) := by
    unfold packedSeqs
    by_cases hone : cpSize ≤ 1
    · rw [if_pos hone]
    · rw [if_neg hone, slotsFrom_frontsFilled]
      refine (foldlM_map_congr _ _ (fun s seq hseq => ?_) _).symm
      obtain ⟨i, -, hn⟩ := exists_getElem?_of_mem_slotsFrom hseq
      exact thdSeq_frontFilled (by dsimp only; omega) hrank s
        (hpadded.twoDvd (by omega) _ (mem_of_getElem? hn))
        (div_add_div_le_localLen hseq) (hload (by omega) seq hseq)
  have hholds : 1 < cpSize → ∀ seq ∈ slotsFrom 0 (packedSeqs zero cpSize align seqs
      layout.seqlensPadded) layout.seqlensPadded, Holds cpSize align seq := by
    intro hone seq hseq
    unfold packedSeqs at hseq
    rw [if_neg (by omega), slotsFrom_frontsFilled] at hseq
    obtain ⟨seq', hseq', rfl⟩ := mem_map.1 hseq
    obtain ⟨i, -, hn⟩ := exists_getElem?_of_mem_slotsFrom hseq'
    unfold Holds
    rw [mul_half_eq hone (hpadded.twoDvd hone _ (mem_of_getElem? hn))]
    exact le_length_frontFilled zero align _ _
  obtain ⟨s, hloop, hlist, -⟩ := @foldlM_thdSeq α zero ⟨tpSize, cpSize, cpRank⟩ align false hcp
    hrank (localLen cpSize layout) _ layout.seqlensPadded hpacked 0 (localLen cpSize layout)
    (ThdState.init zero (localLen cpSize layout)) [] rfl (by simp) (Nat.dvd_zero _) hlen.ge hholds
    (fun hneed => nomatch hneed) rfl
  refine ⟨s, by rw [h.seqSlots_eq, hslots, hloop], ?_⟩
  rw [hlist, hlen, Nat.sub_self, replicate_zero, append_nil, nil_append]

/-- A batch that the loop of the last rank has packed. -/
theorem frontLoads_of_foldlM (hcp : 1 < cpSize)
    (h : LayoutOf tpSize cpSize useFp8Padding (seqs.map length) layout)
    {s : ThdState α (localLen cpSize layout)}
    (hloop : (seqSlots seqs layout).foldlM (thdSeq zero ⟨tpSize, cpSize, cpSize - 1⟩ align false)
      (ThdState.init zero (localLen cpSize layout)) = .ok s) :
    ∀ seq ∈ slotsFrom 0 seqs layout.seqlensPadded,
      FrontLoads cpSize seq.seqlenPadded (max seq.tokens.length align) := by
  intro seq hseq
  rw [h.seqSlots_eq] at hloop
  obtain ⟨i, -, hn⟩ := exists_getElem?_of_mem_slotsFrom hseq
  obtain ⟨s₁, s₂, hturn⟩ := exists_of_foldlM hloop hseq
  exact frontLoads_of_thdSeq hcp (Nat.sub_add_cancel (by omega))
    ((h.padded (by omega)).twoDvd hcp _ (mem_of_getElem? hn)) (div_add_div_le_localLen hseq)
    hturn

/-- The front chunks slot by slot and sequence by sequence. -/
theorem forall_slotsFrom_iff {P : Nat → Nat → Prop} (ns : List Nat) :
    (∀ seq ∈ slotsFrom 0 seqs ns, P seq.tokens.length seq.seqlenPadded) ↔
      ∀ (i len n : Nat), (seqs.map length)[i]? = some len → ns[i]? = some n → P len n := by
  constructor
  · intro h i len n hlen hn
    rw [getElem?_map, Option.map_eq_some_iff] at hlen
    obtain ⟨d, hd, rfl⟩ := hlen
    obtain ⟨slot, hslot, rfl, rfl⟩ := getElem?_slotsFrom 0 hd hn
    exact h slot hslot
  · intro h seq hseq
    obtain ⟨i, hd, hn⟩ := exists_getElem?_of_mem_slotsFrom hseq
    exact h i _ _ (by rw [getElem?_map, hd]; rfl) hn

end Batch

/-! ## Packing on all ranks -/

section Ranks

variable {zero : α} {tpSize cpSize : Nat} {useFp8Padding : Bool} {seqs : List (List α)}

theorem thdLayout_of_ne_nil (cpSize : Nat) (useFp8Padding : Bool) (htp : 1 ≤ tpSize)
    (hne : seqs.map length ≠ []) :
    ∃ layout, thdLayout tpSize cpSize useFp8Padding (seqs.map length) = .ok layout ∧
      LayoutOf tpSize cpSize useFp8Padding (seqs.map length) layout ∧
      layout.seqlensPadded = paddedLengths tpSize cpSize useFp8Padding (seqs.map length) := by
  obtain ⟨layout, hlayout, hspec⟩ := thdLayout_eq_ok cpSize htp useFp8Padding hne
  exact ⟨layout, hlayout, hspec, seqlensPadded_of_thdLayout hlayout⟩

theorem ne_nil_of_thdLayout {seqlens : List Nat} {layout : ThdLayout}
    (h : thdLayout tpSize cpSize useFp8Padding seqlens = .ok layout) : seqlens ≠ [] := by
  rintro rfl
  obtain ⟨e, herror⟩ := thdLayout_nil tpSize cpSize useFp8Padding
  rw [herror] at h
  cases h

theorem TokensLoad.exists_preprocess (zero : α) (htp : 1 ≤ tpSize) (hcp : 1 ≤ cpSize)
    (hload : TokensLoad tpSize cpSize useFp8Padding (seqs.map length)) {cpRank : Nat}
    (hrank : cpRank < cpSize) :
    ∃ out layout, preprocessThdEngine zero ⟨tpSize, cpSize, cpRank⟩ false useFp8Padding seqs =
        .ok out ∧ out.params = layout.params ∧
      LayoutOf tpSize cpSize useFp8Padding (seqs.map length) layout ∧
      layout.seqlensPadded = paddedLengths tpSize cpSize useFp8Padding (seqs.map length) := by
  obtain ⟨layout, hlayout, hspec, hns⟩ := thdLayout_of_ne_nil cpSize useFp8Padding htp
    hload.nonempty
  have hfront : 1 < cpSize → ∀ seq ∈ slotsFrom 0 seqs layout.seqlensPadded,
      FrontLoads cpSize seq.seqlenPadded
        (max seq.tokens.length (alignSize tpSize cpSize useFp8Padding)) := by
    intro hone
    rw [hns]
    exact (forall_slotsFrom_iff (P := fun len n =>
      FrontLoads cpSize n (max len (alignSize tpSize cpSize useFp8Padding))) _).2 (hload.front hone)
  obtain ⟨s, hloop, -⟩ := exists_foldlM_thdSeq zero hcp hspec hfront hrank
  unfold ThdState.init at hloop
  unfold preprocessThdEngine
  rw [hlayout, ok_bind]
  dsimp only
  rw [hloop]
  exact ⟨_, layout, rfl, rfl, hspec, hns⟩

/-- Tokens are packed on all ranks iff they load. -/
theorem tokensLoad_iff (zero : α) (htp : 1 ≤ tpSize) (hcp : 1 ≤ cpSize) : (∀ cpRank < cpSize, ∃ out,
        preprocessThdEngine zero ⟨tpSize, cpSize, cpRank⟩ false useFp8Padding seqs = .ok out) ↔
      TokensLoad tpSize cpSize useFp8Padding (seqs.map length) := by
  constructor
  · intro h
    obtain ⟨out, hlast⟩ := h (cpSize - 1) (by omega)
    obtain ⟨layout, hlayout, hlast⟩ := bind_eq_ok.1 hlast
    have hne := ne_nil_of_thdLayout hlayout
    obtain ⟨layout', hlayout', hspec, hns⟩ := thdLayout_of_ne_nil cpSize useFp8Padding htp
      hne
    rw [hlayout'] at hlayout
    cases hlayout
    refine ⟨hne, fun hone => ?_⟩
    obtain ⟨s, hloop, -⟩ := bind_eq_ok.1 hlast
    have hfront := frontLoads_of_foldlM hone hspec hloop
    rw [hns] at hfront
    exact (forall_slotsFrom_iff (P := fun len n =>
      FrontLoads cpSize n (max len (alignSize tpSize cpSize useFp8Padding))) _).1 hfront
  · intro hload cpRank hrank
    obtain ⟨out, -, hout, -⟩ := hload.exists_preprocess zero htp hcp hrank
    exact ⟨out, hout⟩

theorem foldlM_thdItemSeq {ps : ParallelState} {align itemNumel m : Nat} (xs : List (SeqSlot α))
    (h : ∀ seq ∈ xs, 1 < ps.cpSize → align ≤ seq.tokens.length * itemNumel) (s : ThdState α m) :
    xs.foldlM (thdItemSeq zero ps align itemNumel) s = xs.foldlM (thdSeq zero ps 0 false) s := by
  have hmap := foldlM_map_congr (f := thdItemSeq zero ps align itemNumel) id xs
    (fun s seq hseq => show _ = thdSeq zero ps 0 false s seq from
      if_neg fun hlt => Nat.not_lt.2 (h seq hseq hlt.1) hlt.2) s
  rwa [map_id] at hmap

/-- What a rank holds of a batch of items that loads. -/
theorem ItemsLoad.preprocess_eq (zero : α) {itemNumel : Nat} (htp : 1 ≤ tpSize) (hcp : 1 ≤ cpSize)
    (hload : ItemsLoad tpSize cpSize itemNumel useFp8Padding (seqs.map length)) {cpRank : Nat}
    (hrank : cpRank < cpSize) :
    ∃ out, preprocessThdItems zero ⟨tpSize, cpSize, cpRank⟩ itemNumel useFp8Padding seqs = .ok out ∧
      out.inputIds = (localPieces zero cpSize cpRank
        (packedSeqs zero cpSize 0 seqs
          (paddedLengths tpSize cpSize useFp8Padding (seqs.map length)))
        (paddedLengths tpSize cpSize useFp8Padding (seqs.map length))).flatten := by
  obtain ⟨layout, hlayout, hspec, hns⟩ := thdLayout_of_ne_nil cpSize useFp8Padding htp
    hload.nonempty
  have hfront : 1 < cpSize → ∀ seq ∈ slotsFrom 0 seqs layout.seqlensPadded,
      FrontLoads cpSize seq.seqlenPadded (max seq.tokens.length 0) := by
    intro hone
    rw [hns]
    refine (forall_slotsFrom_iff (P := fun len n => FrontLoads cpSize n (max len 0)) _).2 ?_
    intro i len n hlen hn
    rw [Nat.max_zero]
    exact hload.front hone i len n hlen hn
  obtain ⟨s, hloop, hlist⟩ := exists_foldlM_thdSeq zero hcp hspec hfront hrank
  have hnumel : ∀ seq ∈ seqSlots seqs layout, 1 < cpSize →
      alignSize tpSize cpSize useFp8Padding ≤ seq.tokens.length * itemNumel := by
    intro seq hseq hone
    rw [hspec.seqSlots_eq] at hseq
    obtain ⟨i, hd, -⟩ := exists_getElem?_of_mem_slotsFrom hseq
    exact hload.numel hone _ (mem_map_of_mem (mem_of_getElem? hd))
  rw [← foldlM_thdItemSeq _ hnumel] at hloop
  unfold preprocessThdItems
  rw [hlayout, ok_bind]
  dsimp only
  rw [hloop]
  refine ⟨_, rfl, ?_⟩
  rw [← hns]
  exact hlist

theorem itemsLoad_iff (zero : α) {itemNumel : Nat} (htp : 1 ≤ tpSize) (hcp : 1 ≤ cpSize) :
    (∀ cpRank < cpSize, ∃ out, preprocessThdItems zero ⟨tpSize, cpSize, cpRank⟩ itemNumel
        useFp8Padding seqs = .ok out) ↔
      ItemsLoad tpSize cpSize itemNumel useFp8Padding (seqs.map length) := by
  constructor
  · intro h
    obtain ⟨out, hlast⟩ := h (cpSize - 1) (by omega)
    obtain ⟨layout, hlayout, hlast⟩ := bind_eq_ok.1 hlast
    have hne := ne_nil_of_thdLayout hlayout
    obtain ⟨layout', hlayout', hspec, hns⟩ := thdLayout_of_ne_nil cpSize useFp8Padding htp
      hne
    rw [hlayout'] at hlayout
    cases hlayout
    obtain ⟨s, hloop, -⟩ := bind_eq_ok.1 hlast
    have hnumel : ∀ seq ∈ seqSlots seqs layout, 1 < cpSize →
        alignSize tpSize cpSize useFp8Padding ≤ seq.tokens.length * itemNumel := by
      intro seq hseq hone
      obtain ⟨s₁, s₂, hturn⟩ := exists_of_foldlM hloop hseq
      unfold thdItemSeq at hturn
      by_contra hlt
      rw [if_pos ⟨hone, Nat.not_le.1 hlt⟩] at hturn
      cases hturn
    refine ⟨hne, fun hone len hlen => ?_, fun hone i len n hlen hn => ?_⟩
    · obtain ⟨i, hi⟩ := mem_iff_getElem?.1 hlen
      have hle := forall₂_iff_get.1 hspec.le
      have hn := getElem?_eq_getElem (l := layout.seqlensPadded) (i := i)
        (by rw [← hle.1]; exact (List.getElem?_eq_some_iff.1 hi).1)
      rw [hspec.seqSlots_eq] at hnumel
      exact (forall_slotsFrom_iff (P := fun len _ =>
        alignSize tpSize cpSize useFp8Padding ≤ len * itemNumel) _).1
          (fun seq hseq => hnumel seq hseq hone) i len _ hi hn
    · have hfront := frontLoads_of_foldlM hone hspec
        ((foldlM_thdItemSeq _ hnumel _).symm.trans hloop)
      rw [hns] at hfront
      have hall := (forall_slotsFrom_iff (P := fun len n => FrontLoads cpSize n (max len 0)) _).1
        hfront i len n hlen hn
      rwa [Nat.max_zero] at hall
  · intro hload cpRank hrank
    obtain ⟨out, hout, -⟩ := hload.preprocess_eq zero htp hcp hrank
    exact ⟨out, hout⟩

/-- `postprocess_thd_engine` of the packed items of all ranks. -/
theorem postprocessThdEngine_take (zero empty : α) (ps : ParallelState) (hcp : 1 ≤ ps.cpSize)
    (hrank : ps.cpRank < ps.cpSize) {seqLens : List Nat} {params : PackedSeqParams} {ns : List Nat}
    (hparams : params.cuSeqlensPadded = offsets ns) (h : Padded ps.cpSize seqs ns)
    (hcounts : Forall₂ (fun s d => s ≤ d.length) seqLens seqs) {outs : Nat → List α}
    (houts : ∀ r < ps.cpSize, outs r = (localPieces zero ps.cpSize r seqs ns).flatten) :
    postprocessThdEngine empty ps ((range ps.cpSize).map outs) (outs ps.cpRank) params
        seqLens = .ok (zipWith (fun s d => d.take s) seqLens seqs) := by
  have hlen := (forall₂_iff_get.1 h.le).1
  have hlenSeqs := (forall₂_iff_get.1 hcounts).1
  unfold postprocessThdEngine
  rw [hparams]
  apply mapM_zip_offsets (f := unbindSeq empty ps (gatherOutputs ps _ _))
  · omega
  · grind
  · intro i s n y hs hn hy
    rw [getElem?_zipWith, hs] at hy
    cases hd : seqs[i]? with
    | none =>
      rw [hd] at hy
      cases hy
    | some d =>
      rw [hd] at hy
      cases hy
      obtain ⟨hi, hs'⟩ := List.getElem?_eq_some_iff.1 hs
      obtain ⟨hi', hd'⟩ := List.getElem?_eq_some_iff.1 hd
      have hle' := (forall₂_iff_get.1 hcounts).2 i hi hi'
      rw [get_eq_getElem, get_eq_getElem, hs', hd'] at hle'
      obtain ⟨n', hn', hle⟩ := h.exists_length_le hd
      rw [hn] at hn'
      cases hn'
      have houtputs : ∀ j < ps.cpSize, (gatherOutputs ps ((range ps.cpSize).map outs)
          (outs ps.cpRank)).getD j [] = (localPieces zero ps.cpSize j seqs ns).flatten :=
        fun j hj => (gatherOutputs_getD hrank hj).trans (houts j hj)
      unfold unbindSeq
      by_cases hone : ps.cpSize ≤ 1
      · rw [if_pos hone, getSlice_outputs (by omega) h hd hn hle hle' houtputs]
      · rw [if_neg hone, gatherSeq_eq (by omega) h hd hn hle houtputs, ok_bind]
        unfold padTo
        rw [take_append_of_le_length hle']
        rfl

end Ranks

/-! ## Slots -/

section Slots

variable {β : Type} {cpSize cpRank : Nat}

/-- The tokens in the slots of a rank; the other slots are padding. -/
def tokenSlots (cpSize cpRank : Nat) (seqs : List (List α)) (ns : List Nat) : List (Option α) :=
  (localPieces none cpSize cpRank (seqs.map (List.map some)) ns).flatten

variable {ns : List Nat} {seqs : List (List α)}

theorem padded_map (f : α → β) (h : Padded cpSize seqs ns) :
    Padded cpSize (seqs.map (List.map f)) ns := by
  refine ⟨?_, h.dvd, h.twoDvd⟩
  rw [forall₂_map_left_iff]
  exact h.le.imp fun d n hd => by rwa [length_map]

theorem length_flatten_localPieces {zero : α} (hcp : 1 ≤ cpSize) (hrank : cpRank < cpSize)
    (h : Padded cpSize seqs ns) :
    (localPieces zero cpSize cpRank seqs ns).flatten.length = (ns.map (· / cpSize)).sum := by
  rw [length_flatten, map_length_localPieces hcp hrank h]

/-- A slot of a rank belongs to a position of a padded sequence, whatever the sequences are. -/
theorem exists_slotPosition (hcp : 1 ≤ cpSize) (hrank : cpRank < cpSize)
    (hdvd : ∀ n ∈ ns, cpSize ∣ n) {s : Nat} (hs : s < (ns.map (· / cpSize)).sum) :
    ∃ i p n : Nat, ns[i]? = some n ∧
      ∀ {γ : Type} (zero : γ) (seqs : List (List γ)), Padded cpSize seqs ns →
        ∀ d, seqs[i]? = some d → d.length ≤ n →
          (localPieces zero cpSize cpRank seqs ns).flatten[s]? = (padTo zero n d)[p]? := by
  obtain ⟨i, slot, len, hlen, hslot, rfl⟩ := exists_rowStart_add hs
  rw [getElem?_map, Option.map_eq_some_iff] at hlen
  obtain ⟨n, hn, rfl⟩ := hlen
  refine ⟨i, slotPosition cpSize (n / cpSize / 2) cpRank slot, n, hn, ?_⟩
  intro γ zero seqs hpadded d hd hle
  rw [rowStart_map_div hdvd]
  exact getElem?_localPieces_padTo zero hcp hrank hpadded hd hn hle hslot

/-- What else is packed like the tokens is where the tokens are. -/
theorem getElem?_of_tokenSlots (zero : β) {seqs' : List (List β)} (hcp : 1 ≤ cpSize)
    (hrank : cpRank < cpSize) (h : Padded cpSize seqs ns) (h' : Padded cpSize seqs' ns) {s : Nat}
    {x : α} (hs : (tokenSlots cpSize cpRank seqs ns)[s]? = some (some x)) :
    ∃ (i p : Nat) (d : List α), seqs[i]? = some d ∧ d[p]? = some x ∧
      ∀ d', seqs'[i]? = some d' → p < d'.length →
        (localPieces zero cpSize cpRank seqs' ns).flatten[s]? = d'[p]? := by
  have hmap := padded_map some h
  have hlt := (List.getElem?_eq_some_iff.1 hs).1
  unfold tokenSlots at hs hlt
  rw [length_flatten_localPieces hcp hrank hmap] at hlt
  obtain ⟨i, p, n, hn, hpos⟩ := exists_slotPosition hcp hrank h.dvd hlt
  have hlen := (forall₂_iff_get.1 h.le).1
  obtain ⟨hi, -⟩ := List.getElem?_eq_some_iff.1 hn
  obtain ⟨d, hd⟩ : ∃ d, seqs[i]? = some d := ⟨_, getElem?_eq_getElem (by omega)⟩
  have hbound : ∀ {γ : Type} (seqs : List (List γ)) (d : List γ), Padded cpSize seqs ns →
      seqs[i]? = some d → d.length ≤ n := by
    intro γ seqs d hpadded hd
    obtain ⟨n', hn', hle⟩ := hpadded.exists_length_le hd
    rw [hn] at hn'
    cases hn'
    exact hle
  have hd' : (seqs.map (List.map some))[i]? = some (d.map some) := by grind
  have hle := hbound _ _ hmap hd'
  rw [hpos none _ hmap _ hd' hle] at hs
  have hp : p < (d.map some).length := by
    by_contra hge
    by_cases hpn : p < n
    · rw [getElem?_padTo_of_le (by omega) hpn] at hs
      cases hs
    · rw [getElem?_eq_none (by rw [length_padTo _ hle]; omega)] at hs
      cases hs
  rw [getElem?_padTo_of_lt hp, getElem?_map, Option.map_eq_some_iff] at hs
  obtain ⟨y, hy, hyx⟩ := hs
  cases hyx
  refine ⟨i, p, d, hd, hy, fun d'' hd'' hp'' => ?_⟩
  rw [hpos zero _ h' _ hd'' (hbound _ _ h' hd''), getElem?_padTo_of_lt hp'']

theorem exists_tokenSlots (hcp : 1 ≤ cpSize) (h : Padded cpSize seqs ns) {i p : Nat} {d : List α}
    {x : α} (hd : seqs[i]? = some d) (hx : d[p]? = some x) :
    ∃ cpRank < cpSize, ∃ s : Nat, (tokenSlots cpSize cpRank seqs ns)[s]? = some (some x) := by
  obtain ⟨n, hn, hle⟩ := h.exists_length_le hd
  obtain ⟨hp, -⟩ := List.getElem?_eq_some_iff.1 hx
  have hslot : ∃ cpRank < cpSize, ∃ slot < n / cpSize,
      slotPosition cpSize (n / cpSize / 2) cpRank slot = p := by
    by_cases hone : cpSize ≤ 1
    · have hcpOne : cpSize = 1 := by omega
      subst hcpOne
      exact ⟨0, Nat.one_pos, p, by rw [Nat.div_one]; omega, if_pos (Nat.le_refl 1)⟩
    · obtain ⟨hchunk, hn'⟩ := half_eq (by omega) (h.twoDvd (by omega) n (mem_of_getElem? hn))
      obtain ⟨r, hr, slot, hslot, hpos⟩ := exists_zigzagPosition
        (show p < 2 * cpSize * (n / cpSize / 2) by omega)
      exact ⟨r, hr, slot, by omega, (if_neg hone).trans hpos⟩
  obtain ⟨cpRank, hrank, slot, hslot, hpos⟩ := hslot
  have hd' : (seqs.map (List.map some))[i]? = some (d.map some) := by grind
  refine ⟨cpRank, hrank, rowStart ns i / cpSize + slot, ?_⟩
  unfold tokenSlots
  rw [getElem?_localPieces_flatten none hcp hrank (padded_map some h)
    hd' hn (by rwa [length_map]) hslot (by rw [length_map]; omega),
    hpos, getElem?_map, hx]
  rfl

end Slots

end Verl.MCore
