import Verl.Models.PackedSeqs

/-! # Batches of one width under context parallelism (`verl/models/mcore/util.py`)

`preprocess_bshd_engine` pads all sequences to one width, gives every context-parallel rank its two
chunks with a mask of the real tokens, and can shift the tokens by one for the labels.
`postprocess_bshd_engine` puts outputs and masks of all ranks together and keeps what is masked.

* `bshdMaxSeqlen`: the width. -/

namespace Verl.MCore

open List

variable {α : Type}

/-- The mask of the real tokens, or on Ascend `True` where attention is forbidden. -/
inductive AttentionMask
  | tokens (rows : List (List Bool))
  | forbidden (masks : List (List (List Bool)))

/-- The position ids are the same for all rows. -/
structure BshdBatch (α : Type) where
  inputIds : List (List α)
  attentionMask : AttentionMask
  positionIds : List Nat

/-! ## Algorithm -/

/-- `_build_npu_attn_mask`. -/
def buildNpuAttnMask (mask : List (List Bool)) : List (List (List Bool)) :=
  mask.map fun row => (List.range row.length).map fun q => (List.range row.length).map fun k =>
    !(row.getD q false && row.getD k false && decide (k ≤ q))

def bshdMaxSeqlen (tpSize cpSize : Nat) (useFp8Padding : Bool) (batchSize maxSeqlen : Nat) : Nat :=
  let alignSize := baseAlignSize tpSize cpSize
  let maxSeqlen := if 1 < alignSize then maxSeqlen + padSize alignSize maxSeqlen else maxSeqlen
  if useFp8Padding then
    let fp8TotalAlign := 128 * tpSize * cpSize
    let fp8SeqAlign := Nat.lcm (fp8TotalAlign / Nat.gcd batchSize fp8TotalAlign) alignSize
    (maxSeqlen + fp8SeqAlign - 1) / fp8SeqAlign * fp8SeqAlign
  else maxSeqlen

/-- `mask[start:stop] = True`. -/
def setTrue (mask : List Bool) (start stop : Nat) : List Bool :=
  mask.mapIdx fun i b => if start ≤ i ∧ i < stop then true else b

/-- `torch.roll(row, shifts=-1)`. -/
def rollRow (row : List α) : List α := row.rotate 1

/-- The tokens of a row and their mask. -/
def bshdRow (zero : α) (ps : ParallelState) (needRoll : Bool) (maxSeqlen localMaxSeqlen : Nat)
    (seq : List α) : Except PyErr (List α × List Bool) :=
  if ps.cpSize ≤ 1 then do
    let row ← store (Buffer.replicate localMaxSeqlen zero) 0 seq.length seq
    return (if needRoll then rollRow row.toList else row.toList,
      setTrue (List.replicate localMaxSeqlen false) 0 seq.length)
  else do
    let padded := if seq.length < maxSeqlen then setSlice (List.replicate maxSeqlen zero) 0 seq else seq
    let chunkLen := maxSeqlen / (2 * ps.cpSize)
    let firstStart := ps.cpRank * chunkLen
    let secondStart := (2 * ps.cpSize - ps.cpRank - 1) * chunkLen
    let localSeq :=
      if needRoll then
        (List.range' firstStart chunkLen ++ List.range' secondStart chunkLen).filterMap fun pos =>
          padded[(pos + 1) % maxSeqlen]?
      else getSlice padded firstStart chunkLen ++ getSlice padded secondStart chunkLen
    let row ← store (Buffer.replicate localMaxSeqlen zero) 0 localMaxSeqlen localSeq
    let validFirst := min (seq.length - firstStart) chunkLen
    let validSecond := min (seq.length - secondStart) chunkLen
    return (row.toList,
      setTrue (setTrue (List.replicate localMaxSeqlen false) 0 validFirst) chunkLen
        (chunkLen + validSecond))

/-- `preprocess_bshd_engine`; `isNpu` is `is_npu_available`. -/
def preprocessBshdEngine (zero : α) (isNpu : Bool) (ps : ParallelState) (needRoll useFp8Padding : Bool)
    (inputIds : List (List α)) : Except PyErr (BshdBatch α) :=
  match (inputIds.map List.length).max? with
  | none => .error (.runtimeError "max(): Expected reduction dim to be specified for input.numel() == 0")
  | some maxLen => do
    let maxSeqlen := bshdMaxSeqlen ps.tpSize ps.cpSize useFp8Padding inputIds.length maxLen
    let localMaxSeqlen := if 1 < ps.cpSize then maxSeqlen / ps.cpSize else maxSeqlen
    let rows ← inputIds.mapM (bshdRow zero ps needRoll maxSeqlen localMaxSeqlen)
    let mask := rows.map Prod.snd
    let chunkLen := maxSeqlen / (2 * ps.cpSize)
    return {
      inputIds := rows.map Prod.fst
      attentionMask := if isNpu then .forbidden (buildNpuAttnMask mask) else .tokens mask
      positionIds :=
        if ps.cpSize ≤ 1 then List.range localMaxSeqlen
        else List.range' (ps.cpRank * chunkLen) chunkLen ++
          List.range' (maxSeqlen - (ps.cpRank + 1) * chunkLen) chunkLen }

/-- The mask of the real tokens, from the diagonal on Ascend. -/
def AttentionMask.rows : AttentionMask → List (List Bool)
  | .tokens rows => rows
  | .forbidden masks => masks.map fun m =>
      (List.range m.length).map fun q => !((m.getD q []).getD q true)

/-- One turn of the loop: a sequence from the outputs and the masks of all ranks. -/
def gatherBshdSeq (empty : α) (cpSize localSeqlen : Nat) (outputs : List (List α))
    (masks : List (List Bool)) : Except PyErr (List α) := do
  pyAssert (localSeqlen % 2 == 0) "CP bshd expects local sequence length to be divisible by 2"
  let halfSeqlen := localSeqlen / 2
  let fullSeqlen := localSeqlen * cpSize
  let tmp ← writeChunks cpSize halfSeqlen (fun j =>
      let o := outputs.getD j []
      (o.take halfSeqlen, o.drop halfSeqlen))
    (Buffer.replicate fullSeqlen empty)
  let fullMask ← writeChunks cpSize halfSeqlen (fun j =>
      let m := masks.getD j []
      (m.take halfSeqlen, m.drop halfSeqlen))
    (Buffer.replicate fullSeqlen false)
  return maskSelect fullMask.toList tmp.toList

/-- `postprocess_bshd_engine` with `post_process`; `gathered` and `gatheredMasks` are what
`all_gather` returns. -/
def postprocessBshdEngine (empty : α) (ps : ParallelState) (gathered : List (List (List α)))
    (gatheredMasks : List (List (List Bool))) (output : List (List α))
    (attentionMask : AttentionMask) : Except PyErr (List (List α)) := do
  let mask := attentionMask.rows
  pyAssert (output.map List.length == mask.map List.length)
    "output.shape and attention_mask.shape differ"
  if ps.cpSize ≤ 1 then return List.zipWith maskSelect mask output
  else
    let outputList := gathered.set ps.cpRank output
    (List.range output.length).mapM fun i =>
      gatherBshdSeq empty ps.cpSize ((output.map List.length).getD 0 0)
        (outputList.map (·.getD i [])) (gatheredMasks.map (·.getD i []))

/-! ## Lemmas: the width -/

section Width

variable {tpSize cpSize : Nat} (useFp8Padding : Bool) {batchSize : Nat}

theorem fp8SeqAlign_pos (htp : 1 ≤ tpSize) (hcp : 1 ≤ cpSize) :
    0 < Nat.lcm (128 * tpSize * cpSize / Nat.gcd batchSize (128 * tpSize * cpSize))
      (baseAlignSize tpSize cpSize) := by
  have htotal : 0 < 128 * tpSize * cpSize :=
    Nat.mul_pos (Nat.mul_pos (by decide) htp) hcp
  exact Nat.lcm_pos (Nat.div_gcd_pos_of_pos_right _ htotal) (baseAlignSize_pos _ htp)

theorem le_roundUp (n : Nat) {a : Nat} (ha : 0 < a) : n ≤ (n + a - 1) / a * a := by
  have hdiv := Nat.div_add_mod (n + a - 1) a
  have hmod := Nat.mod_lt (n + a - 1) ha
  rw [Nat.mul_comm] at hdiv
  omega

theorem le_bshdMaxSeqlen (htp : 1 ≤ tpSize) (hcp : 1 ≤ cpSize) (maxLen : Nat) :
    maxLen ≤ bshdMaxSeqlen tpSize cpSize useFp8Padding batchSize maxLen := by
  unfold bshdMaxSeqlen
  dsimp only
  generalize hn : (if 1 < baseAlignSize tpSize cpSize then
    maxLen + padSize (baseAlignSize tpSize cpSize) maxLen else maxLen) = n
  have hle : maxLen ≤ n := by grind
  cases useFp8Padding with
  | false => exact hle
  | true => exact hle.trans (le_roundUp n (fp8SeqAlign_pos htp hcp))

theorem two_mul_dvd_bshdMaxSeqlen (htp : 1 ≤ tpSize) (hcp : 1 < cpSize) (maxLen : Nat) :
    2 * cpSize ∣ bshdMaxSeqlen tpSize cpSize useFp8Padding batchSize maxLen := by
  have hbase : 2 * cpSize ∣ baseAlignSize tpSize cpSize := two_mul_dvd_alignSize hcp false
  have hpos := baseAlignSize_pos cpSize htp
  have hone : 1 < baseAlignSize tpSize cpSize := by
    have hle := Nat.le_of_dvd hpos hbase
    omega
  unfold bshdMaxSeqlen
  dsimp only
  rw [if_pos hone]
  cases useFp8Padding with
  | false => exact hbase.trans (dvd_add_padSize hpos maxLen)
  | true => exact hbase.trans ((Nat.dvd_lcm_right _ _).trans (Nat.dvd_mul_left _ _))

end Width

/-! ## Lemmas: rows -/

/-- The padded sequence, shifted for the labels. -/
def paddedRow (zero : α) (needRoll : Bool) (n : Nat) (d : List α) : List α :=
  if needRoll then rollRow (padTo zero n d) else padTo zero n d

/-- The mask of the real tokens of a padded sequence. -/
def paddedMask (n : Nat) (d : List α) : List Bool :=
  List.replicate d.length true ++ List.replicate (n - d.length) false

/-- What a rank holds of a row. -/
def localRow (cpSize cpRank : Nat) (xs : List α) : List α :=
  if cpSize ≤ 1 then xs else zigzagShard cpSize (xs.length / (2 * cpSize)) xs cpRank

variable {n cpSize h cpRank : Nat} {d : List α} {needRoll : Bool} {zero : α}

theorem length_paddedRow (zero : α) (needRoll : Bool) (h : d.length ≤ n) :
    (paddedRow zero needRoll n d).length = n := by
  cases needRoll with
  | false => exact length_padTo _ h
  | true => exact (length_rotate _ _).trans (length_padTo _ h)

theorem length_paddedMask (h : d.length ≤ n) : (paddedMask n d).length = n := by
  unfold paddedMask
  rw [length_append, length_replicate, length_replicate]
  omega

theorem getElem?_paddedMask (h : d.length ≤ n) {i : Nat} (hi : i < n) :
    (paddedMask n d)[i]? = some (decide (i < d.length)) := by
  unfold paddedMask
  by_cases hlt : i < d.length
  · grind
  · grind

/-- Of a padded row the mask keeps what the real tokens have become. -/
theorem maskSelect_paddedMask (h : d.length ≤ n) :
    maskSelect (paddedMask n d) (paddedRow zero needRoll n d) =
      (paddedRow zero needRoll n d).take d.length := by
  generalize hrow : paddedRow zero needRoll n d = row
  have hlen : row.length = n := by
    rw [← hrow]
    exact length_paddedRow _ _ h
  have htake : (row.take d.length).length = d.length := by grind
  have hall := maskSelect_replicate_true (row.take d.length)
  rw [htake] at hall
  unfold paddedMask
  conv_lhs => rw [← take_append_drop d.length row]
  rw [maskSelect_append (by rw [length_replicate, htake]), hall, maskSelect_replicate_false,
    append_nil]

theorem take_paddedRow (h : d.length ≤ n) :
    ((paddedRow zero needRoll n d).take d.length).length = d.length ∧
      (needRoll = false → (paddedRow zero needRoll n d).take d.length = d) ∧
      (needRoll = true → ∀ p, p + 1 < d.length →
        ((paddedRow zero needRoll n d).take d.length)[p]? = d[p + 1]?) := by
  refine ⟨by rw [length_take, length_paddedRow _ _ h]; omega, ?_, ?_⟩
  · rintro rfl
    exact take_padTo d
  · rintro rfl p hp
    have hlen := length_padTo zero h
    rw [getElem?_take_of_lt (by omega)]
    show ((padTo zero n d).rotate 1)[p]? = _
    rw [getElem?_rotate (by omega), Nat.mod_eq_of_lt (by omega),
      getElem?_padTo_of_lt hp]

theorem getElem?_setTrue (mask : List Bool) (start stop i : Nat) : (setTrue mask start stop)[i]? =
      mask[i]?.map fun b => if start ≤ i ∧ i < stop then true else b := by
  unfold setTrue
  rw [getElem?_mapIdx]

theorem filterMap_range'_getElem? {xs : List α} {start size : Nat} (h : start + size ≤ xs.length) :
    (range' start size).filterMap (fun p => xs[p]?) = getSlice xs start size := by
  induction size generalizing start with
  | zero =>
    rfl
  | succ size ih =>
    have hrest := ih (show start + 1 + size ≤ xs.length by omega)
    unfold getSlice at hrest ⊢
    rw [range'_succ, filterMap_cons_some (getElem?_eq_getElem (by omega)), hrest,
      drop_eq_getElem_cons (i := start) (by omega), take_succ_cons]

theorem store_zeros (zero : α) (h : d.length ≤ n) :
    ∃ buf, store (Buffer.replicate n zero) 0 d.length d = .ok buf ∧ buf.toList = padTo zero n d := by
  have hzeros : (Buffer.replicate n zero).toList = [] ++ replicate n zero := rfl
  obtain ⟨buf, hstore, hlist⟩ := store_behind hzeros h (Nat.le_refl n)
  refine ⟨buf, hstore, ?_⟩
  rw [hlist, Nat.sub_self, replicate_zero, append_nil, nil_append]

theorem setTrue_zeros (h : d.length ≤ n) :
    setTrue (replicate n false) 0 d.length = paddedMask n d := by
  apply ext_getElem?
  intro i
  rw [getElem?_setTrue, getElem?_replicate]
  by_cases hi : i < n
  · rw [if_pos hi, getElem?_paddedMask h hi]
    by_cases hlt : i < d.length
    · simp
    · simp
  · rw [if_neg hi, getElem?_eq_none (by rw [length_paddedMask h]; omega)]
    rfl

theorem setTrue_chunks (hn : n = 2 * cpSize * h) (hrank : cpRank < cpSize) (hd : d.length ≤ n) :
    setTrue (setTrue (replicate (2 * h) false) 0 (min (d.length - cpRank * h) h)) h
        (h + min (d.length - (2 * cpSize * h - (cpRank + 1) * h)) h) =
      zigzagShard cpSize h (paddedMask n d) cpRank := by
  have hlen : (paddedMask n d).length = 2 * cpSize * h := by rw [length_paddedMask hd, hn]
  apply ext_getElem?
  intro i
  rw [getElem?_setTrue, getElem?_setTrue, getElem?_replicate]
  by_cases hi : i < 2 * h
  · have hpos := zigzagPosition_lt hrank hi
    rw [if_pos hi, getElem?_zigzagShard hlen hrank hi, getElem?_paddedMask hd (by omega),
      Option.map_some, Option.map_some]
    unfold zigzagPosition
    congr 1
    by_cases hlt : i < h
    · grind
    · grind
  · rw [if_neg hi, getElem?_eq_none (by rw [length_zigzagShard hlen hrank]; omega)]
    rfl

theorem fill_eq (h : d.length ≤ n) :
    (if d.length < n then setSlice (replicate n zero) 0 d else d) = padTo zero n d := by
  unfold padTo
  by_cases hlt : d.length < n
  · have hset := setSlice_append [] (replicate n zero) d
    rw [nil_append, length_nil, nil_append, drop_replicate] at hset
    rw [if_pos hlt, hset]
  · rw [if_neg hlt, show n - d.length = 0 by omega, replicate_zero, append_nil]

/-- The chunks of a rank, with or without the shift. -/
theorem chunks_eq (hn : n = 2 * cpSize * h) (hrank : cpRank < cpSize) (hd : d.length ≤ n) :
    (if needRoll then
      (range' (cpRank * h) h ++ range' (2 * cpSize * h - (cpRank + 1) * h) h).filterMap
        fun pos => (padTo zero n d)[(pos + 1) % n]?
      else getSlice (padTo zero n d) (cpRank * h) h ++
        getSlice (padTo zero n d) (2 * cpSize * h - (cpRank + 1) * h) h) =
      zigzagShard cpSize h (paddedRow zero needRoll n d) cpRank := by
  have hle := succ_mul_le (h := h) hrank
  have hsucc := Nat.add_one_mul cpRank h
  have htwo := Nat.mul_assoc 2 cpSize h
  cases needRoll with
  | false => rfl
  | true =>
    have hlen := length_padTo zero hd
    have hlenRow := length_paddedRow zero true hd
    have hread : ∀ pos < n, (padTo zero n d)[(pos + 1) % n]? = (paddedRow zero true n d)[pos]? := by
      intro pos hpos
      show _ = ((padTo zero n d).rotate 1)[pos]?
      rw [getElem?_rotate (by omega), hlen]
    rw [if_pos rfl, filterMap_append]
    unfold zigzagShard
    rw [← filterMap_range'_getElem? (by omega), ← filterMap_range'_getElem? (by omega)]
    congr 1
    · apply filterMap_congr
      intro pos hpos
      rw [mem_range'_1] at hpos
      exact hread pos (by omega)
    · apply filterMap_congr
      intro pos hpos
      rw [mem_range'_1] at hpos
      exact hread pos (by omega)

/-- One turn of the loop gives what the rank holds of the padded row and of its mask. -/
theorem bshdRow_eq (zero : α) (ps : ParallelState) (hcp : 1 ≤ ps.cpSize)
    (hrank : ps.cpRank < ps.cpSize) (needRoll : Bool)
    (hdvd : 1 < ps.cpSize → 2 * ps.cpSize ∣ n) (hd : d.length ≤ n) :
    bshdRow zero ps needRoll n (if 1 < ps.cpSize then n / ps.cpSize else n) d =
      .ok (localRow ps.cpSize ps.cpRank (paddedRow zero needRoll n d),
        localRow ps.cpSize ps.cpRank (paddedMask n d)) := by
  unfold bshdRow localRow
  by_cases hone : ps.cpSize ≤ 1
  · rw [if_neg (show ¬1 < ps.cpSize by omega)]
    simp only [if_pos hone]
    obtain ⟨buf, hstore, hlist⟩ := store_zeros zero hd
    rw [hstore, ok_bind, hlist, setTrue_zeros hd]
    rfl
  · obtain ⟨hchunk, hn⟩ := half_eq (show 1 < ps.cpSize by omega) (hdvd (by omega))
    generalize n / ps.cpSize / 2 = h at hchunk hn
    have hchunkLen : n / (2 * ps.cpSize) = h := by
      rw [hn, Nat.mul_div_cancel_left _ (by omega)]
    have hback : (2 * ps.cpSize - ps.cpRank - 1) * h =
        2 * ps.cpSize * h - (ps.cpRank + 1) * h := by
      rw [Nat.sub_sub, Nat.sub_mul]
    have hlenRow := length_paddedRow zero needRoll hd
    have hshardLen : (zigzagShard ps.cpSize h (paddedRow zero needRoll n d) ps.cpRank).length =
        2 * h := length_zigzagShard (by rw [hlenRow]; exact hn) hrank
    obtain ⟨buf, hstore, hlist⟩ := store_zeros zero (n := 2 * h) hshardLen.le
    rw [hshardLen] at hstore
    have hfull : padTo zero (2 * h) (zigzagShard ps.cpSize h (paddedRow zero needRoll n d) ps.cpRank) =
        zigzagShard ps.cpSize h (paddedRow zero needRoll n d) ps.cpRank := by
      unfold padTo
      rw [hshardLen, Nat.sub_self, replicate_zero, append_nil]
    rw [if_pos (show 1 < ps.cpSize by omega)]
    simp only [if_neg hone]
    rw [hlenRow, length_paddedMask hd, hchunkLen, hchunk, fill_eq hd, hback,
      chunks_eq hn hrank hd, hstore, ok_bind, hlist, hfull, setTrue_chunks hn hrank hd]
    rfl

/-! ## Lemmas: gathering -/

theorem rows_buildNpuAttnMask (mask : List (List Bool)) :
    (AttentionMask.forbidden (buildNpuAttnMask mask)).rows = mask := by
  show (buildNpuAttnMask mask).map _ = mask
  unfold buildNpuAttnMask
  rw [map_map]
  conv_rhs => rw [← map_id mask]
  apply map_congr_left
  intro row _
  apply ext_getElem
  · simp
  · grind

/-- The tokens under the mask, from what all ranks hold of them. -/
theorem gatherBshdSeq_eq {empty : α} {row : List α} {mask : List Bool}
    (hrow : row.length = 2 * cpSize * h) (hmask : mask.length = 2 * cpSize * h)
    {outputs : List (List α)} {masks : List (List Bool)}
    (houtputs : ∀ j < cpSize, outputs.getD j [] = zigzagShard cpSize h row j)
    (hmasks : ∀ j < cpSize, masks.getD j [] = zigzagShard cpSize h mask j) :
    gatherBshdSeq empty cpSize (2 * h) outputs masks = .ok (maskSelect mask row) := by
  have hfull : 2 * h * cpSize = 2 * cpSize * h := Nat.mul_right_comm 2 h cpSize
  have hback : ∀ {β : Type} {xs : List β}, xs.length = 2 * cpSize * h → ∀ j < cpSize,
      (zigzagShard cpSize h xs j).drop h = getSlice (zigzagShard cpSize h xs j) h h := by
    intro β xs hxs j hj
    unfold getSlice
    rw [take_of_length_le]
    rw [length_drop, length_zigzagShard hxs hj]
    omega
  obtain ⟨tmp, htmp, htmpList⟩ := writeChunks_shards
    (fun j => ((outputs.getD j []).take h, (outputs.getD j []).drop h)) hrow
    (fun j hj => by rw [houtputs j hj]; rfl) (fun j hj => by rw [houtputs j hj]; exact hback hrow j hj)
    hfull (Buffer.replicate (2 * h * cpSize) empty)
  obtain ⟨fullMask, hfullMask, hfullMaskList⟩ := writeChunks_shards
    (fun j => ((masks.getD j []).take h, (masks.getD j []).drop h)) hmask
    (fun j hj => by rw [hmasks j hj]; rfl) (fun j hj => by rw [hmasks j hj]; exact hback hmask j hj)
    hfull (Buffer.replicate (2 * h * cpSize) false)
  unfold gatherBshdSeq
  dsimp only
  rw [Nat.mul_mod_right, beq_self_eq_true, pyAssert_true, ok_bind,
    Nat.mul_div_cancel_left h (by decide), htmp, ok_bind, hfullMask, ok_bind, htmpList,
    hfullMaskList]
  rfl

/-! ## The round trips -/

theorem length_localRow (hrank : cpRank < cpSize)
    (hdvd : 1 < cpSize → 2 * cpSize ∣ n) {xs : List α} (hxs : xs.length = n) :
    (localRow cpSize cpRank xs).length = if 1 < cpSize then n / cpSize else n := by
  unfold localRow
  by_cases hone : cpSize ≤ 1
  · rw [if_pos hone, if_neg (by omega), hxs]
  · obtain ⟨hchunk, hn⟩ := half_eq (show 1 < cpSize by omega) (hdvd (by omega))
    generalize n / cpSize / 2 = h at hchunk hn
    have hhalf : xs.length / (2 * cpSize) = h := by
      rw [hxs, hn, Nat.mul_div_cancel_left _ (by omega)]
    rw [if_neg hone, if_pos (by omega), hhalf, length_zigzagShard (by rw [hxs]; exact hn) hrank,
      hchunk]

theorem preprocessBshdEngine_eq (zero : α) (isNpu needRoll useFp8Padding : Bool) {tpSize : Nat}
    (htp : 1 ≤ tpSize) (hcp : 1 ≤ cpSize) {seqs : List (List α)} (hne : seqs ≠ []) :
    ∃ n, (∀ d ∈ seqs, d.length ≤ n) ∧ (1 < cpSize → 2 * cpSize ∣ n) ∧
      ∃ outs : Nat → BshdBatch α, ∀ r < cpSize,
        preprocessBshdEngine zero isNpu ⟨tpSize, cpSize, r⟩ needRoll useFp8Padding seqs =
          .ok (outs r) ∧
        (outs r).inputIds = seqs.map (fun d => localRow cpSize r (paddedRow zero needRoll n d)) ∧
        (outs r).attentionMask.rows = seqs.map (fun d => localRow cpSize r (paddedMask n d)) := by
  cases hmax : (seqs.map length).max? with
  | none =>
    rw [max?_eq_none_iff, map_eq_nil_iff] at hmax
    exact absurd hmax hne
  | some maxLen =>
    generalize hn : bshdMaxSeqlen tpSize cpSize useFp8Padding seqs.length maxLen = n
    have hle : ∀ d ∈ seqs, d.length ≤ n := by
      intro d hd
      have hlen := (max?_eq_some_iff.1 hmax).2 d.length (mem_map_of_mem hd)
      rw [← hn]
      exact hlen.trans (le_bshdMaxSeqlen useFp8Padding htp hcp maxLen)
    have hdvd : 1 < cpSize → 2 * cpSize ∣ n := by
      intro hone
      rw [← hn]
      exact two_mul_dvd_bshdMaxSeqlen useFp8Padding htp hone maxLen
    refine ⟨n, hle, hdvd, ?_⟩
    have hrank : ∀ r < cpSize, ∃ out : BshdBatch α,
        preprocessBshdEngine zero isNpu ⟨tpSize, cpSize, r⟩ needRoll useFp8Padding seqs = .ok out ∧
        out.inputIds = seqs.map (fun d => localRow cpSize r (paddedRow zero needRoll n d)) ∧
        out.attentionMask.rows = seqs.map (fun d => localRow cpSize r (paddedMask n d)) := by
      intro r hr
      have hrows := mapM_eq_ok_map _ _ seqs fun d hd => bshdRow_eq zero
        ⟨tpSize, cpSize, r⟩ hcp hr needRoll hdvd (hle d hd)
      unfold preprocessBshdEngine
      rw [hmax]
      dsimp only at ⊢
      rw [hn, hrows]
      refine ⟨_, rfl, map_map, ?_⟩
      cases isNpu with
      | false => exact map_map
      | true => exact (rows_buildNpuAttnMask _).trans map_map
    have : Inhabited (BshdBatch α) := ⟨⟨[], .tokens [], []⟩⟩
    choose! outs houts using hrank
    exact ⟨outs, houts⟩

/-- `postprocess_bshd_engine` of what `preprocess_bshd_engine` gives on all ranks. -/
theorem postprocessBshdEngine_eq {empty : α} (ps : ParallelState)
    (hrank : ps.cpRank < ps.cpSize) (hdvd : 1 < ps.cpSize → 2 * ps.cpSize ∣ n)
    {seqs : List (List α)} (hne : seqs ≠ []) (hle : ∀ d ∈ seqs, d.length ≤ n)
    (outs : Nat → List (List α)) (masks : Nat → AttentionMask)
    (houts : ∀ r < ps.cpSize,
      outs r = seqs.map (fun d => localRow ps.cpSize r (paddedRow zero needRoll n d)))
    (hmasks : ∀ r < ps.cpSize,
      (masks r).rows = seqs.map (fun d => localRow ps.cpSize r (paddedMask n d))) :
    postprocessBshdEngine empty ps ((range ps.cpSize).map outs)
        ((range ps.cpSize).map fun r => (masks r).rows) (outs ps.cpRank) (masks ps.cpRank) =
      .ok (seqs.map fun d => (paddedRow zero needRoll n d).take d.length) := by
  have hrowLen : ∀ d ∈ seqs, (localRow ps.cpSize ps.cpRank (paddedRow zero needRoll n d)).length =
      if 1 < ps.cpSize then n / ps.cpSize else n :=
    fun d hd => length_localRow hrank hdvd (length_paddedRow _ _ (hle d hd))
  have hmaskLen : ∀ d ∈ seqs, (localRow ps.cpSize ps.cpRank (paddedMask n d)).length =
      if 1 < ps.cpSize then n / ps.cpSize else n :=
    fun d hd => length_localRow hrank hdvd (length_paddedMask (hle d hd))
  have hshapes : ((outs ps.cpRank).map length == (masks ps.cpRank).rows.map length) =
      true := by
    rw [beq_iff_eq, houts _ hrank, hmasks _ hrank, map_map, map_map]
    apply map_congr_left
    intro d hd
    exact (hrowLen d hd).trans (hmaskLen d hd).symm
  unfold postprocessBshdEngine
  dsimp only
  rw [hshapes]
  by_cases hone : ps.cpSize ≤ 1
  · rw [if_pos hone, houts _ hrank, hmasks _ hrank, zipWith_map, zipWith_self]
    apply congrArg Except.ok
    apply map_congr_left
    intro d hd
    unfold localRow
    rw [if_pos hone, if_pos hone]
    exact maskSelect_paddedMask (hle d hd)
  · obtain ⟨hchunk, hn⟩ := half_eq (show 1 < ps.cpSize by omega) (hdvd (by omega))
    generalize n / ps.cpSize / 2 = h at hchunk hn
    have hlocal : ∀ {β : Type} {xs : List β}, xs.length = n → ∀ j,
        localRow ps.cpSize j xs = zigzagShard ps.cpSize h xs j := by
      intro β xs hxs j
      unfold localRow
      rw [if_neg hone, hxs]
      conv_lhs => rw [hn, Nat.mul_div_cancel_left _ (show 0 < 2 * ps.cpSize by omega)]
    have hlen : ((outs ps.cpRank).map length).getD 0 0 = 2 * h := by grind
    have houtputs : ((range ps.cpSize).map outs).set ps.cpRank (outs ps.cpRank) =
        (range ps.cpSize).map outs := by
      apply ext_getElem?
      intro j
      rw [getElem?_set]
      by_cases hj : ps.cpRank = j
      · grind
      · rw [if_neg hj]
    rw [if_neg hone, hlen, houtputs]
    apply mapM_eq_ok_of_forall₂
    rw [forall₂_iff_get]
    refine ⟨by rw [length_range, length_map, houts _ hrank, length_map],
      fun i hi hi' => ?_⟩
    rw [length_map] at hi'
    have hd := hle seqs[i] (getElem_mem hi')
    have hread : ∀ {β : Type} {g : Nat → List (List β)} {f : List α → List β},
        (∀ r < ps.cpSize, g r = seqs.map fun d => localRow ps.cpSize r (f d)) →
        (f seqs[i]).length = n → ∀ j < ps.cpSize,
        (((range ps.cpSize).map g).map (·.getD i [])).getD j [] =
          zigzagShard ps.cpSize h (f seqs[i]) j := by grind
    rw [get_eq_getElem, get_eq_getElem, getElem_range, getElem_map,
      ← maskSelect_paddedMask hd]
    exact gatherBshdSeq_eq (by rw [length_paddedRow _ _ hd]; exact hn)
      (by rw [length_paddedMask hd]; exact hn) (hread houts (length_paddedRow _ _ hd))
      (hread hmasks (length_paddedMask hd))

/-- Gathering over all ranks gives back every sequence: a packed batch at the positions of its
mask, a batch of one width row by row, shifted when it was shifted for the labels.  A batch has at
least one sequence; `max` raises on an empty one. -/
theorem gather_inverts_split (zero empty : α) {tpSize cpSize : Nat} (htp : 1 ≤ tpSize)
    (hcp : 1 ≤ cpSize) (useFp8Padding : Bool) :
    (∀ (seqLen : Nat) (inputIds : List (List α)) (attentionMask : List (List Bool)),
      attentionMask ≠ [] →
      List.Forall₂ (fun mask row => mask.length = row.length) attentionMask inputIds →
      (∀ row ∈ inputIds, row.length = seqLen) →
      ∃ (outs : Nat → List α) (params : PackedSeqParams),
        (∀ r < cpSize, preprocessPackedSeqs zero ⟨tpSize, cpSize, r⟩ useFp8Padding inputIds
          attentionMask = .ok (outs r, params)) ∧
        ∀ r < cpSize, postprocessPackedSeqs zero empty ⟨tpSize, cpSize, r⟩
          ((List.range cpSize).map outs) (outs r) params attentionMask seqLen =
            .ok (List.zipWith (List.zipWith fun m x => if m then x else zero)
              attentionMask inputIds)) ∧
    (∀ (isNpu needRoll : Bool) (seqs : List (List α)), seqs ≠ [] →
      ∃ outs : Nat → BshdBatch α,
        (∀ r < cpSize, preprocessBshdEngine zero isNpu ⟨tpSize, cpSize, r⟩ needRoll useFp8Padding
          seqs = .ok (outs r)) ∧
        ∀ r < cpSize, ∃ rows : List (List α), postprocessBshdEngine empty ⟨tpSize, cpSize, r⟩
          ((List.range cpSize).map fun r => (outs r).inputIds)
          ((List.range cpSize).map fun r => (outs r).attentionMask.rows)
          (outs r).inputIds (outs r).attentionMask = .ok rows ∧
          rows.length = seqs.length ∧
          ∀ (i : Nat) (d : List α), seqs[i]? = some d →
            ∃ row : List α, rows[i]? = some row ∧ row.length = d.length ∧
            (needRoll = false → row = d) ∧
            (needRoll = true → ∀ p, p + 1 < d.length → row[p]? = d[p + 1]?)) ∧
    (∀ (ps : ParallelState) (isNpu needRoll : Bool),
      (∃ e, preprocessPackedSeqs zero ps useFp8Padding [] [] = .error e) ∧
      ∃ e, preprocessBshdEngine zero isNpu ps needRoll useFp8Padding [] = .error e) := by
  refine ⟨?_, ?_, ?_⟩
  · intro seqLen inputIds attentionMask hne hrows hwidth
    obtain ⟨layout, -, hlayout, hpre⟩ := preprocessPackedSeqs_eq zero ⟨tpSize, cpSize, 0⟩
      htp hcp useFp8Padding hne hrows
    refine ⟨_, _, hpre, fun r hr => ?_⟩
    exact postprocessPackedSeqs_eq zero empty ⟨tpSize, cpSize, r⟩ hcp hr useFp8Padding
      hrows hwidth hlayout fun _ _ => rfl
  · intro isNpu needRoll seqs hne
    obtain ⟨n, hle, hdvd, outs, houts⟩ :=
      preprocessBshdEngine_eq zero isNpu needRoll useFp8Padding htp hcp hne
    refine ⟨outs, fun r hr => (houts r hr).1, fun r hr => ?_⟩
    refine ⟨_, postprocessBshdEngine_eq ⟨tpSize, cpSize, r⟩ hr hdvd hne hle
      (fun r => (outs r).inputIds) (fun r => (outs r).attentionMask)
      (fun r hr => (houts r hr).2.1) (fun r hr => (houts r hr).2.2), length_map .., ?_⟩
    intro i d hd
    have hdn := hle d (mem_of_getElem? hd)
    exact ⟨_, by rw [getElem?_map, hd]; rfl, take_paddedRow hdn⟩
  · intro ps isNpu needRoll
    constructor
    · obtain ⟨e, he⟩ := thdLayout_nil ps.tpSize ps.cpSize useFp8Padding
      refine ⟨e, ?_⟩
      unfold preprocessPackedSeqs
      rw [map_nil, he]
      rfl
    · exact ⟨_, rfl⟩

/-- Two sequences on two ranks. -/
theorem gather_inverts_split_two : ∃ outs : Nat → BshdBatch Nat, ∀ r < 2,
      preprocessBshdEngine 0 false ⟨1, 2, r⟩ true false [[5, 6, 7], [8]] = .ok (outs r) := by
  obtain ⟨outs, houts, -⟩ := (@gather_inverts_split Nat 0 0 1 2 (by decide) (by decide) false).2.1 false true [[5, 6, 7], [8]] (by decide)
  exact ⟨outs, houts⟩

end Verl.MCore
