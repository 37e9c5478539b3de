import Verl.Lib.Masked
import Verl.Lib.PySlice

/-! # Padded and unpadded batches (`verl/workers/utils/padding.py`)

A batch comes with prompts padded on the left and responses padded on the right; the engines
work on the real tokens only, one sequence behind the other.

    left_right_2_no_padding   masks the padding away
    no_padding_2_padding      cuts the outputs at the response tokens, pads them on the right
    response_from_nested      the same cut, without padding

The output that predicts a token stands one place before it, so every cut starts at the last
prompt token.

* `unpadInput`, `padInput`: `verl/utils/npu_flash_attn_utils.py`. -/

namespace Verl.Padding

open List

/-- A tensor of sequences, padded to one width or nested. -/
inductive Sequences (α : Type)
  | padded (width : Nat) (rows : List (List α))
  | nested (rows : List (List α))

/-- The position ids of a sequence, on one axis or several. -/
inductive PositionIds
  | flat (ids : List Nat)
  | axes (ids : List (List Nat))

/-- The `TensorDict` of a batch: tokens `ι`, entries `ω` of the tensors that go along. -/
structure Data (ι ω : Type) where
  prompts : Option (Sequences ι)
  responses : Option (Sequences ι)
  inputIds : Option (Sequences ι)
  attentionMask : Option (Sequences Bool)
  responseMask : Option (Sequences Bool)
  lossMask : Option (Sequences Bool)
  positionIds : Option (List PositionIds)
  routedExperts : Option (Sequences ω)
  teacherLogprobs : Option (Sequences ω)
  teacherIds : Option (Sequences ω)
  maxSeqLen : Option Nat
  maxResponseLen : Option Nat
  indices : Option (List Nat)

/-- The output of a model for every token. -/
inductive ModelOutput (β : Type)
  | packed (values : List β)
  | nested (rows : List (List β))

variable {α β ι ω : Type}

def ModelOutput.values : ModelOutput β → List β
  | .packed values => values
  | .nested rows => rows.flatten

/-! ## `npu_flash_attn_utils` -/

def indexFirstAxis (input : List α) (indices : List Nat) : List α :=
  indices.filterMap (input[·]?)

structure Unpadded (α : Type) where
  hiddenStates : List α
  indices : List Nat
  cuSeqlens : List Nat
  maxSeqlenInBatch : Nat

def unpadInput (hiddenStates : List (List α)) (attentionMask : List (List Bool)) :
    Except PyErr (Unpadded α) :=
  let seqlensInBatch := attentionMask.map (List.count true)
  let indices := nonzero attentionMask.flatten
  match seqlensInBatch.max? with
  | none => .error (.runtimeError "max(): Expected reduction dim to be specified for input.numel() == 0")
  | some maxSeqlenInBatch => .ok
    { hiddenStates := indexFirstAxis hiddenStates.flatten indices
      indices := indices
      cuSeqlens := offsets seqlensInBatch
      maxSeqlenInBatch := maxSeqlenInBatch }

/-- `output[indices] = values` on zeros, seen as `batch` rows. -/
def padInput (zero : α) (values : List α) (indices : List Nat) (batch seqlen : Nat) :
    List (List α) :=
  (List.replicate batch seqlen).splitLengths
    ((indices.zip values).foldl (fun out p => out.set p.1 p.2) (List.replicate (batch * seqlen) zero))

/-! ## Algorithm -/

/-- `nested_tensor_from_jagged`. -/
def nestedTensorFromJagged (values : List α) (offsets : List Nat) : List (List α) :=
  List.zipWith (fun start stop => (values.take stop).drop start) offsets offsets.tail

def PositionIds.select (mask : List Bool) : PositionIds → PositionIds
  | .flat ids => .flat (maskSelect mask ids)
  | .axes ids => .axes (ids.map (maskSelect mask))

/-- A padded tensor along the same indices; a nested one is left as it is. -/
def unpadWith (indices cuSeqlens : List Nat) : Sequences α → Sequences α
  | .padded _ rows =>
    .nested (nestedTensorFromJagged (indexFirstAxis rows.flatten indices) cuSeqlens)
  | .nested rows => .nested rows

def leftRight2NoPadding (data : Data ι ω) : Except PyErr (Data ι ω) := do
  pyAssert data.inputIds.isSome "input_ids is required in left-right padding data"
  pyAssert data.attentionMask.isSome "attention_mask is required in left-right padding data"
  pyAssert data.responseMask.isSome "response_mask is required in left-right padding data"
  pyAssert data.positionIds.isSome "position_ids is required in left-right padding data"
  match data.inputIds, data.attentionMask, data.responseMask, data.positionIds with
  | some (.padded maxSeqLen inputIds), some (.padded _ attentionMask),
      some (.padded maxResponseLen responseMask), some positionIds => do
    let unpadded ← unpadInput inputIds attentionMask
    let teacher := data.teacherLogprobs.isSome && data.teacherIds.isSome
    let unpadTeacher := fun rows : Sequences ω =>
      if teacher then unpadWith unpadded.indices unpadded.cuSeqlens rows else rows
    return { data with
      inputIds := some (.nested (nestedTensorFromJagged unpadded.hiddenStates unpadded.cuSeqlens))
      positionIds := some (List.zipWith PositionIds.select attentionMask positionIds)
      lossMask := some (.padded maxResponseLen responseMask)
      routedExperts := data.routedExperts.map (unpadWith unpadded.indices unpadded.cuSeqlens)
      teacherLogprobs := data.teacherLogprobs.map unpadTeacher
      teacherIds := data.teacherIds.map unpadTeacher
      maxSeqLen := some maxSeqLen
      maxResponseLen := some maxResponseLen
      indices := some unpadded.indices }
  -- a nested tensor has no second dimension to unpad
  | _, _, _, _ => .error (.runtimeError "unpad_input expects padded tensors")

/-- The prompt lengths, the response lengths and `max_response_len`. -/
def sequenceLens (data : Data ι ω) : Except PyErr (List Nat × List Nat × Nat) :=
  match data.prompts, data.responses with
  | none, _ => .error (.keyError "prompts")
  | _, none => .error (.keyError "responses")
  | some (.nested prompts), some (.nested responses) =>
    let responseLens := responses.map List.length
    match data.maxResponseLen, responseLens.max? with
    | some maxResponseLen, _ => .ok (prompts.map List.length, responseLens, maxResponseLen)
    | none, some maxResponseLen => .ok (prompts.map List.length, responseLens, maxResponseLen)
    | none, none => .error (.runtimeError "max(): Expected reduction dim to be specified for input.numel() == 0")
  | some (.padded promptWidth _), some (.padded responseWidth _) =>
    match data.attentionMask with
    | none => .error (.keyError "attention_mask")
    | some (.nested _) => .error (.assertionError "")
    | some (.padded _ mask) =>
      .ok (mask.map fun row => (row.take promptWidth).count true,
        mask.map fun row => (row.drop promptWidth).count true, responseWidth)
  | _, _ => .error (.runtimeError "prompts and responses have different layouts")

/-- `F.pad` at the end, where a negative size cuts. -/
def padEnd (zero : α) (xs : List α) (padSize : Int) : List α :=
  if 0 ≤ padSize then xs ++ List.replicate padSize.toNat zero
  else xs.take (xs.length - (-padSize).toNat)

/-- `torch.stack`. -/
def stack (rows : List (List α)) : Except PyErr (List (List α)) :=
  match rows with
  | [] => .error (.runtimeError "stack expects a non-empty TensorList")
  | first :: rest =>
    if ∀ row ∈ rest, row.length = first.length then .ok rows
    else .error (.runtimeError "stack expects each tensor to be equal size")

/-- `values[seq_offset - resp_len - 1 : seq_offset - 1]`. -/
def responseSlice (values : List β) (respLen seqOffset : Nat) : List β :=
  plainSlice values (some (seqOffset - respLen - 1)) (some (seqOffset - 1))

def noPadding2Padding (zero : β) (tensor : ModelOutput β) (data : Data ι ω) :
    Except PyErr (List (List β)) := do
  let values := tensor.values
  let (promptLens, responseLens, maxResponseLen) ← sequenceLens data
  let sequenceLens := List.zipWith (· + ·) promptLens responseLens
  let sequenceOffsets := (offsets sequenceLens).tail
  match sequenceOffsets.getLast? with
  | none => .error .indexError
  | some total => do
    pyAssert (total == values.length) ""
    pyAssert (!promptLens.contains 0) s!"seq_offset - resp_len - 1 assumes prompt_len > 0. Got {promptLens}"
    stack (List.zipWith (fun (respLen seqOffset : Nat) =>
      padEnd zero (responseSlice values respLen seqOffset) ((maxResponseLen : Int) - respLen))
      responseLens sequenceOffsets)

def responseFromNested (tensor : List (List β)) (responseMask : List (List Bool)) :
    Except PyErr (List (List β)) :=
  if tensor.length = responseMask.length then
    .ok (List.zipWith (responseSlice tensor.flatten) (responseMask.map List.length)
      (offsets (tensor.map List.length)).tail)
  else .error (.valueError "zip() arguments have different lengths")

/-- The padded path: the outputs at their padded positions, `[:, -response_length - 1 : -1]`,
zero where the response mask is not set. -/
def paddedResponse (zero : β) (values : List β) (indices : List Nat) (batch seqlen responseLength : Nat)
    (responseMask : List (List Bool)) : List (List β) :=
  List.zipWith (fun mask row =>
      List.zipWith (fun m v => if m then v else zero) mask
        (plainSlice row (some (-responseLength - 1)) (some (-1))))
    responseMask (padInput zero values indices batch seqlen)

/-! ## Left-right padded batches -/

/-- The attention mask of a prompt of `l.1` and a response of `l.2` real tokens. -/
def maskRow (promptWidth responseWidth : Nat) (l : Nat × Nat) : List Bool :=
  List.replicate (promptWidth - l.1) false ++ List.replicate l.1 true ++
    (List.replicate l.2 true ++ List.replicate (responseWidth - l.2) false)

def responseMaskRow (responseWidth : Nat) (l : Nat × Nat) : List Bool :=
  List.replicate l.2 true ++ List.replicate (responseWidth - l.2) false

/-- Prompts padded on the left, with at least one real token, and responses padded on the
right; `lens` are the real lengths. -/
structure LeftRight (data : Data ι ω) (promptWidth responseWidth : Nat) (lens : List (Nat × Nat)) :
    Prop where
  nonempty : lens ≠ []
  bounds : ∀ l ∈ lens, 1 ≤ l.1 ∧ l.1 ≤ promptWidth ∧ l.2 ≤ responseWidth
  prompts : ∃ rows, data.prompts = some (.padded promptWidth rows)
  responses : ∃ rows, data.responses = some (.padded responseWidth rows)
  inputIds : ∃ rows, data.inputIds = some (.padded (promptWidth + responseWidth) rows) ∧
    rows.length = lens.length ∧ ∀ row ∈ rows, row.length = promptWidth + responseWidth
  attentionMask : data.attentionMask = some (.padded (promptWidth + responseWidth)
    (lens.map (maskRow promptWidth responseWidth)))
  responseMask : ∃ rows, data.responseMask = some (.padded responseWidth rows)
  positionIds : ∃ rows, data.positionIds = some rows

def seqLens (lens : List (Nat × Nat)) : List Nat := lens.map fun l => l.1 + l.2

section Masks

variable {promptWidth responseWidth : Nat} {l : Nat × Nat}

theorem length_maskRow (h1 : l.1 ≤ promptWidth) (h2 : l.2 ≤ responseWidth) :
    (maskRow promptWidth responseWidth l).length = promptWidth + responseWidth := by
  unfold maskRow
  simp only [length_append, length_replicate]
  omega

theorem count_maskRow : (maskRow promptWidth responseWidth l).count true = l.1 + l.2 := by
  unfold maskRow
  simp [count_replicate]

theorem take_maskRow (h1 : l.1 ≤ promptWidth) :
    ((maskRow promptWidth responseWidth l).take promptWidth).count true = l.1 := by
  unfold maskRow
  rw [take_left']
  · simp [count_replicate]
  · grind

theorem drop_maskRow (h1 : l.1 ≤ promptWidth) :
    (maskRow promptWidth responseWidth l).drop promptWidth = responseMaskRow responseWidth l := by
  unfold maskRow responseMaskRow
  rw [drop_left']
  rw [length_append, length_replicate, length_replicate]
  omega

theorem count_responseMaskRow : (responseMaskRow responseWidth l).count true = l.2 := by
  unfold responseMaskRow
  simp [count_replicate]

end Masks

variable {outputs : List β} {data : Data ι ω} {lens : List (Nat × Nat)} {rows : List (List α)}
  {l : Nat × Nat} {responseWidth promptWidth : Nat} {seqs : List (List β)}

theorem nestedTensorFromJagged_flatten (rows : List (List α)) :
    nestedTensorFromJagged rows.flatten (offsets (rows.map length)) = rows := by
  unfold nestedTensorFromJagged
  apply ext_getElem
  · rw [length_zipWith, length_tail, length_offsets, length_map]
    omega
  · intro i hi hi'
    have hrow := getElem?_eq_getElem hi'
    have hlen : (rows.map length)[i]? = some rows[i].length := by grind
    have hstop := getElem?_tail_offsets hlen
    rw [List.getElem?_eq_some_iff] at hstop
    obtain ⟨_, hstop⟩ := hstop
    have hstart : (offsets (rows.map length))[i]? =
        some (rowStart (rows.map length) i) := by
      rw [offsets_eq, getElem?_map, getElem?_range (by rw [length_map]; omega)]
      rfl
    rw [List.getElem?_eq_some_iff] at hstart
    obtain ⟨_, hstart⟩ := hstart
    rw [getElem_zipWith, hstop, hstart]
    have hpart := drop_take_flatten (a := 0) hrow (Nat.le_refl _)
    rwa [take_length] at hpart

theorem indexFirstAxis_nonzero {attentionMask : List (List Bool)}
    (h : Forall₂ (fun mask row => mask.length = row.length) attentionMask rows) :
    indexFirstAxis rows.flatten (nonzero attentionMask.flatten) =
      (zipWith maskSelect attentionMask rows).flatten := by
  have hflat : attentionMask.flatten.length = rows.flatten.length := by
    induction h with
    | nil => rfl
    | cons hrow _ ih =>
      rw [flatten_cons, flatten_cons, length_append, length_append, hrow, ih]
  unfold indexFirstAxis
  rw [filterMap_nonzero hflat, maskSelect_flatten h]

theorem unpadInput_eq {hiddenStates : List (List α)} {attentionMask : List (List Bool)}
    (hne : attentionMask ≠ [])
    (h : Forall₂ (fun mask row => mask.length = row.length) attentionMask hiddenStates) :
    ∃ maxSeqlenInBatch, unpadInput hiddenStates attentionMask = .ok
      { hiddenStates := (zipWith maskSelect attentionMask hiddenStates).flatten
        indices := nonzero attentionMask.flatten
        cuSeqlens := offsets (attentionMask.map (List.count true))
        maxSeqlenInBatch := maxSeqlenInBatch } := by
  unfold unpadInput
  dsimp only
  split
  · next hmax =>
    rw [max?_eq_none_iff, map_eq_nil_iff] at hmax
    exact absurd hmax hne
  · rw [indexFirstAxis_nonzero h]
    exact ⟨_, rfl⟩

theorem forall₂_maskRow (hbounds : ∀ l ∈ lens, 1 ≤ l.1 ∧ l.1 ≤ promptWidth ∧ l.2 ≤ responseWidth)
    (hlen : rows.length = lens.length)
    (hrows : ∀ row ∈ rows, row.length = promptWidth + responseWidth) :
    Forall₂ (fun mask row => mask.length = row.length)
      (lens.map (maskRow promptWidth responseWidth)) rows := by
  rw [forall₂_iff_get]
  refine ⟨by rw [length_map, hlen], fun i hi hi' => ?_⟩
  rw [length_map] at hi
  obtain ⟨-, h1, h2⟩ := hbounds lens[i] (getElem_mem hi)
  rw [get_eq_getElem, get_eq_getElem, getElem_map, length_maskRow h1 h2,
    hrows _ (getElem_mem _)]

theorem leftRight2NoPadding_eq (h : LeftRight data promptWidth responseWidth lens) :
    ∃ nopad rows, leftRight2NoPadding data = .ok nopad ∧
      data.inputIds = some (.padded (promptWidth + responseWidth) rows) ∧
      nopad.inputIds = some (.nested
        (zipWith maskSelect (lens.map (maskRow promptWidth responseWidth)) rows)) ∧
      nopad.prompts = data.prompts ∧ nopad.responses = data.responses ∧
      nopad.attentionMask = data.attentionMask ∧
      nopad.indices = some (nonzero (lens.map (maskRow promptWidth responseWidth)).flatten) := by
  obtain ⟨rows, hids, hlen, hwidth⟩ := h.inputIds
  obtain ⟨responseRows, hresponse⟩ := h.responseMask
  obtain ⟨positionRows, hpositions⟩ := h.positionIds
  have hforall := forall₂_maskRow h.bounds hlen hwidth
  have hne : lens.map (maskRow promptWidth responseWidth) ≠ [] := by
    rw [ne_eq, map_eq_nil_iff]
    exact h.nonempty
  obtain ⟨maxSeqlenInBatch, hunpad⟩ := unpadInput_eq hne hforall
  have hnested : nestedTensorFromJagged
      (zipWith maskSelect (lens.map (maskRow promptWidth responseWidth)) rows).flatten
      (offsets ((lens.map (maskRow promptWidth responseWidth)).map (List.count true))) =
      zipWith maskSelect (lens.map (maskRow promptWidth responseWidth)) rows := by
    rw [← map_length_maskSelect hforall, nestedTensorFromJagged_flatten]
  unfold leftRight2NoPadding
  rw [hids, h.attentionMask, hresponse, hpositions]
  simp only [ok_bind, hunpad, hnested]
  exact ⟨_, rows, rfl, rfl, rfl, rfl, rfl, rfl, rfl⟩

/-! ## The outputs of the response tokens -/

/-- The outputs that predict the response tokens, in the outputs of one sequence. -/
def responseOf (l : Nat × Nat) (outputs : List β) : List β := (outputs.drop (l.1 - 1)).take l.2

theorem length_responseOf (h1 : 1 ≤ l.1)
    (hlen : outputs.length = l.1 + l.2) : (responseOf l outputs).length = l.2 := by
  unfold responseOf
  rw [length_take, length_drop]
  omega

theorem getElem?_responseOf (h1 : 1 ≤ l.1) {j : Nat}
    (hj : j < l.2) : (responseOf l outputs)[j]? = outputs[l.1 + j - 1]? := by
  unfold responseOf
  rw [getElem?_take_of_lt hj, getElem?_drop]
  congr 1
  omega

/-- The cut at the offset where the sequence ends. -/
theorem responseSlice_eq {i : Nat}
    (h1 : 1 ≤ l.1) (hi : seqs[i]? = some outputs) (hlen : outputs.length = l.1 + l.2) :
    responseSlice seqs.flatten l.2 (rowStart (seqs.map length) i + (l.1 + l.2)) =
      responseOf l outputs := by
  generalize hs : rowStart (seqs.map length) i = start
  have hstart : ((start + (l.1 + l.2) : Nat) : Int) - (l.2 : Nat) - 1 =
      ((start + (l.1 - 1) : Nat) : Int) := by omega
  have hstop : ((start + (l.1 + l.2) : Nat) : Int) - 1 =
      ((start + (l.1 + l.2 - 1) : Nat) : Int) := by omega
  unfold responseSlice
  rw [hstart, hstop, plainSlice_nat, ← hs, drop_take_flatten hi (by omega), drop_take]
  congr 1
  omega

theorem padEnd_of_le {xs : List α} {width len : Nat} (zero : α) (h : len ≤ width) :
    padEnd zero xs ((width : Int) - len) = xs ++ replicate (width - len) zero := by
  unfold padEnd
  rw [if_pos (by omega)]
  congr 2
  omega

theorem stack_of_forall {width : Nat} (hne : rows ≠ [])
    (h : ∀ row ∈ rows, row.length = width) : stack rows = .ok rows := by
  cases rows with
  | nil => exact absurd rfl hne
  | cons first rest =>
    rw [forall_mem_cons] at h
    unfold stack
    dsimp only
    rw [if_pos]
    intro row hrow
    rw [h.2 row hrow, h.1]

/-- A row of the result. -/
def responseRow (zero : β) (responseWidth : Nat) (l : Nat × Nat) (outputs : List β) : List β :=
  responseOf l outputs ++ List.replicate (responseWidth - l.2) zero

theorem length_responseRow {zero : β}
    (h1 : 1 ≤ l.1) (h2 : l.2 ≤ responseWidth) (hlen : outputs.length = l.1 + l.2) :
    (responseRow zero responseWidth l outputs).length = responseWidth := by
  unfold responseRow
  rw [length_append, length_responseOf h1 hlen, length_replicate]
  omega

theorem sequenceLens_eq (h : LeftRight data promptWidth responseWidth lens) {nopad : Data ι ω}
    (hprompts : nopad.prompts = data.prompts) (hresponses : nopad.responses = data.responses)
    (hmask : nopad.attentionMask = data.attentionMask) :
    sequenceLens nopad = .ok (lens.map Prod.fst, lens.map Prod.snd, responseWidth) := by
  obtain ⟨promptRows, hpromptRows⟩ := h.prompts
  obtain ⟨responseRows, hresponseRows⟩ := h.responses
  have hpromptLens : (lens.map (maskRow promptWidth responseWidth)).map
      (fun row => (row.take promptWidth).count true) = lens.map Prod.fst := by
    rw [map_map]
    exact map_congr_left fun l hl => take_maskRow (h.bounds l hl).2.1
  have hresponseLens : (lens.map (maskRow promptWidth responseWidth)).map
      (fun row => (row.drop promptWidth).count true) = lens.map Prod.snd := by
    rw [map_map]
    apply map_congr_left
    intro l hl
    rw [Function.comp_apply, drop_maskRow (h.bounds l hl).2.1, count_responseMaskRow]
  unfold sequenceLens
  rw [hprompts, hresponses, hmask, hpromptRows, hresponseRows, h.attentionMask]
  dsimp only
  rw [hpromptLens, hresponseLens]

/-- The outputs of the sequences, cut to their lengths. -/
structure Outputs (lens : List (Nat × Nat)) (seqs : List (List β)) : Prop where
  lengths : seqs.map List.length = seqLens lens

theorem Outputs.length_eq (h : Outputs lens seqs) : seqs.length = lens.length := by
  have hlen := congrArg length h.lengths
  unfold seqLens at hlen
  rwa [length_map, length_map] at hlen

theorem Outputs.length_at (h : Outputs lens seqs) {i : Nat}
    (hl : lens[i]? = some l) (hi : seqs[i]? = some outputs) : outputs.length = l.1 + l.2 := by
  have hlen := congrArg (fun lengths : List Nat => lengths[i]?) h.lengths
  unfold seqLens at hlen
  rw [getElem?_map, getElem?_map, hl, hi] at hlen
  exact Option.some.inj hlen

theorem zipWith_fst_snd (lens : List (Nat × Nat)) :
    zipWith (· + ·) (lens.map Prod.fst) (lens.map Prod.snd) = seqLens lens := by
  rw [zipWith_map, zipWith_self]
  rfl

/-- The cuts of all rows, each with something done to it. -/
theorem zipWith_responseSlice
    (hbounds : ∀ l ∈ lens, 1 ≤ l.1) (h : Outputs lens seqs) (f : Nat → List β → α) :
    zipWith (fun (respLen seqOffset : Nat) =>
        f respLen (responseSlice seqs.flatten respLen seqOffset))
      (lens.map Prod.snd) (offsets (seqLens lens)).tail =
      zipWith (fun l outputs => f l.2 (responseOf l outputs)) lens seqs := by
  apply zipWith_eq_zipWith
  · rw [length_map]
  · rw [length_tail, length_offsets, h.length_eq]
    unfold seqLens
    rw [length_map]
    exact Nat.add_sub_cancel _ _
  · intro i respLen seqOffset l outputs hrespLen hoffset hl hi
    rw [getElem?_map, hl] at hrespLen
    have hrespLen : l.2 = respLen := Option.some.inj hrespLen
    have hseq : (seqLens lens)[i]? = some (l.1 + l.2) := by simp [seqLens, hl]
    rw [getElem?_tail_offsets hseq] at hoffset
    have hoffset := Option.some.inj hoffset
    have h1 : 1 ≤ l.1 := hbounds l (mem_of_getElem? hl)
    rw [← hrespLen, ← hoffset, ← h.lengths, responseSlice_eq h1 hi (h.length_at hl hi)]

theorem noPadding2Padding_eq (zero : β)
    (hlens : sequenceLens data = .ok (lens.map Prod.fst, lens.map Prod.snd, responseWidth))
    (hne : lens ≠ []) (hbounds : ∀ l ∈ lens, 1 ≤ l.1 ∧ l.1 ≤ promptWidth ∧ l.2 ≤ responseWidth)
    (h : Outputs lens seqs) {tensor : ModelOutput β} (hvalues : tensor.values = seqs.flatten) :
    noPadding2Padding zero tensor data =
      .ok (zipWith (responseRow zero responseWidth) lens seqs) := by
  have hsum : (seqLens lens).sum = seqs.flatten.length := by
    rw [length_flatten, h.lengths]
  have hseq : seqLens lens ≠ [] := by
    unfold seqLens
    rw [ne_eq, map_eq_nil_iff]
    exact hne
  have hzero : (lens.map Prod.fst).contains 0 = false := by grind
  have hrows : zipWith (fun (respLen seqOffset : Nat) =>
        padEnd zero (responseSlice seqs.flatten respLen seqOffset) ((responseWidth : Int) - respLen))
      (lens.map Prod.snd) (offsets (seqLens lens)).tail =
      zipWith (responseRow zero responseWidth) lens seqs := by
    rw [zipWith_responseSlice (fun l hl => (hbounds l hl).1) h
      fun respLen part => padEnd zero part ((responseWidth : Int) - respLen)]
    apply zipWith_eq_zipWith rfl rfl
    intro i l outputs l' outputs' hl ho hl' ho'
    rw [hl] at hl'
    rw [ho] at ho'
    cases hl'
    cases ho'
    exact padEnd_of_le zero (hbounds l (mem_of_getElem? hl)).2.2
  have hwidth : ∀ row ∈ zipWith (responseRow zero responseWidth) lens seqs,
      row.length = responseWidth := by
    intro row hrow
    obtain ⟨i, hi, rfl⟩ := getElem_of_mem hrow
    rw [length_zipWith] at hi
    have hl := getElem?_eq_getElem (l := lens) (i := i) (by omega)
    have ho := getElem?_eq_getElem (l := seqs) (i := i) (by omega)
    obtain ⟨h1, -, h2⟩ := hbounds lens[i] (getElem_mem _)
    rw [getElem_zipWith]
    exact length_responseRow h1 h2 (h.length_at hl ho)
  unfold noPadding2Padding
  rw [hlens, hvalues]
  simp only [ok_bind, zipWith_fst_snd]
  rw [getLast?_tail_offsets hseq]
  show pyAssert ((seqLens lens).sum == seqs.flatten.length) "" >>= _ = _
  rw [hsum, beq_self_eq_true, hzero]
  simp only [hrows]
  apply stack_of_forall _ hwidth
  rw [ne_eq, zipWith_eq_nil_iff, not_or]
  refine ⟨hne, fun hnil => hne ?_⟩
  rw [← length_eq_zero_iff, ← h.length_eq, hnil, length_nil]

/-! ## The padded path -/

theorem maskAssign_maskRow (zero : β) (h1 : l.1 ≤ promptWidth) (h2 : l.2 ≤ responseWidth)
    (hlen : outputs.length = l.1 + l.2) :
    maskAssign (maskRow promptWidth responseWidth l)
        (replicate (promptWidth + responseWidth) zero) outputs =
      replicate (promptWidth - l.1) zero ++
        (outputs ++ replicate (responseWidth - l.2) zero) := by
  have hmask : maskRow promptWidth responseWidth l =
      replicate (promptWidth - l.1) false ++
        (replicate (l.1 + l.2) true ++ replicate (responseWidth - l.2) false) := by
    unfold maskRow
    rw [replicate_add]
    simp only [append_assoc]
  have hzeros : replicate (promptWidth + responseWidth) zero =
      replicate (promptWidth - l.1) zero ++
        (replicate (l.1 + l.2) zero ++ replicate (responseWidth - l.2) zero) := by
    rw [replicate_append_replicate, replicate_append_replicate]
    congr 1
    omega
  have hfrontLen : (replicate (promptWidth - l.1) false).length =
      (replicate (promptWidth - l.1) zero).length := by simp
  have hnoVals : ([] : List β).length =
      (replicate (promptWidth - l.1) false).count true := by simp [count_replicate]
  have hmiddleLen : (replicate (l.1 + l.2) true).length =
      (replicate (l.1 + l.2) zero).length := by simp
  have hfront := maskAssign_append hfrontLen hnoVals
    (replicate (l.1 + l.2) true ++ replicate (responseWidth - l.2) false)
    (replicate (l.1 + l.2) zero ++ replicate (responseWidth - l.2) zero) outputs
  have hmiddle := maskAssign_append hmiddleLen
    (show outputs.length = (replicate (l.1 + l.2) true).count true by simp [hlen])
    (replicate (responseWidth - l.2) false) (replicate (responseWidth - l.2) zero) []
  have hall := maskAssign_replicate_true
    (show outputs.length = (replicate (l.1 + l.2) zero).length by
      rw [length_replicate, hlen])
  rw [length_replicate] at hall
  rw [append_nil, hall, maskAssign_replicate_false] at hmiddle
  rw [maskAssign_replicate_false, nil_append, hmiddle] at hfront
  rw [hmask, hzeros, hfront]

theorem zipWith_responseMaskRow (zero : β) (responseWidth : Nat) (l : Nat × Nat) {xs : List β}
    (hlen : xs.length = l.2 + (responseWidth - l.2)) :
    zipWith (fun m v => if m then v else zero) (responseMaskRow responseWidth l) xs =
      xs.take l.2 ++ replicate (responseWidth - l.2) zero := by
  have htake : (replicate l.2 true).length = (xs.take l.2).length := by grind
  have htrue : ∀ {n : Nat} {ys : List β}, n = ys.length →
      zipWith (fun (m : Bool) v => if m then v else zero) (replicate n true) ys = ys := by
    intro n ys hn
    subst hn
    induction ys with
    | nil => rfl
    | cons y ys ih => exact congrArg (y :: ·) ih
  have hfalse : ∀ {n : Nat} {ys : List β}, n = ys.length →
      zipWith (fun (m : Bool) v => if m then v else zero) (replicate n false) ys =
        replicate n zero := by
    intro n ys hn
    subst hn
    induction ys with
    | nil => rfl
    | cons y ys ih => exact congrArg (zero :: ·) ih
  unfold responseMaskRow
  conv_lhs => rw [← take_append_drop l.2 xs]
  rw [zipWith_append htake, htrue (by rw [← htake, length_replicate]),
    hfalse (by rw [length_drop]; omega)]

theorem paddedRow_eq (zero : β) (h : 1 ≤ l.1 ∧ l.1 ≤ promptWidth ∧ l.2 ≤ responseWidth)
    (hlen : outputs.length = l.1 + l.2) :
    zipWith (fun m v => if m then v else zero) (responseMaskRow responseWidth l)
      (plainSlice (maskAssign (maskRow promptWidth responseWidth l)
        (replicate (promptWidth + responseWidth) zero) outputs)
        (some (-responseWidth - 1)) (some (-1))) = responseRow zero responseWidth l outputs := by
  obtain ⟨h1, hp, hr⟩ := h
  rw [maskAssign_maskRow zero hp hr hlen]
  generalize hrow : replicate (promptWidth - l.1) zero ++
    (outputs ++ replicate (responseWidth - l.2) zero) = row
  have hwidth : row.length = promptWidth + responseWidth := by grind
  have hbound : (-(responseWidth : Int) - 1) = -((responseWidth + 1 : Nat) : Int) := by omega
  have hlast : (-1 : Int) = -((1 : Nat) : Int) := rfl
  rw [hbound, hlast, plainSlice_neg Nat.one_pos (by omega) (by omega), zipWith_responseMaskRow]
  · unfold responseRow responseOf
    congr 1
    rw [drop_take, take_take, hwidth, Nat.min_eq_left (by omega), ← hrow]
    have hdrop : promptWidth + responseWidth - (responseWidth + 1) =
        (replicate (promptWidth - l.1) zero).length + (l.1 - 1) := by grind
    rw [hdrop, drop_length_add_append, drop_append_of_le_length (by omega),
      take_append_of_le_length (by rw [length_drop]; omega)]
  · grind

section

variable (zero : β) (hbounds : ∀ l ∈ lens, 1 ≤ l.1 ∧ l.1 ≤ promptWidth ∧ l.2 ≤ responseWidth)
  (h : Outputs lens seqs)
include zero hbounds h

theorem padInput_eq :
    padInput zero seqs.flatten (nonzero (lens.map (maskRow promptWidth responseWidth)).flatten)
        lens.length (promptWidth + responseWidth) =
      zipWith (fun mask outputs =>
          maskAssign mask (replicate (promptWidth + responseWidth) zero) outputs)
        (lens.map (maskRow promptWidth responseWidth)) seqs := by
  have hwidth : ∀ mask ∈ lens.map (maskRow promptWidth responseWidth),
      mask.length = promptWidth + responseWidth := by
    intro mask hmask
    obtain ⟨l, hl, rfl⟩ := mem_map.1 hmask
    exact length_maskRow (hbounds l hl).2.1 (hbounds l hl).2.2
  have hcounts : Forall₂ (fun mask outputs => outputs.length = List.count true mask)
      (lens.map (maskRow promptWidth responseWidth)) seqs := by
    rw [forall₂_iff_get]
    refine ⟨by rw [length_map, h.length_eq], fun i hi hi' => ?_⟩
    rw [length_map] at hi
    rw [get_eq_getElem, get_eq_getElem, getElem_map, count_maskRow]
    exact h.length_at (getElem?_eq_getElem hi) (getElem?_eq_getElem hi')
  have hflat : (lens.map (maskRow promptWidth responseWidth)).flatten.length =
      (replicate (lens.length * (promptWidth + responseWidth)) zero).length := by
    rw [length_flatten, length_replicate, map_congr_left hwidth, map_const',
      length_map, sum_replicate_nat]
  have hassign := maskAssign_flatten zero hwidth hcounts
  rw [length_map] at hassign
  unfold padInput
  rw [foldl_set_nonzero hflat, hassign]
  have hlens : replicate lens.length (promptWidth + responseWidth) =
      (zipWith (fun mask outputs =>
          maskAssign mask (replicate (promptWidth + responseWidth) zero) outputs)
        (lens.map (maskRow promptWidth responseWidth)) seqs).map length := by
    symm
    rw [eq_replicate_iff]
    refine ⟨by rw [length_map, length_zipWith, length_map, h.length_eq,
      Nat.min_self], fun n hn => ?_⟩
    obtain ⟨row, hrow, rfl⟩ := mem_map.1 hn
    obtain ⟨i, hi, rfl⟩ := getElem_of_mem hrow
    rw [length_zipWith, length_map] at hi
    have hl := getElem?_eq_getElem (l := lens) (i := i) (by omega)
    have ho := getElem?_eq_getElem (l := seqs) (i := i) (by omega)
    obtain ⟨-, h1, h2⟩ := hbounds lens[i] (getElem_mem _)
    have hlen := h.length_at hl ho
    rw [getElem_zipWith, getElem_map, maskAssign_maskRow zero h1 h2 hlen]
    simp only [length_append, length_replicate]
    omega
  rw [hlens, splitLengths_flatten]

theorem paddedResponse_eq : paddedResponse zero seqs.flatten
        (nonzero (lens.map (maskRow promptWidth responseWidth)).flatten) lens.length
        (promptWidth + responseWidth) responseWidth (lens.map (responseMaskRow responseWidth)) =
      zipWith (responseRow zero responseWidth) lens seqs := by
  unfold paddedResponse
  rw [padInput_eq zero hbounds h]
  apply zipWith_eq_zipWith
  · rw [length_map]
  · rw [length_zipWith, length_map, h.length_eq, Nat.min_self]
  · intro i mask row l outputs hmask hrow hl ho
    rw [getElem?_map, hl] at hmask
    rw [getElem?_zipWith, getElem?_map, hl, ho] at hrow
    cases hmask
    cases hrow
    exact paddedRow_eq zero (hbounds l (mem_of_getElem? hl)) (h.length_at hl ho)

end

/-! ## The round trip -/

theorem responseFromNested_eq (hbounds : ∀ l ∈ lens, 1 ≤ l.1) (h : Outputs lens seqs)
    {responseMask : List (List Bool)} (hmask : responseMask.map length = lens.map Prod.snd) :
    responseFromNested seqs responseMask = .ok (zipWith responseOf lens seqs) := by
  have hlen := congrArg length hmask
  rw [length_map, length_map] at hlen
  unfold responseFromNested
  rw [if_pos (by rw [h.length_eq, hlen]), hmask, h.lengths]
  exact congrArg Except.ok (zipWith_responseSlice hbounds h fun _ part => part)

/-- Entry `j` of row `i` is the output at the position before response token `j`, or zero; the
padded path and `response_from_nested` have the same values. -/
theorem response_values (zero : β) {data : Data ι ω} {promptWidth responseWidth : Nat}
    {lens : List (Nat × Nat)} (h : LeftRight data promptWidth responseWidth lens) :
    ∃ nopad ids indices, leftRight2NoPadding data = .ok nopad ∧
      nopad.inputIds = some (.nested ids) ∧ ids.map List.length = seqLens lens ∧
      nopad.indices = some indices ∧
      ∀ tensor : ModelOutput β, tensor.values.length = ids.flatten.length →
        ∃ out, noPadding2Padding zero tensor nopad = .ok out ∧ out.length = lens.length ∧
          (∀ i l, lens[i]? = some l → ∃ row, out[i]? = some row ∧ row.length = responseWidth ∧
            ∀ j < responseWidth, row[j]? =
              if j < l.2 then entry ((seqLens lens).splitLengths tensor.values) i (l.1 + j - 1)
              else some zero) ∧
          out = paddedResponse zero tensor.values indices lens.length
            (promptWidth + responseWidth) responseWidth
            (lens.map (responseMaskRow responseWidth)) ∧
          ∀ responseMask : List (List Bool), responseMask.map List.length = lens.map Prod.snd →
            responseFromNested ((seqLens lens).splitLengths tensor.values) responseMask =
              .ok (List.zipWith (fun l row => row.take l.2) lens out) := by
  obtain ⟨nopad, rows, hnopad, hids, hnested, hprompts, hresponses, hmask, hindices⟩ :=
    leftRight2NoPadding_eq h
  obtain ⟨rows', hids', hlen, hwidth⟩ := h.inputIds
  rw [hids] at hids'
  cases hids'
  have hidLens : (List.zipWith maskSelect (lens.map (maskRow promptWidth responseWidth)) rows).map
      List.length = seqLens lens := by
    rw [map_length_maskSelect (forall₂_maskRow h.bounds hlen hwidth), map_map]
    exact map_congr_left fun l _ => count_maskRow
  refine ⟨nopad, _, _, hnopad, hnested, hidLens, hindices, fun tensor htensor => ?_⟩
  rw [length_flatten, hidLens] at htensor
  generalize hseqs : (seqLens lens).splitLengths tensor.values = seqs
  have hvalues : tensor.values = seqs.flatten := by
    rw [← hseqs, flatten_splitLengths _ _ htensor.le]
  have hout : Outputs lens seqs := by
    constructor
    rw [← hseqs, map_splitLengths_length _ _ htensor.ge]
  have hpos : ∀ l ∈ lens, 1 ≤ l.1 := fun l hl => (h.bounds l hl).1
  refine ⟨_, noPadding2Padding_eq zero (sequenceLens_eq h hprompts hresponses hmask) h.nonempty
    h.bounds hout hvalues, ?_, ?_, ?_, ?_⟩
  · rw [length_zipWith, hout.length_eq, Nat.min_self]
  · intro i l hl
    have hi : i < seqs.length := by
      rw [hout.length_eq]
      exact (List.getElem?_eq_some_iff.1 hl).1
    have ho := getElem?_eq_getElem hi
    obtain ⟨h1, -, h2⟩ := h.bounds l (mem_of_getElem? hl)
    have hlenRow := hout.length_at hl ho
    refine ⟨responseRow zero responseWidth l seqs[i], ?_, length_responseRow h1 h2 hlenRow,
      fun j hj => ?_⟩
    · rw [getElem?_zipWith, hl, ho]
    · unfold responseRow entry
      rw [ho, Option.bind_some]
      by_cases hjl : j < l.2
      · rw [if_pos hjl, getElem?_append_left (by rw [length_responseOf h1 hlenRow]; exact hjl),
          getElem?_responseOf h1 hjl]
      · rw [if_neg hjl, getElem?_append_right
          (by rw [length_responseOf h1 hlenRow]; omega), length_responseOf h1 hlenRow,
          getElem?_replicate, if_pos (by omega)]
  · rw [hvalues]
    exact (paddedResponse_eq zero h.bounds hout).symm
  · intro responseMask hresponseMask
    rw [responseFromNested_eq hpos hout hresponseMask]
    congr 1
    apply ext_getElem
    · simp
    · intro i hi hi'
      rw [length_zipWith] at hi
      have hl := getElem?_eq_getElem (l := lens) (i := i) (by omega)
      have ho := getElem?_eq_getElem (l := seqs) (i := i) (by omega)
      have hlenRow := hout.length_at hl ho
      rw [getElem_zipWith, getElem_zipWith, getElem_zipWith]
      unfold responseRow
      rw [take_left' (length_responseOf (hpos _ (getElem_mem _)) hlenRow)]

/-- A prompt of two tokens with a response of one, and a prompt of one without a response. -/
def twoSequences : Data Nat Nat where
  prompts := some (.padded 2 [[5, 6], [0, 7]])
  responses := some (.padded 2 [[8, 0], [0, 0]])
  inputIds := some (.padded 4 [[5, 6, 8, 0], [0, 7, 0, 0]])
  attentionMask := some (.padded 4 [[true, true, true, false], [false, true, false, false]])
  responseMask := some (.padded 2 [[true, false], [false, false]])
  lossMask := none
  positionIds := some [.flat [0, 1, 2, 3], .flat [0, 0, 1, 2]]
  routedExperts := none
  teacherLogprobs := none
  teacherIds := none
  maxSeqLen := none
  maxResponseLen := none
  indices := none

theorem response_values_twoSequences : ∃ nopad out, leftRight2NoPadding twoSequences = .ok nopad ∧
      noPadding2Padding 0 (.packed [10, 11, 12, 20]) nopad = .ok out ∧ out.length = 2 := by
  obtain ⟨nopad, ids, indices, hnopad, -, hids, -, h⟩ :=
    response_values (β := Nat) 0 (show LeftRight twoSequences 2 2 [(2, 1), (1, 0)] from
      ⟨by decide, by decide, ⟨_, rfl⟩, ⟨_, rfl⟩, ⟨_, rfl, rfl, by decide⟩, rfl, ⟨_, rfl⟩, ⟨_, rfl⟩⟩)
  obtain ⟨out, hout, hlen, -⟩ := h (.packed [10, 11, 12, 20]) (by
    rw [length_flatten, hids]
    rfl)
  exact ⟨nopad, out, hnopad, hout, hlen⟩

end Verl.Padding
