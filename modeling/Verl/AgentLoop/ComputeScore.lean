import Verl.AgentLoop.ToolAgentLoop
import Verl.Protocol.RoundTrips

/-!
# Scoring a session (`_compute_score`, `run_single`)

The outputs of a session go to the reward manager as one batch.  Their responses are padded on the
right to the longest response, their masks to the longest prompt and response together:

    responses         r r r 0          attention_mask     1 1 1 1 1 1 0 0 0
                      r 0 0 0                             1 1 1 1 1 1 1 1 1

`run_single` takes the last row, and as many tokens of its response as the mask has ones in its
last columns, one column for each of the row's response.  Those are the columns of the response
only if the last output is as long as the longest, its response padded.
-/

namespace Verl.AgentLoop

open List Dict

variable {F ι ρ ν : Type}

/-! ## Algorithm -/

/-- `torch.nn.utils.rnn.pad_sequence(sequences, batch_first=True, padding_value=...)`. -/
def padSequence (sequences : List (List Nat)) (paddingValue : Nat) : List (List Nat) :=
  let width := (sequences.map List.length).foldr max 0
  sequences.map fun s => s ++ List.replicate (width - s.length) paddingValue

@[simp] theorem length_padSequence (sequences : List (List Nat)) (paddingValue : Nat) :
    (padSequence sequences paddingValue).length = sequences.length := length_map _

/-- The columns of `_compute_score`, but for the position ids. -/
def scoreColumns (outputs : List (AgentLoopOutput F ι ρ)) : List (String × List (List Nat)) :=
  let allInputIds := outputs.map fun output => output.promptIds ++ output.responseIds
  [("prompts", padSequence (outputs.map AgentLoopOutput.promptIds) 0),
    ("responses", padSequence (outputs.map AgentLoopOutput.responseIds) 0),
    ("attention_mask", padSequence (allInputIds.map fun ids => List.replicate ids.length 1) 0),
    ("input_ids", padSequence allInputIds 0)]

variable (outputs : List (AgentLoopOutput F ι ρ)) {ns : List Nat}

theorem nodup_scoreColumns :
    ((scoreColumns outputs).map Prod.fst).Nodup := by
  show [ "prompts", "responses", "attention_mask", "input_ids"].Nodup
  decide

/-- The batch of the outputs. -/
def scoreBatch (outputs : List (AgentLoopOutput F ι ρ)) : TensorDict (List Nat) where
  batchSize := outputs.length
  columns := Dict.ofItems (scoreColumns outputs)
  rows_eq := by
    rw [Dict.items_ofItems (nodup_scoreColumns outputs)]
    simp [scoreColumns]

/-- The non-tensor columns of the batch: one entry for each output. -/
def scoreNonTensor (kwargs : Dict PyVal) (outputs : List (AgentLoopOutput F ι ρ)) :
    Dict (List PyVal) :=
  ((((kwargs.mapVals fun _ v => List.replicate outputs.length v).insert "__num_turns__"
      (outputs.map fun o => .int o.numTurns)).insert "tool_extra_fields"
      (outputs.map fun o => .dict o.extraFields.items)).insert "prompt_len"
      (outputs.map fun o => .int o.promptIds.length)).insert "response_len"
      (outputs.map fun o => .int o.responseIds.length)

/-- The batch `_compute_score` sends to a reward loop worker. -/
def scoreData (kwargs : Dict PyVal) (outputs : List (AgentLoopOutput F ι ρ)) :
    Except PyErr (DataProto (List Nat) PyVal) :=
  DataProto.new (some (scoreBatch outputs)) (scoreNonTensor kwargs outputs) Dict.empty

/-- `data[0].batch[key]`. -/
def itemTensor (data : DataProto (List Nat) ν) (key : String) : Except PyErr (List Nat) :=
  match data.batch with
  | none => .error (.typeError "'NoneType' object is not subscriptable")
  | some td =>
    match td.columns.get? key with
    | none => .error (.keyError key)
    | some rows => pyGetItem rows 0

/-- The tokens `run_single` decodes; the reward managers share these lines. -/
def validResponseIds (data : DataProto (List Nat) ν) : Except PyErr (List Nat) := do
  let data ← data.slice (some (-1)) none none
  let responseIds ← itemTensor data "responses"
  let responseLength := responseIds.length
  let attentionMask ← itemTensor data "attention_mask"
  let validResponseLength := (plainSlice attentionMask (some (-(responseLength : Int))) none).sum
  return plainSlice responseIds none (some (validResponseLength : Int))

/-- The text that is scored. -/
def solutionStr (decode : List Nat → String) (kwargs : Dict PyVal)
    (outputs : List (AgentLoopOutput F ι ρ)) : Except PyErr String := do
  let data ← scoreData kwargs outputs
  let ids ← validResponseIds data
  return decode ids

/-! ## Property -/

/-- What is decoded is the response of the last output. -/
def ScoresLastResponse (kwargs : Dict PyVal) (outputs : List (AgentLoopOutput F ι ρ))
    (last : AgentLoopOutput F ι ρ) : Prop :=
  (scoreData kwargs outputs >>= validResponseIds) = .ok last.responseIds

/-- The width of the responses. -/
def longestResponse (outputs : List (AgentLoopOutput F ι ρ)) : Nat :=
  (outputs.map fun output => output.responseIds.length).foldr max 0

/-- The width of the masks. -/
def longestSequence (outputs : List (AgentLoopOutput F ι ρ)) : Nat :=
  (outputs.map fun output => output.promptIds.length + output.responseIds.length).foldr max 0

/-- The response of `last` begins where the last columns of the mask do. -/
def Aligned (outputs : List (AgentLoopOutput F ι ρ)) (last : AgentLoopOutput F ι ρ) : Prop :=
  last.promptIds.length + longestResponse outputs = longestSequence outputs ∨
    last.responseIds = [] ∧
      last.promptIds.length + longestResponse outputs ≤ longestSequence outputs

/-! ## Lemmas: padded rows -/

theorem le_foldr_max {n : Nat} (h : n ∈ ns) : n ≤ ns.foldr max 0 := by
  induction ns with
  | nil => cases h
  | cons m ns ih =>
    rcases mem_cons.1 h with rfl | h
    · exact Nat.le_max_left _ _
    · exact (ih h).trans (Nat.le_max_right _ _)

theorem foldr_max_le {b : Nat} (h : ∀ n ∈ ns, n ≤ b) : ns.foldr max 0 ≤ b := by
  induction ns with
  | nil => exact Nat.zero_le b
  | cons m ns ih =>
    exact Nat.max_le.2 ⟨h m mem_cons_self, ih fun n hn => h n (mem_cons_of_mem _ hn)⟩

theorem longestResponse_le :
    longestResponse outputs ≤ longestSequence outputs := by
  refine foldr_max_le fun n hn => ?_
  obtain ⟨output, houtput, rfl⟩ := mem_map.1 hn
  exact (Nat.le_add_left _ _).trans (le_foldr_max (mem_map.2 ⟨output, houtput, rfl⟩))

theorem sum_drop_mask (a b k : Nat) : ((replicate a 1 ++ replicate b 0).drop k).sum = a - k := by
  rw [drop_append]
  simp

theorem take_padded_eq_iff {ids : List Nat} {k v : Nat} (h : v ≤ ids.length + k) :
    (ids ++ replicate k 0).take v = ids ↔ v = ids.length := by
  constructor
  · intro heq
    have hlen := congrArg length heq
    rw [length_take, length_append, length_replicate, Nat.min_eq_left h] at hlen
    exact hlen
  · rintro rfl
    exact take_left

/-! ## Lemmas: the last row -/

section LastRow

variable {outputs : List (AgentLoopOutput F ι ρ)} {last : AgentLoopOutput F ι ρ}

theorem scoreData_eq (kwargs : Dict PyVal) (outputs : List (AgentLoopOutput F ι ρ)) :
    ∃ data, scoreData kwargs outputs = .ok data ∧ data.batch = some (scoreBatch outputs) ∧
      data.WellFormed := by
  have hcols : ∀ c ∈ (scoreNonTensor kwargs outputs).items, c.2.length = outputs.length := by
    intro c hc
    rcases mem_items_insert hc with hc | rfl
    · rcases mem_items_insert hc with hc | rfl
      · rcases mem_items_insert hc with hc | rfl
        · rcases mem_items_insert hc with hc | rfl
          · obtain ⟨p, -, rfl⟩ := mem_map.1 hc
            exact length_replicate
          · exact length_map _
        · exact length_map _
      · exact length_map _
    · exact length_map _
  refine ⟨⟨some (scoreBatch outputs), scoreNonTensor kwargs outputs, Dict.empty⟩, ?_, rfl, hcols⟩
  unfold scoreData DataProto.new
  dsimp only
  have hcheck : DataProto.checkConsistency
      ⟨some (scoreBatch outputs), scoreNonTensor kwargs outputs, Dict.empty⟩ = .ok () := by
    refine forM_eq_ok _ _ fun c hc => ?_
    rw [hcols c hc]
    exact pyAssert_eq_ok.2 (beq_self_eq_true _)
  rw [hcheck]
  rfl

theorem sliceIdxs_last {n : Nat} (hn : 1 ≤ n) : sliceIdxs n (some (-1)) none 1 = [n - 1] := by
  have hstart : clipBound n 1 (-1) = (n - 1 : Nat) := clipBound_neg_nat (a := 1) Nat.one_pos hn
  rw [sliceIdxs_one]
  unfold sliceStart sliceStop
  dsimp only
  rw [hstart, if_neg (by decide), Int.toNat_natCast, Int.toNat_natCast,
    show n - (n - 1) = 1 by omega]
  rfl

theorem itemTensor_last {data : DataProto (List Nat) ν} {td : TensorDict (List Nat)}
    (hb : data.batch = some td) {key : String} {rows : List (List Nat)}
    (hrows : td.columns.get? key = some rows) {row : List Nat} (hrow : rows.getLast? = some row) :
    itemTensor (data.gather [data.len - 1]) key = .ok row := by
  have hlen := DataProto.length_column hb hrows
  unfold itemTensor DataProto.gather
  rw [hb]
  dsimp only [Option.map_some]
  rw [TensorDict.columns_gather, get?_mapVals, hrows]
  dsimp only [Option.map_some]
  unfold gatherRows
  rw [getLast?_eq_getElem?, hlen] at hrow
  rw [filterMap_cons_some hrow]
  rfl

theorem getLast?_padSequence {sequences : List (List Nat)} {s : List Nat}
    (h : sequences.getLast? = some s) (paddingValue : Nat) :
    (padSequence sequences paddingValue).getLast?
      = some (s ++ replicate ((sequences.map length).foldr max 0 - s.length) paddingValue) := by
  unfold padSequence
  rw [getLast?_map, h]
  rfl

/-- What is decoded: the padded response of the last output, cut where the ones of its mask end in
the columns counted from the back. -/
theorem validResponseIds_eq (kwargs : Dict PyVal) (hlast : outputs.getLast? = some last) :
    (scoreData kwargs outputs >>= validResponseIds)
      = .ok ((last.responseIds
          ++ replicate (longestResponse outputs - last.responseIds.length) 0).take
        (if longestResponse outputs = 0 then last.promptIds.length + last.responseIds.length
          else last.promptIds.length + last.responseIds.length
            - (longestSequence outputs - longestResponse outputs))) := by
  obtain ⟨data, hdata, hb, hwf⟩ := scoreData_eq kwargs outputs
  have hmem : last ∈ outputs := mem_of_getLast? hlast
  have hlen : data.len = outputs.length := by
    rw [DataProto.len_of_batch hb]
    rfl
  have hn : 1 ≤ data.len := by grind
  have hresponse : last.responseIds.length ≤ longestResponse outputs :=
    le_foldr_max (mem_map.2 ⟨last, hmem, rfl⟩)
  have hsequence : last.promptIds.length + last.responseIds.length ≤ longestSequence outputs :=
    le_foldr_max (mem_map.2 ⟨last, hmem, rfl⟩)
  have hresponses : itemTensor (data.gather [data.len - 1]) "responses"
      = .ok (last.responseIds
        ++ replicate (longestResponse outputs - last.responseIds.length) 0) := by
    refine itemTensor_last hb ((get?_ofItems_eq_some (nodup_scoreColumns outputs)).2
      (mem_cons_of_mem _ mem_cons_self)) ?_
    rw [getLast?_padSequence (s := last.responseIds) (by rw [getLast?_map, hlast]; rfl),
      map_map]
    rfl
  have hmask : itemTensor (data.gather [data.len - 1]) "attention_mask"
      = .ok (replicate (last.promptIds.length + last.responseIds.length) 1
        ++ replicate (longestSequence outputs
          - (last.promptIds.length + last.responseIds.length)) 0) := by
    refine itemTensor_last hb ((get?_ofItems_eq_some (nodup_scoreColumns outputs)).2
      (mem_cons_of_mem _ (mem_cons_of_mem _ mem_cons_self))) ?_
    rw [getLast?_padSequence
      (s := replicate (last.promptIds.length + last.responseIds.length) 1)
      (by rw [getLast?_map, getLast?_map, hlast]; simp), map_map, map_map,
      length_replicate]
    unfold longestSequence
    simp only [Function.comp_def, length_replicate, length_append]
  rw [hdata, ok_bind]
  unfold validResponseIds
  rw [DataProto.slice_eq hwf, ok_bind, sliceIdxs_last hn, hresponses, ok_bind, hmask,
    ok_bind]
  dsimp only
  rw [length_append, length_replicate, Nat.add_sub_cancel' hresponse, plainSlice_upto]
  by_cases hzero : longestResponse outputs = 0
  · rw [if_pos hzero, hzero, plainSlice_from_zero, sum_append, sum_replicate_nat,
      sum_replicate_nat, Nat.mul_one, Nat.mul_zero, Nat.add_zero]
    rfl
  · have hwidth : (replicate (last.promptIds.length + last.responseIds.length) 1
        ++ replicate (longestSequence outputs
          - (last.promptIds.length + last.responseIds.length)) 0).length
        = longestSequence outputs := by grind
    rw [if_neg hzero, plainSlice_from_neg (Nat.pos_of_ne_zero hzero)
      (by rw [hwidth]; exact longestResponse_le outputs), hwidth, sum_drop_mask]
    rfl

end LastRow

/-! ## Top theorem -/

/-- The reward manager scores the response of the last output exactly where the last columns of its
mask are those of its response. -/
theorem scoresLastResponse_iff_aligned (kwargs : Dict PyVal)
    (outputs : List (AgentLoopOutput F ι ρ)) (last : AgentLoopOutput F ι ρ)
    (hlast : outputs.getLast? = some last) :
    ScoresLastResponse kwargs outputs last ↔ Aligned outputs last := by
  have hmem : last ∈ outputs := mem_of_getLast? hlast
  have hresponse : last.responseIds.length ≤ longestResponse outputs :=
    le_foldr_max (mem_map.2 ⟨last, hmem, rfl⟩)
  have hsequence : last.promptIds.length + last.responseIds.length ≤ longestSequence outputs :=
    le_foldr_max (mem_map.2 ⟨last, hmem, rfl⟩)
  have hwidths := longestResponse_le outputs
  unfold ScoresLastResponse Aligned
  rw [validResponseIds_eq kwargs hlast, Except.ok.injEq, ← length_eq_zero_iff]
  by_cases hzero : longestResponse outputs = 0
  · rw [take_of_length_le (by
      rw [length_append, length_replicate]
      omega)]
    rw [hzero] at ⊢
    have hnil : last.responseIds = [] := length_eq_zero_iff.1 (by omega)
    rw [hnil]
    simp only [length_nil, Nat.zero_sub, replicate_zero, append_nil, true_and,
      true_iff]
    omega
  · rw [if_neg hzero, take_padded_eq_iff (by omega)]
    omega

/-- An output of these tokens. -/
def outputOf (promptIds responseIds : List Nat) : AgentLoopOutput Unit Unit Unit where
  promptIds := promptIds
  responseIds := responseIds
  responseMask := responseIds.map fun _ => 1
  responseLogprobs := none
  images := none
  numTurns := 2
  routedExperts := none
  numPreempted := none
  toolRewards := []
  extraFields := Dict.empty

/-- The longest prompt and the longest response are those of the last output. -/
theorem scoresLastResponse_longestLast :
    ScoresLastResponse Dict.empty [outputOf [7, 7] [5], outputOf [7, 7, 7] [3, 4]]
      (outputOf [7, 7, 7] [3, 4]) :=
  (scoresLastResponse_iff_aligned Dict.empty _ _ rfl).2 (.inl rfl)

/-- A first output of the same length with a longer response: two tokens of padding are scored along
with the response. -/
theorem not_scoresLastResponse_longerFirst :
    (scoreData Dict.empty [outputOf [7, 7] [1, 2, 3], outputOf [7, 7, 7, 7] [5]]
      >>= validResponseIds) = .ok [5, 0, 0] ∧
    ¬ ScoresLastResponse Dict.empty [outputOf [7, 7] [1, 2, 3], outputOf [7, 7, 7, 7] [5]]
      (outputOf [7, 7, 7, 7] [5]) := by
  have hids : (scoreData Dict.empty [outputOf [7, 7] [1, 2, 3], outputOf [7, 7, 7, 7] [5]]
      >>= validResponseIds) = .ok [5, 0, 0] := by
    rw [validResponseIds_eq Dict.empty rfl]
    rfl
  refine ⟨hids, fun h => ?_⟩
  unfold ScoresLastResponse at h
  rw [hids] at h
  exact absurd (Except.ok.inj h) (by decide)

end Verl.AgentLoop
