import Verl.Lib.Grouping
import Verl.Protocol.Chunks

/-!
# Rate-limited rewards (`verl/experimental/reward_loop`, `verl/experimental/agent_loop`)

`run_single` scores one sample.  A scoring that times out or raises gives the score 0 and a
dictionary of its own keys.  The results of a batch become one row of scores for each sample and
one column for each key of the dictionaries, at three places:

    RateLimitedRewardManager.__call__     every key has the list of the values that were returned
    RewardLoopManager.compute_rm_score    the keys of the first sample, read in every dictionary
    AgentLoopWorker._postprocess          the same, and the extra fields are written over them

The limiters and the semaphore only delay a call.
-/

namespace Verl

open List Function Dict

namespace RewardLoop

/-! ## Algorithm -/

/-- A row of a tensor; NaN is `none`. -/
abbrev TensorRow := List (Option ℚ)

/-- What `asyncio.wait_for(self._compute_reward(...), timeout=self.timeout)` does for a sample. -/
inductive Scoring
  | timeout
  | raises (e : String)
  | returns (result : PyVal)

structure RewardResult where
  rewardScore : PyVal
  rewardExtraInfo : Dict PyVal

/-- The result for any other exception than a timeout. -/
def failedResult (e : String) : RewardResult where
  rewardScore := .float 0
  rewardExtraInfo := Dict.ofItems [("error", .str e), ("acc", .float 0)]

/-- `RateLimitedRewardManager.run_single`. -/
def runSingle : Scoring → RewardResult
  | .timeout =>
    { rewardScore := .float 0
      rewardExtraInfo := Dict.ofItems [("timeout", .bool true), ("acc", .float 0)] }
  | .raises e => failedResult e
  | .returns (.dict items) =>
    match (Dict.ofItems items).get? "score" with
    | some score => { rewardScore := score, rewardExtraInfo := Dict.ofItems items }
    -- `result["score"]` stands inside the `try`
    | none => failedResult "'score'"
  | .returns result => { rewardScore := result, rewardExtraInfo := Dict.ofItems [("acc", result)] }

/-- The rows a batch is scored by: `prompts.size(1)`, `responses.size(1)` and the mask of a row. -/
structure Rows where
  promptLength : Nat
  responseLength : Nat
  attentionMask : Row TensorRow PyVal → List Bool
  length_mask : ∀ row, (attentionMask row).length = promptLength + responseLength

/-- The number of tokens of the response. -/
def Rows.validResponseLength (rows : Rows) (row : Row TensorRow PyVal) : Nat :=
  ((rows.attentionMask row).drop rows.promptLength).count true

/-- A score as an entry of a float tensor; a numpy float or a tensor of one element is a `float`
here. -/
def scoreEntry : PyVal → Except PyErr (Option ℚ)
  | .nan _ => .ok none
  | v =>
    match v.num? with
    | some q => .ok (some q)
    | none => .error (.typeError "a score is not a number")

/-- A row of `rm_scores`, which is zero but at `valid_response_length - 1`. -/
def scoreRow (responseLength validResponseLength : Nat) (entry : Option ℚ) :
    Except PyErr TensorRow :=
  (pyIndex responseLength (validResponseLength - 1)).map fun k =>
    (List.replicate responseLength (some 0)).set k entry

/-- One entry goes into every row. -/
def broadcast (n : Nat) : List (Option ℚ) → List (Option ℚ)
  | [entry] => List.replicate n entry
  | entries => entries

/-- `rm_scores[torch.arange(n), valid_response_length - 1] = scores`. -/
def scoreRows (responseLength : Nat) (validResponseLengths : List Nat) (scores : List PyVal) :
    Except PyErr (List TensorRow) := do
  let entries ← scores.mapM scoreEntry
  let entries := broadcast validResponseLengths.length entries
  if entries.length = validResponseLengths.length then
    (validResponseLengths.zip entries).mapM fun p => scoreRow responseLength p.1 p.2
  else throw .indexError

/-- `compute_score_batch`, or the tasks of `process_batch`: the scoring of sample `j` of a chunk
that starts at sample `start`. -/
def computeScoreBatch (scoring : Nat → Row TensorRow PyVal → Scoring) (start : Nat)
    (data : DataProto TensorRow PyVal) : List RewardResult :=
  data.rows.mapIdx fun j row => runSingle (scoring (start + j) row)

structure CallResult where
  rewardTensor : List TensorRow
  rewardExtraInfo : Option (List (String × List PyVal))

/-- `data.meta_info.get("reward_extra_keys", [])`. -/
def rewardExtraKeys (metaInfo : Dict PyVal) : Except PyErr (List String) :=
  match metaInfo.get? "reward_extra_keys" with
  | none => .ok []
  | some (.list names) => names.mapM fun key =>
    match key with
    | .str key => .ok key
    | _ => .error (.typeError "not a key")
  | some _ => .error (.typeError "not iterable")

/-- `RateLimitedRewardManager.__call__`. -/
def call (rows : Rows) (scoring : Nat → Row TensorRow PyVal → Scoring) (returnDict : Bool)
    (data : DataProto TensorRow PyVal) : Except PyErr CallResult := do
  match data.batch.bind (·.columns.get? "rm_scores") with
  | some rmScores =>
    if returnDict then
      let keys ← rewardExtraKeys data.metaInfo
      let info ← keys.mapM fun key =>
        match data.nonTensorBatch.get? key with
        | some column => .ok (key, column)
        | none => .error (.keyError key)
      return { rewardTensor := rmScores, rewardExtraInfo := some info }
    else return { rewardTensor := rmScores, rewardExtraInfo := none }
  | none =>
    let results := computeScoreBatch scoring 0 data
    let rewardTensor ← (data.rows.zip results).mapM fun p => do
      let responseMask := plainSlice (rows.attentionMask p.1) (some (-rows.responseLength)) none
      let entry ← scoreEntry p.2.rewardScore
      scoreRow rows.responseLength (responseMask.count true) entry
    let info := results.foldl (fun info result =>
      result.rewardExtraInfo.items.foldl (fun info p => appendAt info p.1 p.2) info) []
    return { rewardTensor := rewardTensor, rewardExtraInfo := if returnDict then some info else none }

/-- `np.array` of a list: it raises for lists of different shapes, and may convert the values to one
type. -/
structure NumPy where
  array : List PyVal → Except PyErr (List PyVal)
  length_array : ∀ {values column}, array values = .ok column → column.length = values.length

/-- `np.array([info[key] for info in reward_extra_infos])`. -/
def extraColumn (np : NumPy) (infos : List (Dict PyVal)) (key : String) :
    Except PyErr (List PyVal) := do
  let values ← infos.mapM fun info =>
    match info.get? key with
    | some value => .ok value
    | none => .error (.keyError key)
  np.array values

/-- The loop over `reward_extra_keys`. -/
def extraColumns (np : NumPy) (infos : List (Dict PyVal)) (keys : List String)
    (nonTensorBatch : Dict (List PyVal)) : Except PyErr (Dict (List PyVal)) :=
  keys.foldlM (fun columns key => do
    let column ← extraColumn np infos key
    return columns.insert key column) nonTensorBatch

/-- `reward_extra_infos[0].keys()`. -/
def firstKeys : List (Dict PyVal) → Except PyErr (List String)
  | [] => .error .indexError
  | first :: _ => .ok first.keys

/-- `RewardManagerBase.assemble_rm_scores`. -/
def assembleRmScores (rows : Rows) (data : DataProto TensorRow PyVal) (scores : List PyVal) :
    Except PyErr (List TensorRow) :=
  scoreRows rows.responseLength
    (data.rows.map rows.validResponseLength) scores

/-- The workers on their chunks, from sample `start` on. -/
def computeScoreBatches (scoring : Nat → Row TensorRow PyVal → Scoring) :
    Nat → List (DataProto TensorRow PyVal) → List (List RewardResult)
  | _, [] => []
  | start, chunk :: chunks =>
    computeScoreBatch scoring start chunk :: computeScoreBatches scoring (start + chunk.len) chunks

/-- `RewardLoopManager.compute_rm_score`; `chunk` returns a chunk for each worker. -/
def computeRmScore (np : NumPy) (rows : Rows) (scoring : Nat → Row TensorRow PyVal → Scoring)
    (autoPadding : Bool) (workers : Nat) (data : DataProto TensorRow PyVal) :
    Except PyErr (DataProto TensorRow PyVal) := do
  let chunks ← data.chunk autoPadding workers
  let outputsFlat := (computeScoreBatches scoring 0 chunks).flatten
  let rmScores ← assembleRmScores rows data (outputsFlat.map (·.rewardScore))
  let batch ← TensorDict.new (Dict.ofItems [("rm_scores", rmScores)]) data.len
  let rewardExtraInfos := outputsFlat.map (·.rewardExtraInfo)
  let keys ← firstKeys rewardExtraInfos
  let nonTensorBatch ← extraColumns np rewardExtraInfos keys Dict.empty
  DataProto.new (some batch) nonTensorBatch
    (Dict.ofItems [("reward_extra_keys", .list (keys.map .str))])

/-- `_InternalAgentLoopOutput`: one sample, its tensors padded. -/
structure InternalAgentLoopOutput where
  promptIds : TensorRow
  responseIds : TensorRow
  inputIds : TensorRow
  positionIds : TensorRow
  responseMask : TensorRow
  attentionMask : List Bool
  responseLogprobs : Option TensorRow
  routedExperts : Option TensorRow
  teacherLogprobs : Option TensorRow
  teacherIds : Option TensorRow
  multiModalInputs : PyVal
  rewardScore : PyVal
  numTurns : Int
  metrics : PyVal
  extraFields : Dict PyVal
  length_mask : attentionMask.length = promptIds.length + responseMask.length

/-- `_compute_score` of a trajectory of one output. -/
def computeScore (enableAsyncReward : Bool) (scoring : Scoring) (output : InternalAgentLoopOutput) :
    InternalAgentLoopOutput :=
  match output.rewardScore, enableAsyncReward with
  | .none, true =>
    let result := runSingle scoring
    { output with
      rewardScore := result.rewardScore
      extraFields := output.extraFields.insert "reward_extra_info"
        (.dict result.rewardExtraInfo.items) }
  | _, _ => output

/-- `torch.cat` of rows. -/
def catRows : List TensorRow → Except PyErr (List TensorRow)
  | [] => .error (.runtimeError "expected a non-empty list of Tensors")
  | row :: rows =>
    if rows.all (·.length == row.length) then .ok (row :: rows)
    else .error (.runtimeError "Sizes of tensors must match except in dimension 0")

/-- An output that is taken if the first input has it. -/
def optionalOutput (inputs : List InternalAgentLoopOutput) (key : String)
    (field : InternalAgentLoopOutput → Option TensorRow) :
    Except PyErr (List (String × List TensorRow)) := do
  match inputs.head?.bind field with
  | none => return []
  | some _ =>
    let rows ← inputs.mapM fun input =>
      match field input with
      | some row => .ok row
      | none => .error (.typeError "expected Tensor as an element")
    let column ← catRows rows
    return [(key, column)]

/-- The outputs of the teacher, if the first input has both of them. -/
def teacherOutputs (inputs : List InternalAgentLoopOutput) :
    Except PyErr (List (String × List TensorRow)) :=
  match inputs.head?.bind (·.teacherLogprobs), inputs.head?.bind (·.teacherIds) with
  | some _, some _ => do
    let logprobs ← optionalOutput inputs "teacher_logprobs" (·.teacherLogprobs)
    let ids ← optionalOutput inputs "teacher_ids" (·.teacherIds)
    return logprobs ++ ids
  | _, _ => .ok []

/-- The batch of `_postprocess` before the scores. -/
def stackInputs (inputs : List InternalAgentLoopOutput) : Except PyErr (TensorDict TensorRow) := do
  let promptIds ← catRows (inputs.map (·.promptIds))
  let responseIds ← catRows (inputs.map (·.responseIds))
  let responseMask ← catRows (inputs.map (·.responseMask))
  let attentionMask ← catRows (inputs.map fun input =>
    input.attentionMask.map fun b => some (if b then 1 else 0))
  let inputIds ← catRows (inputs.map (·.inputIds))
  let positionIds ← catRows (inputs.map (·.positionIds))
  let rolloutLogProbs ← optionalOutput inputs "rollout_log_probs" (·.responseLogprobs)
  let routedExperts ← optionalOutput inputs "routed_experts" (·.routedExperts)
  let teacher ← teacherOutputs inputs
  TensorDict.new (Dict.ofItems ([("prompts", promptIds), ("responses", responseIds),
    ("response_mask", responseMask), ("input_ids", inputIds), ("attention_mask", attentionMask),
    ("position_ids", positionIds)] ++ rolloutLogProbs ++ routedExperts ++ teacher))
    inputs.length

def isNone : PyVal → Bool
  | .none => true
  | _ => false

def defaultExtraKeys : List String :=
  ["turn_scores", "tool_rewards", "min_global_steps", "max_global_steps", "extras"]

/-- `all_keys`, a set. -/
def allKeys (inputs : List InternalAgentLoopOutput) : List String :=
  (inputs.flatMap (·.extraFields.keys) ++ defaultExtraKeys).dedup

/-- `extra_fields[key]`. -/
def extraField (inputs : List InternalAgentLoopOutput) (key : String) : List PyVal :=
  inputs.map fun input => (input.extraFields.get? key).getD .none

/-- `prompt_ids.size(1)` and `response_mask.size(1)` of the stacked tensors. -/
def stackedPromptLength (inputs : List InternalAgentLoopOutput) : Nat :=
  ((inputs.head?.map (·.promptIds)).getD []).length

def stackedResponseLength (inputs : List InternalAgentLoopOutput) : Nat :=
  ((inputs.head?.map (·.responseMask)).getD []).length

/-- `attention_mask[:, prompt_length:].sum(dim=1)`. -/
def validResponseLengths (inputs : List InternalAgentLoopOutput) : List Nat :=
  inputs.map fun input => (input.attentionMask.drop (stackedPromptLength inputs)).count true

/-- What `_postprocess` adds after the columns of the dictionaries. -/
def addExtraFields (inputs : List InternalAgentLoopOutput)
    (nonTensorBatch : Dict (List PyVal)) : Dict (List PyVal) :=
  let multiModalInputs := inputs.map (·.multiModalInputs)
  let nonTensorBatch :=
    if multiModalInputs.any (!isNone ·) then
      nonTensorBatch.insert "multi_modal_inputs" multiModalInputs
    else nonTensorBatch
  ((allKeys inputs).map fun key => (key, extraField inputs key)).foldl
    (fun d p => d.insert p.1 p.2) nonTensorBatch

/-- Whether every sample has a score. -/
def allScored (inputs : List InternalAgentLoopOutput) : Bool :=
  inputs.all (!isNone ·.rewardScore)

/-- The columns of the batch with `rm_scores`. -/
def addRmScores (inputs : List InternalAgentLoopOutput) (columns : Dict (List TensorRow)) :
    Except PyErr (Dict (List TensorRow)) :=
  if allScored inputs then
    (scoreRows (stackedResponseLength inputs) (validResponseLengths inputs)
      (inputs.map (·.rewardScore))).map fun rmScores => columns.insert "rm_scores" rmScores
  else .ok columns

/-- `input.extra_fields.get("reward_extra_info", {})`. -/
def rewardExtraInfo (input : InternalAgentLoopOutput) : Except PyErr (Dict PyVal) :=
  match input.extraFields.get? "reward_extra_info" with
  | none => .ok Dict.empty
  | some info => DataProto.asDict "keys" info

/-- `AgentLoopWorker._postprocess`. -/
def postprocess (np : NumPy) (enableAsyncReward : Bool) (inputs : List InternalAgentLoopOutput)
    (inputNonTensorBatch : Dict (List PyVal)) : Except PyErr (DataProto TensorRow PyVal) := do
  let batch ← stackInputs inputs
  let columns ← addRmScores inputs batch.columns
  let batch ← TensorDict.new columns inputs.length
  let nonTensorBatch : Dict (List PyVal) :=
    Dict.ofItems [("__num_turns__", inputs.map fun input => .int input.numTurns)]
  let nonTensorBatch :=
    if enableAsyncReward then nonTensorBatch
    else inputNonTensorBatch.items.foldl (fun d p => d.insert p.1 p.2) nonTensorBatch
  let rewardExtraInfos ← inputs.mapM rewardExtraInfo
  let keys ← firstKeys rewardExtraInfos
  let nonTensorBatch ← extraColumns np rewardExtraInfos keys nonTensorBatch
  let nonTensorBatch := addExtraFields inputs nonTensorBatch
  let metrics : PyVal := .list (inputs.map (·.metrics))
  let metaInfo := Dict.ofItems (("metrics", metrics) ::
    if allScored inputs then [("reward_extra_keys", .list (keys.map .str))] else [])
  DataProto.new (some batch) nonTensorBatch metaInfo

/-! ## Specification -/

/-- The score and the dictionary of a scoring that did not fail. -/
def Scoring.returned : Scoring → Option (PyVal × Dict PyVal)
  | .timeout => none
  | .raises _ => none
  | .returns (.dict items) =>
    ((Dict.ofItems items).get? "score").map fun score => (score, Dict.ofItems items)
  | .returns result => some (result, Dict.ofItems [("acc", result)])

/-- The dictionary of a scoring, with the keys of the failure if it failed. -/
def Scoring.info (s : Scoring) : Dict PyVal :=
  match s.returned, s with
  | some (_, info), _ => info
  | none, .timeout => Dict.ofItems [("timeout", .bool true), ("acc", .float 0)]
  | none, .raises e => Dict.ofItems [("error", .str e), ("acc", .float 0)]
  | none, .returns _ => Dict.ofItems [("error", .str "'score'"), ("acc", .float 0)]

/-- A value that went through an array: `==`, or NaN both. -/
def SameValue (a b : PyVal) : Prop :=
  a = b ∨ a.pyEq b = true ∨ ∃ i j, a = .nan i ∧ b = .nan j

/-- A row that is zero but for the score at the last token of the response. -/
def rowWithScore (responseLength validResponseLength : Nat) (entry : Option ℚ) : TensorRow :=
  (List.replicate responseLength (some 0)).set
    (if validResponseLength = 0 then responseLength - 1 else validResponseLength - 1) entry

/-- The values that scorings returned under a key stand in the rows of their samples. -/
def Keeps (n : Nat) (outcome : Nat → Scoring) (key : String) (column : List PyVal) : Prop :=
  ∀ i < n, ∀ score info value, (outcome i).returned = some (score, info) →
    info.get? key = some value → ∃ entry, column[i]? = some entry ∧ SameValue entry value

/-- The result of a batch of `n` samples: a row and an entry of every column for each of them. -/
structure Complete (n responseLength : Nat) (validResponseLength : Nat → Nat)
    (outcome : Nat → Scoring) (scores : List TensorRow) (keys : List String)
    (columnOf : String → Option (List PyVal)) : Prop where
  length_scores : scores.length = n
  score_failed : ∀ i < n, (outcome i).returned = none →
    scores[i]? = some (rowWithScore responseLength (validResponseLength i) (some 0))
  score_returned : ∀ i < n, ∀ score info, (outcome i).returned = some (score, info) →
    ∃ entry, scoreEntry score = .ok entry ∧
      scores[i]? = some (rowWithScore responseLength (validResponseLength i) entry)
  keys_returned : ∀ i < n, ∀ score info, (outcome i).returned = some (score, info) →
    ∀ key ∈ info.keys, key ∈ keys
  columns : ∀ key ∈ keys, ∃ column, columnOf key = some column ∧ column.length = n ∧
    Keeps n outcome key column

/-- The same of a `DataProto`, with the keys from its `meta_info`. -/
def CompleteBatch (n responseLength : Nat) (validResponseLength : Nat → Nat)
    (outcome : Nat → Scoring) (result : DataProto TensorRow PyVal) : Prop :=
  ∃ td scores keys, result.batch = some td ∧ td.columns.get? "rm_scores" = some scores ∧
    result.metaInfo.get? "reward_extra_keys" = some (.list (keys.map .str)) ∧
    Complete n responseLength validResponseLength outcome scores keys (result.nonTensorBatch.get? ·)

/-- Every score that is returned is a number, and there is a place for it. -/
def Scorable (n responseLength : Nat) (outcome : Nat → Scoring) : Prop :=
  (n = 0 ∨ 1 ≤ responseLength) ∧ ∀ i < n, ∀ score info, (outcome i).returned = some (score, info) →
    ∃ entry, scoreEntry score = .ok entry

/-- All samples have the keys of each other. -/
def SameKeys (n : Nat) (outcome : Nat → Scoring) : Prop :=
  ∀ i < n, ∀ j < n, ∀ key ∈ (outcome i).info.keys, key ∈ (outcome j).info.keys

/-- All samples have the keys of the first one, and those that did not fail no other. -/
def FirstKeys (n : Nat) (outcome : Nat → Scoring) : Prop :=
  ∀ i < n, (∀ key ∈ (outcome 0).info.keys, key ∈ (outcome i).info.keys) ∧
    ∀ score info, (outcome i).returned = some (score, info) →
      ∀ key ∈ info.keys, key ∈ (outcome 0).info.keys

/-- `np.array` takes the values under a key, and what is left of them after the extra fields are
written has those that were returned. -/
def ArrayKeeps (np : NumPy) (n : Nat) (outcome : Nat → Scoring)
    (overwritten : String → Option (List PyVal)) : Prop :=
  ∀ key ∈ (outcome 0).info.keys, ∃ column,
    np.array ((List.range n).map fun i => ((outcome i).info.get? key).getD .none) = .ok column ∧
      Keeps n outcome key ((overwritten key).getD column)

/-- There is a chunk of the batch for every worker, and none is empty. -/
def Chunkable (autoPadding : Bool) (workers : Nat) (data : DataProto TensorRow PyVal) : Prop :=
  1 ≤ workers ∧ (data.isPaddingEnabled autoPadding = true ∨ workers ∣ data.len) ∧
    (DataProto.chunkSizes data.len workers).length = workers

/-- What `_postprocess` writes over a column of the dictionaries. -/
def overwritten (inputs : List InternalAgentLoopOutput) (key : String) : Option (List PyVal) :=
  if key ∈ allKeys inputs then some (extraField inputs key)
  else if key = "multi_modal_inputs" ∧ inputs.any (!isNone ·.multiModalInputs) then
    some (inputs.map (·.multiModalInputs))
  else none

/-! ## Lemmas: one sample -/

variable {inputs : List InternalAgentLoopOutput} {r n i workers : Nat} {α β : Type}
  {outcome : Nat → Scoring} {info : Dict PyVal} {key : String} {columns d : Dict (List PyVal)}
  {data : DataProto TensorRow PyVal} {td : TensorDict TensorRow} {valid : Nat → Nat}
  {scores : List TensorRow} {keys : List String} {infos : List (Dict PyVal)} {autoPadding : Bool}
  {np : NumPy}

variable (items : List (String × PyVal)) {s : Scoring}

theorem runSingle_dict : runSingle (.returns (.dict items)) =
      match (Dict.ofItems items).get? "score" with
      | some score => { rewardScore := score, rewardExtraInfo := Dict.ofItems items }
      | none => failedResult "'score'" := rfl

theorem returned_dict : (Scoring.returns (.dict items)).returned =
      ((Dict.ofItems items).get? "score").map fun score => (score, Dict.ofItems items) := rfl

theorem runSingle_eq (s : Scoring) :
    runSingle s = ⟨(s.returned.map Prod.fst).getD (.float 0), s.info⟩ := by
  cases s with
  | timeout => rfl
  | raises e => rfl
  | returns result =>
    cases result with
    | dict items =>
      rw [runSingle_dict]
      unfold Scoring.info
      rw [returned_dict]
      cases (Dict.ofItems items).get? "score" with
      | none => rfl
      | some score => rfl
    | _ => rfl

theorem runSingle_info (s : Scoring) : (runSingle s).rewardExtraInfo = s.info :=
  congrArg RewardResult.rewardExtraInfo (runSingle_eq s)

theorem runSingle_of_returned {score : PyVal}
    (h : s.returned = some (score, info)) : (runSingle s).rewardScore = score ∧ s.info = info := by
  constructor
  · rw [runSingle_eq, h]
    rfl
  · unfold Scoring.info
    rw [h]

theorem runSingle_of_failed (h : s.returned = none) :
    (runSingle s).rewardScore = .float 0 := by
  rw [runSingle_eq, h]
  rfl

/-! ## Lemmas: the scores of a batch -/

theorem scoreRow_eq {v : Nat} (hr : 1 ≤ r) (hv : v ≤ r) (entry : Option ℚ) :
    scoreRow r v entry = .ok (rowWithScore r v entry) := by
  have hindex : pyIndex r ((v : Int) - 1) = .ok (if v = 0 then r - 1 else v - 1) := by
    unfold pyIndex
    by_cases hzero : v = 0
    · grind
    · grind
  unfold scoreRow
  rw [hindex]
  rfl

theorem scoreRow_zero (v : Nat) (entry : Option ℚ) : scoreRow 0 v entry = .error .indexError := by
  have hindex : pyIndex 0 ((v : Int) - 1) = .error .indexError := by
    unfold pyIndex
    rw [if_neg (by omega), if_neg (by omega)]
  unfold scoreRow
  rw [hindex]
  rfl

/-- The score of sample `i` in its row. -/
def scoreOf (responseLength : Nat) (validResponseLength : Nat → Nat) (outcome : Nat → Scoring)
    (i : Nat) : Except PyErr TensorRow :=
  scoreEntry (runSingle (outcome i)).rewardScore >>= scoreRow responseLength (validResponseLength i)

theorem scoreOf_congr {valid' : Nat → Nat} (outcome : Nat → Scoring)
    (h : 1 ≤ r → valid = valid') : scoreOf r valid outcome = scoreOf r valid' outcome := by
  rcases Nat.eq_zero_or_pos r with rfl | hr
  · funext i
    unfold scoreOf
    congr 1
    funext entry
    rw [scoreRow_zero, scoreRow_zero]
  · rw [h hr]

section

variable (hvalid : ∀ i, valid i ≤ r)
include hvalid

theorem exists_scoreOf (h : Scorable n r outcome) (hi : i < n) :
    ∃ row, scoreOf r valid outcome i = .ok row := by
  obtain ⟨hr, hscores⟩ := h
  have hr : 1 ≤ r := hr.resolve_left (by omega)
  unfold scoreOf
  cases hreturned : (outcome i).returned with
  | none =>
    rw [runSingle_of_failed hreturned]
    exact ⟨_, scoreRow_eq hr (hvalid i) _⟩
  | some p =>
    obtain ⟨score, info⟩ := p
    obtain ⟨entry, hentry⟩ := hscores i hi score info hreturned
    rw [(runSingle_of_returned hreturned).1, hentry]
    exact ⟨_, scoreRow_eq hr (hvalid i) _⟩

theorem mapM_scoreOf_iff : (∃ scores, (range n).mapM (scoreOf r valid outcome) = .ok scores) ↔
      Scorable n r outcome := by
  constructor
  · rintro ⟨scores, h⟩
    have hpairs := forall₂_of_mapM_eq_ok h
    have hrow : ∀ i < n, ∃ row, scoreOf r valid outcome i = .ok row := by
      intro i hi
      obtain ⟨row, -, hrow⟩ := exists_of_forall₂ hpairs.flip (mem_range.2 hi)
      exact ⟨row, hrow⟩
    constructor
    · by_contra hnot
      obtain ⟨row, hrow⟩ := hrow 0 (by omega)
      obtain ⟨entry, -, hrow⟩ := bind_eq_ok.1 hrow
      obtain rfl : r = 0 := by omega
      rw [scoreRow_zero] at hrow
      cases hrow
    · intro i hi score info hreturned
      obtain ⟨row, hrow⟩ := hrow i hi
      obtain ⟨entry, hentry, -⟩ := bind_eq_ok.1 hrow
      rw [(runSingle_of_returned hreturned).1] at hentry
      exact ⟨entry, hentry⟩
  · intro h
    have hok : ∀ i ∈ range n, scoreOf r valid outcome i
        = .ok ((scoreOf r valid outcome i).toOption.getD []) := by
      intro i hi
      obtain ⟨row, hrow⟩ := exists_scoreOf hvalid h (mem_range.1 hi)
      rw [hrow]
      rfl
    exact ⟨_, mapM_eq_ok_map _ _ _ hok⟩

theorem scoreOf_eq (h : (range n).mapM (scoreOf r valid outcome) = .ok scores) (hi : i < n) :
    ∃ entry, scoreEntry (runSingle (outcome i)).rewardScore = .ok entry ∧
      scores[i]? = some (rowWithScore r (valid i) entry) := by
  have hpairs := forall₂_of_mapM_eq_ok h
  have hlen := hpairs.length_eq
  rw [length_range] at hlen
  have hrow := hpairs.get (by rwa [length_range]) (hlen ▸ hi)
  rw [get_eq_getElem, getElem_range] at hrow
  obtain ⟨entry, hentry, hrow⟩ := bind_eq_ok.1 hrow
  refine ⟨entry, hentry, ?_⟩
  have hr : 1 ≤ r := by
    rcases Nat.eq_zero_or_pos r with rfl | hr
    · rw [scoreRow_zero] at hrow
      cases hrow
    · exact hr
  rw [scoreRow_eq hr (hvalid i)] at hrow
  rw [getElem?_eq_getElem (hlen ▸ hi)]
  exact congrArg some (Except.ok.inj hrow).symm

theorem complete_of_scores (h : (range n).mapM (scoreOf r valid outcome) = .ok scores)
    {columnOf : String → Option (List PyVal)}
    (hkeys : ∀ i < n, ∀ score info, (outcome i).returned = some (score, info) →
      ∀ key ∈ info.keys, key ∈ keys)
    (hcolumns : ∀ key ∈ keys, ∃ column, columnOf key = some column ∧ column.length = n ∧
      Keeps n outcome key column) :
    Complete n r valid outcome scores keys columnOf where
  length_scores := by
    have hlen := (forall₂_of_mapM_eq_ok h).length_eq
    rwa [length_range, eq_comm] at hlen
  score_failed := by
    intro i hi hfailed
    obtain ⟨entry, hentry, hrow⟩ := scoreOf_eq hvalid h hi
    rw [runSingle_of_failed hfailed] at hentry
    cases hentry
    exact hrow
  score_returned := by
    intro i hi score info hreturned
    obtain ⟨entry, hentry, hrow⟩ := scoreOf_eq hvalid h hi
    rw [(runSingle_of_returned hreturned).1] at hentry
    exact ⟨entry, hentry, hrow⟩
  keys_returned := hkeys
  columns := hcolumns

end

theorem mapM_zip_eq_ok {γ δ ε : Type} {f : α → Except ε β} {g : γ → β → Except ε δ}
    {xs : List α} {ys : List γ} (hlen : ys.length = xs.length) {rows : List δ} :
    (∃ entries, xs.mapM f = .ok entries ∧ (ys.zip entries).mapM (fun p => g p.1 p.2) = .ok rows) ↔
      (ys.zip xs).mapM (fun p => f p.2 >>= g p.1) = .ok rows := by
  induction xs generalizing ys rows with
  | nil =>
    rw [length_nil, length_eq_zero_iff] at hlen
    subst hlen
    exact ⟨fun ⟨_, _, h⟩ => h, fun h => ⟨[], rfl, h⟩⟩
  | cons x xs ih =>
    obtain ⟨y, ys, rfl⟩ := exists_of_length_succ ys hlen
    rw [length_cons, length_cons, Nat.add_right_cancel_iff] at hlen
    rw [zip_cons_cons, mapM_cons, mapM_cons, bind_eq_ok]
    constructor
    · rintro ⟨entries, hentries, hrows⟩
      obtain ⟨entry, hentry, hentries⟩ := bind_eq_ok.1 hentries
      obtain ⟨rest, hrest, hentries⟩ := bind_eq_ok.1 hentries
      cases hentries
      rw [zip_cons_cons, mapM_cons, bind_eq_ok] at hrows
      obtain ⟨row, hrow, hrows⟩ := hrows
      obtain ⟨tail, htail, hrows⟩ := bind_eq_ok.1 hrows
      refine ⟨row, bind_eq_ok.2 ⟨entry, hentry, hrow⟩, ?_⟩
      rw [(ih hlen).1 ⟨rest, hrest, htail⟩]
      exact hrows
    · rintro ⟨row, hrow, hrows⟩
      obtain ⟨entry, hentry, hrow⟩ := bind_eq_ok.1 hrow
      obtain ⟨tail, htail, hrows⟩ := bind_eq_ok.1 hrows
      obtain ⟨rest, hrest, hmap⟩ := (ih hlen).2 htail
      refine ⟨entry :: rest, ?_, ?_⟩
      · rw [hentry, hrest]
        rfl
      · rw [zip_cons_cons, mapM_cons]
        rw [hrow, hmap]
        exact hrows

theorem validResponseLength_le (rows : Rows) (row : Row TensorRow PyVal) :
    rows.validResponseLength row ≤ rows.responseLength := by
  have hlen := rows.length_mask row
  refine count_le_length.trans ?_
  rw [length_drop]
  omega

theorem computeScoreBatch_eq (scoring : Nat → Row TensorRow PyVal → Scoring) (start : Nat)
    (data : DataProto TensorRow PyVal) :
    computeScoreBatch scoring start data =
      (range data.len).map fun j => runSingle (scoring (start + j) (data.row j)) := by
  exact mapIdx_map_range data.row _ _

/-! ## Lemmas: `__call__` -/

/-- The lists of the dictionary after the loop. -/
def extraLists (infos : List (Dict PyVal)) : List (String × List PyVal) :=
  (infos.flatMap Dict.items).foldl (fun lists p => appendAt lists p.1 p.2) []

theorem filter_items (d : Dict β) (key : String) :
    (d.items.filter fun p => p.1 = key).map Prod.snd = (d.get? key).toList := by
  obtain ⟨items, hnodup⟩ := d
  unfold Dict.get?
  induction items with
  | nil => rfl
  | cons p items ih =>
    rw [map_cons, nodup_cons] at hnodup
    rw [filter_cons, lookup_cons]
    by_cases hp : p.1 = key
    · subst hp
      have hrest : items.filter (fun q => q.1 = p.1) = [] := by
        rw [filter_eq_nil_iff]
        intro q hq hkey
        exact hnodup.1 (of_decide_eq_true hkey ▸ mem_map_of_mem hq)
      rw [if_pos (decide_eq_true rfl), hrest, beq_self_eq_true]
      rfl
    · grind

theorem listAt_extraLists (infos : List (Dict PyVal)) (key : String) :
    listAt (extraLists infos) key = infos.filterMap (·.get? key) := by
  unfold extraLists
  rw [listAt_foldl_appendAt, listAt_nil, nil_append]
  induction infos with
  | nil => rfl
  | cons info infos ih =>
    rw [flatMap_cons, filter_append, map_append, ih, filter_items]
    rw [filterMap_cons]
    cases info.get? key with
    | none => rfl
    | some value => rfl

theorem lookup_extraLists (hmem : info ∈ infos) (hkey : key ∈ info.keys) :
    (extraLists infos).lookup key = some (infos.filterMap (·.get? key)) := by
  rw [← listAt_extraLists]
  apply lookup_eq_listAt
  rw [listAt_extraLists]
  obtain ⟨value, hvalue⟩ := Option.isSome_iff_exists.1 (isSome_get?_iff.2 hkey)
  exact ne_nil_of_mem (mem_filterMap.2 ⟨info, hmem, hvalue⟩)

theorem mem_keys_extraLists :
    key ∈ (extraLists infos).map Prod.fst ↔ ∃ info ∈ infos, key ∈ info.keys := by
  unfold extraLists
  rw [mem_keys_foldl_appendAt, map_nil, or_iff_right not_mem_nil]
  constructor
  · rintro ⟨p, hp, rfl⟩
    obtain ⟨info, hinfo, hp⟩ := mem_flatMap.1 hp
    exact ⟨info, hinfo, mem_map_of_mem hp⟩
  · rintro ⟨info, hinfo, hkey⟩
    obtain ⟨p, hp, rfl⟩ := mem_map.1 hkey
    exact ⟨p, mem_flatMap.2 ⟨info, hinfo, hp⟩, rfl⟩

/-- The dictionaries of the samples. -/
def infosOf (n : Nat) (outcome : Nat → Scoring) : List (Dict PyVal) :=
  (List.range n).map fun i => (outcome i).info

theorem length_infosOf (n : Nat) (outcome : Nat → Scoring) : (infosOf n outcome).length = n := by
  rw [infosOf, length_map, length_range]

theorem mem_infosOf : info ∈ infosOf n outcome ↔ ∃ i < n, (outcome i).info = info := by
  unfold infosOf
  simp only [mem_map, mem_range]

theorem length_filterMap_eq_iff {f : α → Option β} {xs : List α} :
    (xs.filterMap f).length = xs.length ↔ ∀ x ∈ xs, f x ≠ none := by
  induction xs with
  | nil => simp
  | cons x xs ih =>
    rw [filterMap_cons, forall_mem_cons]
    have hle := length_filterMap_le f xs
    cases hx : f x with
    | none =>
      dsimp only
      rw [length_cons]
      constructor
      · intro h
        omega
      · simp
    | some y =>
      rw [length_cons, length_cons, Nat.add_right_cancel_iff, ih]
      exact ⟨fun h => ⟨by simp, h⟩, fun h => h.2⟩

theorem length_extraLists_iff : (∀ key ∈ (extraLists (infosOf n outcome)).map Prod.fst,
      ((infosOf n outcome).filterMap (·.get? key)).length = n) ↔ SameKeys n outcome := by
  have hiff : ∀ key, ((infosOf n outcome).filterMap (·.get? key)).length = n ↔
      ∀ info ∈ infosOf n outcome, info.get? key ≠ none := by
    intro key
    rw [← length_filterMap_eq_iff, length_infosOf]
  constructor
  · intro h i hi j hj key hkey
    have hlists := h key (mem_keys_extraLists.2 ⟨_, mem_infosOf.2 ⟨i, hi, rfl⟩, hkey⟩)
    have hsome := (hiff key).1 hlists _ (mem_infosOf.2 ⟨j, hj, rfl⟩)
    rwa [Ne, get?_eq_none_iff, not_not] at hsome
  · intro h key hkey
    refine (hiff key).2 fun info hinfo => ?_
    obtain ⟨_, hfirst, hkey⟩ := mem_keys_extraLists.1 hkey
    obtain ⟨i, hi, rfl⟩ := mem_infosOf.1 hfirst
    obtain ⟨j, hj, rfl⟩ := mem_infosOf.1 hinfo
    rw [Ne, get?_eq_none_iff, not_not]
    exact h i hi j hj key hkey

theorem getElem?_extraLists (hall : ∀ i < n, key ∈ (outcome i).info.keys) (hi : i < n) :
    ((infosOf n outcome).filterMap (·.get? key))[i]? = (outcome i).info.get? key := by
  have hvalues : (infosOf n outcome).filterMap (·.get? key)
      = (infosOf n outcome).map fun info => (info.get? key).getD .none := by
    rw [← filterMap_eq_map]
    refine filterMap_congr fun info hinfo => ?_
    obtain ⟨j, hj, rfl⟩ := mem_infosOf.1 hinfo
    obtain ⟨value, hvalue⟩ := Option.isSome_iff_exists.1 (isSome_get?_iff.2 (hall j hj))
    rw [comp_apply, hvalue, Option.getD_some]
  obtain ⟨value, hvalue⟩ := Option.isSome_iff_exists.1 (isSome_get?_iff.2 (hall i hi))
  rw [hvalues, infosOf, map_map, getElem?_map, getElem?_range hi, Option.map_some,
    comp_apply, hvalue]
  rfl

section

variable (rows : Rows) (scoring : Nat → Row TensorRow PyVal → Scoring)
  (hfresh : data.batch.bind (·.columns.get? "rm_scores") = none)
include rows scoring hfresh

theorem call_eq : call rows scoring true data =
      ((range data.len).mapM (scoreOf rows.responseLength
        (fun i => rows.validResponseLength (data.row i)) fun i => scoring i (data.row i))).map
          fun scores =>
            { rewardTensor := scores
              rewardExtraInfo := some (extraLists (infosOf data.len fun i => scoring i (data.row i))) } := by
  have hvalid : 1 ≤ rows.responseLength →
      (fun i => (plainSlice (rows.attentionMask (data.row i)) (some (-rows.responseLength)) none).count
        true) = fun i => rows.validResponseLength (data.row i) := by
    intro hr
    funext i
    have hlen := rows.length_mask (data.row i)
    rw [plainSlice_from_neg hr (by omega), hlen, Nat.add_sub_cancel]
    rfl
  have hinfos : (computeScoreBatch scoring 0 data).foldl (fun info result =>
      result.rewardExtraInfo.items.foldl (fun info p => appendAt info p.1 p.2) info) []
        = extraLists (infosOf data.len fun i => scoring i (data.row i)) := by
    unfold extraLists infosOf
    rw [computeScoreBatch_eq, foldl_flatMap, foldl_map, foldl_map]
    simp only [runSingle_info, Nat.zero_add]
  have hscores : (data.rows.zip (computeScoreBatch scoring 0 data)).mapM (fun p => do
      let responseMask := plainSlice (rows.attentionMask p.1) (some (-rows.responseLength)) none
      let entry ← scoreEntry p.2.rewardScore
      scoreRow rows.responseLength (responseMask.count true) entry)
        = (range data.len).mapM (scoreOf rows.responseLength
            (fun i => rows.validResponseLength (data.row i)) fun i => scoring i (data.row i)) := by
    rw [← scoreOf_congr _ hvalid, computeScoreBatch_eq, DataProto.rows, zip_map', mapM_map]
    simp only [Nat.zero_add]
    rfl
  unfold call
  rw [hfresh]
  dsimp only
  rw [hscores, hinfos]
  cases (range data.len).mapM (scoreOf rows.responseLength
    (fun i => rows.validResponseLength (data.row i)) fun i => scoring i (data.row i)) with
  | error e => rfl
  | ok scores => rfl

theorem call_complete_iff : (∃ scores lists, call rows scoring true data
        = .ok { rewardTensor := scores, rewardExtraInfo := some lists } ∧
      Complete data.len rows.responseLength (fun i => rows.validResponseLength (data.row i))
        (fun i => scoring i (data.row i)) scores (lists.map Prod.fst) (lists.lookup ·)) ↔
      Scorable data.len rows.responseLength (fun i => scoring i (data.row i)) ∧
        SameKeys data.len fun i => scoring i (data.row i) := by
  have hvalid : ∀ i, rows.validResponseLength (data.row i) ≤ rows.responseLength :=
    fun i => validResponseLength_le rows _
  rw [call_eq rows scoring hfresh]
  constructor
  · rintro ⟨scores, lists, hcall, hcomplete⟩
    obtain ⟨scores', hscores, heq⟩ := except_map_eq_ok.1 hcall
    cases heq
    refine ⟨(mapM_scoreOf_iff hvalid).1 ⟨_, hscores⟩, length_extraLists_iff.1 fun key hkey => ?_⟩
    obtain ⟨column, hcolumn, hlen, -⟩ := hcomplete.columns key hkey
    obtain ⟨info, hinfo, hk⟩ := mem_keys_extraLists.1 hkey
    rw [lookup_extraLists hinfo hk] at hcolumn
    rwa [Option.some.inj hcolumn]
  · rintro ⟨hscorable, hsame⟩
    obtain ⟨scores, hscores⟩ := (mapM_scoreOf_iff hvalid).2 hscorable
    refine ⟨scores, _, by rw [hscores]; rfl, complete_of_scores hvalid hscores ?_ ?_⟩
    · intro i hi score info hreturned key hkey
      rw [← (runSingle_of_returned hreturned).2] at hkey
      exact mem_keys_extraLists.2 ⟨_, mem_infosOf.2 ⟨i, hi, rfl⟩, hkey⟩
    · intro key hkey
      have hlen := length_extraLists_iff.2 hsame key hkey
      obtain ⟨first, hfirst, hk⟩ := mem_keys_extraLists.1 hkey
      refine ⟨_, lookup_extraLists hfirst hk, hlen, ?_⟩
      intro i hi score info value hreturned hvalue
      obtain ⟨j, hj, rfl⟩ := mem_infosOf.1 hfirst
      refine ⟨value, ?_, Or.inl rfl⟩
      rw [getElem?_extraLists (fun i hi => hsame j hj i hi key hk) hi,
        (runSingle_of_returned hreturned).2, hvalue]

end

/-! ## Lemmas: the columns of the first keys -/

theorem extraColumn_eq_ok {column : List PyVal} : extraColumn np infos key = .ok column ↔
      (∀ info ∈ infos, key ∈ info.keys) ∧
        np.array (infos.map fun info => (info.get? key).getD .none) = .ok column := by
  unfold extraColumn
  constructor
  · intro h
    obtain ⟨values, hvalues, harray⟩ := bind_eq_ok.1 h
    have hpairs := forall₂_of_mapM_eq_ok hvalues
    have hget : Forall₂ (fun info value => info.get? key = some value) infos values := by grind
    refine ⟨fun info hinfo => ?_, ?_⟩
    · obtain ⟨value, -, hvalue⟩ := exists_of_forall₂ hget.flip hinfo
      rw [← isSome_get?_iff, hvalue]
      rfl
    · have hmap : infos.map (fun info => (info.get? key).getD .none) = values := by
        clear hvalues hpairs harray h
        induction hget with
        | nil => rfl
        | cons hhead _ ih => rw [map_cons, hhead, Option.getD_some, ih]
      rwa [hmap]
  · rintro ⟨hkeys, harray⟩
    rw [mapM_eq_ok_map _ (fun info => (info.get? key).getD .none) infos ?_, ok_bind, harray]
    intro info hinfo
    obtain ⟨value, hvalue⟩ := Option.isSome_iff_exists.1 (isSome_get?_iff.2 (hkeys info hinfo))
    rw [hvalue]
    rfl

theorem extraColumns_spec (h : extraColumns np infos keys d = .ok columns) :
    (∀ key ∈ keys, ∃ column, extraColumn np infos key = .ok column ∧
      columns.get? key = some column) ∧
    (∀ key ∉ keys, columns.get? key = d.get? key) := by
  induction keys generalizing d with
  | nil =>
    cases h
    exact ⟨fun _ hkey => absurd hkey not_mem_nil, fun _ _ => rfl⟩
  | cons k keys ih =>
    unfold extraColumns at h
    rw [foldlM_cons, bind_eq_ok] at h
    obtain ⟨d', hstep, h⟩ := h
    obtain ⟨column, hcolumn, hinsert⟩ := bind_eq_ok.1 hstep
    cases hinsert
    obtain ⟨hset, hkeep⟩ := ih h
    constructor
    · intro key hkey
      by_cases hmem : key ∈ keys
      · exact hset key hmem
      · obtain rfl : key = k := (mem_cons.1 hkey).resolve_right hmem
        exact ⟨column, hcolumn, by rw [hkeep key hmem, get?_insert, if_pos rfl]⟩
    · intro key hkey
      rw [mem_cons, not_or] at hkey
      rw [hkeep key hkey.2, get?_insert, if_neg hkey.1]

theorem exists_extraColumns (h : ∀ key ∈ keys, ∃ column, extraColumn np infos key = .ok column)
    (d : Dict (List PyVal)) : ∃ columns, extraColumns np infos keys d = .ok columns := by
  have hstep : ∀ (d : Dict (List PyVal)), ∀ key ∈ keys,
      (do let column ← extraColumn np infos key; return d.insert key column)
        = .ok (d.insert key ((extraColumn np infos key).toOption.getD [])) := by
    intro d key hkey
    obtain ⟨column, hcolumn⟩ := h key hkey
    rw [hcolumn]
    rfl
  exact ⟨_, foldlM_eq_ok_foldl _ _ keys hstep d⟩

theorem length_extraColumns (h : extraColumns np infos keys d = .ok columns)
    (hd : ∀ c ∈ d.items, c.2.length = infos.length) :
    ∀ c ∈ columns.items, c.2.length = infos.length := by
  obtain ⟨hset, hkeep⟩ := extraColumns_spec h
  intro c hc
  have hget := get?_eq_some hc
  by_cases hkey : c.1 ∈ keys
  · obtain ⟨column, hcolumn, heq⟩ := hset c.1 hkey
    rw [hget] at heq
    cases heq
    rw [np.length_array (extraColumn_eq_ok.1 hcolumn).2, length_map]
  · rw [hkeep c.1 hkey] at hget
    exact hd c (mem_items_of_get? hget)

theorem firstKeys_infosOf (hn : 1 ≤ n) (outcome : Nat → Scoring) :
    firstKeys (infosOf n outcome) = .ok (outcome 0).info.keys := by
  obtain ⟨m, rfl⟩ := Nat.exists_eq_add_of_le' hn
  rw [infosOf, range_succ_eq_map]
  rfl

theorem firstKeys_iff {written : String → Option (List PyVal)} :
    FirstKeys n outcome ∧ ArrayKeeps np n outcome written ↔
      (∀ i < n, ∀ score info, (outcome i).returned = some (score, info) →
        ∀ key ∈ info.keys, key ∈ (outcome 0).info.keys) ∧
      ∀ key ∈ (outcome 0).info.keys, ∃ column,
        extraColumn np (infosOf n outcome) key = .ok column ∧
          Keeps n outcome key ((written key).getD column) := by
  have hvalues : ∀ key, (infosOf n outcome).map (fun info => (info.get? key).getD .none)
      = (range n).map fun i => ((outcome i).info.get? key).getD .none := by
    intro key
    rw [infosOf, map_map]
    rfl
  constructor
  · rintro ⟨hfirst, harray⟩
    refine ⟨fun i hi => (hfirst i hi).2, fun key hkey => ?_⟩
    obtain ⟨column, hcolumn, hkeeps⟩ := harray key hkey
    refine ⟨column, extraColumn_eq_ok.2 ⟨fun info hinfo => ?_, by rw [hvalues, hcolumn]⟩, hkeeps⟩
    obtain ⟨i, hi, rfl⟩ := mem_infosOf.1 hinfo
    exact (hfirst i hi).1 key hkey
  · rintro ⟨hreturned, hcolumns⟩
    constructor
    · intro i hi
      refine ⟨fun key hkey => ?_, hreturned i hi⟩
      obtain ⟨column, hcolumn, -⟩ := hcolumns key hkey
      exact (extraColumn_eq_ok.1 hcolumn).1 _ (mem_infosOf.2 ⟨i, hi, rfl⟩)
    · intro key hkey
      obtain ⟨column, hcolumn, hkeeps⟩ := hcolumns key hkey
      exact ⟨column, by rw [← hvalues, (extraColumn_eq_ok.1 hcolumn).2], hkeeps⟩

theorem complete_firstKeys_iff (hvalid : ∀ i, valid i ≤ r)
    (hscores : (range n).mapM (scoreOf r valid outcome) = .ok scores)
    {written columnOf : String → Option (List PyVal)}
    (hlength : ∀ key column, written key = some column → column.length = n)
    (hcolumnOf : ∀ key ∈ (outcome 0).info.keys, ∃ column,
      extraColumn np (infosOf n outcome) key = .ok column ∧
        columnOf key = some ((written key).getD column)) :
    Complete n r valid outcome scores (outcome 0).info.keys columnOf ↔
      FirstKeys n outcome ∧ ArrayKeeps np n outcome written := by
  rw [firstKeys_iff]
  constructor
  · intro h
    refine ⟨h.keys_returned, fun key hkey => ?_⟩
    obtain ⟨column, hcolumn, hget⟩ := hcolumnOf key hkey
    obtain ⟨column', hget', -, hkeeps⟩ := h.columns key hkey
    rw [hget, Option.some.injEq] at hget'
    exact ⟨column, hcolumn, hget'.symm ▸ hkeeps⟩
  · rintro ⟨hreturned, hcolumns⟩
    refine complete_of_scores hvalid hscores hreturned fun key hkey => ?_
    obtain ⟨column, hcolumn, hget⟩ := hcolumnOf key hkey
    obtain ⟨column', hcolumn', hkeeps⟩ := hcolumns key hkey
    rw [hcolumn, Except.ok.injEq] at hcolumn'
    subst hcolumn'
    refine ⟨_, hget, ?_, hkeeps⟩
    cases hover : written key with
    | none =>
      rw [Option.getD_none, np.length_array (extraColumn_eq_ok.1 hcolumn).2, length_map,
        length_infosOf]
    | some column' => rw [Option.getD_some, hlength key column' hover]

/-! ## Lemmas: `compute_rm_score` -/

theorem computeScoreBatches_eq (scoring : Nat → Row TensorRow PyVal → Scoring)
    (hwf : data.WellFormed) (start : Nat) (sizes : List Nat) (h : start + sizes.sum ≤ data.len) :
    (computeScoreBatches scoring start ((DataProto.pieceIdxs start sizes).map data.gather)).flatten
      = (range' start sizes.sum).map fun i => runSingle (scoring i (data.row i)) := by
  induction sizes generalizing start with
  | nil => rfl
  | cons size sizes ih =>
    rw [sum_cons] at h ⊢
    have hlt : ∀ i ∈ range' start size, i < data.len := by grind
    have hlen : (data.gather (range' start size)).len = size := by
      rw [DataProto.len_gather hwf hlt, length_range']
    have hrow : ∀ j < size, (data.gather (range' start size)).row j = data.row (start + j) := by
      intro j hj
      rw [DataProto.row_gather data hwf _ hlt j (by rwa [length_range']),
        getElem_range'_1]
    have hhead : (range size).map (fun j =>
        runSingle (scoring (start + j) ((data.gather (range' start size)).row j)))
          = (range' start size).map fun i => runSingle (scoring i (data.row i)) := by
      conv_rhs => rw [range'_eq_map_range, map_map]
      refine map_congr_left fun j hj => ?_
      rw [hrow j (mem_range.1 hj)]
      rfl
    unfold DataProto.pieceIdxs
    rw [map_cons]
    unfold computeScoreBatches
    rw [flatten_cons, hlen, ih (start + size) (by omega), computeScoreBatch_eq, hlen, hhead,
      ← range'_append_1, map_append]

theorem outputsFlat_eq (scoring : Nat → Row TensorRow PyVal → Scoring) (hwf : data.WellFormed)
    (hb : data.batch = some td) {chunks : List (DataProto TensorRow PyVal)}
    (h : data.chunk autoPadding workers = .ok chunks) :
    (computeScoreBatches scoring 0 chunks).flatten
      = (range data.len).map fun i => runSingle (scoring i (data.row i)) := by
  obtain ⟨hk, hcut, hlen⟩ := (DataProto.chunk_ok_iff hwf hb).1 ⟨chunks, h⟩
  have hpieces : data.chunkPieces workers
      = DataProto.pieceIdxs 0 (DataProto.chunkSizes data.len workers) := by
    unfold DataProto.chunkPieces
    rw [hb, DataProto.len_of_batch hb]
  have hchunks : chunks = (data.chunkPieces workers).map data.gather := by
    have hcut' : (data.isPaddingEnabled autoPadding || data.len % workers == 0) = true := by
      rw [Bool.or_eq_true, beq_iff_eq]
      exact hcut.imp_right Nat.mod_eq_zero_of_dvd
    refine Except.ok.inj (h.symm.trans (DataProto.chunk_eq_chunkPieces hwf hk hcut' ?_))
    rw [hpieces, DataProto.length_pieceIdxs, hlen]
  have hsum := DataProto.sum_chunkSizes (n := data.len) hk
  rw [hchunks, hpieces, computeScoreBatches_eq scoring hwf 0 _ (by omega), hsum,
    range_eq_range']

theorem broadcast_length {entries : List (Option ℚ)} (h : entries.length = n) :
    broadcast n entries = entries := by
  subst h
  unfold broadcast
  split
  · rfl
  · rfl

theorem scoreRows_eq_ok : scoreRows r ((range n).map valid)
        ((range n).map fun i => (runSingle (outcome i)).rewardScore) = .ok scores ↔
      (range n).mapM (scoreOf r valid outcome) = .ok scores := by
  have hlen : ((range n).map valid).length
      = ((range n).map fun i => (runSingle (outcome i)).rewardScore).length := by
    rw [length_map, length_map]
  have hzip : (range n).mapM (scoreOf r valid outcome)
      = (((range n).map valid).zip
          ((range n).map fun i => (runSingle (outcome i)).rewardScore)).mapM
            fun p => scoreEntry p.2 >>= scoreRow r p.1 := by
    rw [zip_map', mapM_map]
    rfl
  rw [hzip, ← mapM_zip_eq_ok hlen]
  unfold scoreRows
  rw [bind_eq_ok]
  refine exists_congr fun entries => and_congr_right fun hentries => ?_
  have hsame := hlen.trans (forall₂_of_mapM_eq_ok hentries).length_eq
  rw [broadcast_length hsame.symm, if_pos hsame.symm]

theorem tensorDict_new_ok {columns : Dict (List TensorRow)}
    (h : ∀ c ∈ columns.items, c.2.length = n) :
    ∃ td, TensorDict.new columns n = .ok td ∧ td.columns = columns ∧ td.batchSize = n := by
  unfold TensorDict.new
  rw [dif_pos h]
  exact ⟨_, rfl, rfl, rfl⟩

theorem of_tensorDict_new {columns : Dict (List TensorRow)}
    (h : TensorDict.new columns n = .ok td) : td.columns = columns ∧ td.batchSize = n := by
  unfold TensorDict.new at h
  split at h
  · grind
  · cases h

theorem dataProto_new_ok {nonTensorBatch : Dict (List PyVal)}
    (h : ∀ c ∈ nonTensorBatch.items, c.2.length = td.batchSize) (metaInfo : Dict PyVal) :
    DataProto.new (some td) nonTensorBatch metaInfo
      = .ok { batch := some td, nonTensorBatch := nonTensorBatch, metaInfo := metaInfo } := by
  unfold DataProto.new DataProto.checkConsistency
  have hcheck := forM_eq_ok (fun c : String × List PyVal => pyAssert (c.2.length == td.batchSize)
    s!"key {c.1} length {c.2.length} is not equal to batch size {td.batchSize}")
    nonTensorBatch.items fun c hc => by rw [h c hc, beq_self_eq_true, pyAssert_true]
  dsimp only
  rw [hcheck]
  rfl

theorem map_str_injective : Injective (List.map PyVal.str) :=
  map_injective_iff.2 fun _ _ h => PyVal.str.inj h

/-- A merge with the columns of the first keys is complete exactly if the scores can be written and
the columns keep what was returned; `added` writes over them. -/
theorem completeBatch_iff {merged : Except PyErr (DataProto TensorRow PyVal)}
    {base : Dict (List TensorRow)} {metaInfo : Dict PyVal}
    {added : Dict (List PyVal) → Dict (List PyVal)} {written : String → Option (List PyVal)}
    (hvalid : ∀ i, valid i ≤ r) (hbase : ∀ c ∈ base.items, c.2.length = n)
    (hd : ∀ c ∈ d.items, c.2.length = n)
    (hadded : ∀ {d : Dict (List PyVal)}, (∀ c ∈ d.items, c.2.length = n) →
      ∀ c ∈ (added d).items, c.2.length = n)
    (hget : ∀ d key, (added d).get? key = (written key).or (d.get? key))
    (hwritten : ∀ key column, written key = some column → column.length = n)
    (hmeta : metaInfo.get? "reward_extra_keys" = some (.list ((outcome 0).info.keys.map .str)))
    (hmerged : ∀ result, merged = .ok result ↔ ∃ scores batch columns,
      (range n).mapM (scoreOf r valid outcome) = .ok scores ∧
      TensorDict.new (base.insert "rm_scores" scores) n = .ok batch ∧
      extraColumns np (infosOf n outcome) (outcome 0).info.keys d = .ok columns ∧
      DataProto.new (some batch) (added columns) metaInfo = .ok result) :
    (∃ result, merged = .ok result ∧ CompleteBatch n r valid outcome result) ↔
      Scorable n r outcome ∧ FirstKeys n outcome ∧ ArrayKeeps np n outcome written := by
  have hcolumnOf : ∀ {columns : Dict (List PyVal)},
      extraColumns np (infosOf n outcome) (outcome 0).info.keys d = .ok columns →
      (∀ c ∈ (added columns).items, c.2.length = n) ∧
      ∀ key ∈ (outcome 0).info.keys, ∃ column,
        extraColumn np (infosOf n outcome) key = .ok column ∧
          (added columns).get? key = some ((written key).getD column) := by
    intro columns hcolumns
    have hlen := length_extraColumns hcolumns (by rwa [length_infosOf])
    rw [length_infosOf] at hlen
    refine ⟨hadded hlen, fun key hkey => ?_⟩
    obtain ⟨column, hcolumn, hcolumns⟩ := (extraColumns_spec hcolumns).1 key hkey
    refine ⟨column, hcolumn, ?_⟩
    rw [hget, hcolumns]
    cases written key <;> rfl
  constructor
  · rintro ⟨result, hresult, td, scores', keys, htd, hscores', hkeys, hcomplete⟩
    obtain ⟨scores, batch, columns, hscores, hbatch, hcolumns, hnew⟩ := (hmerged result).1 hresult
    obtain ⟨hbatchColumns, hsize⟩ := of_tensorDict_new hbatch
    obtain ⟨hlen, hcolumnOf⟩ := hcolumnOf hcolumns
    rw [dataProto_new_ok (hsize ▸ hlen), Except.ok.injEq] at hnew
    subst hnew
    obtain rfl : batch = td := Option.some.inj htd
    rw [hbatchColumns, get?_insert, if_pos rfl, Option.some.injEq] at hscores'
    rw [hmeta, Option.some.injEq, PyVal.list.injEq, map_str_injective.eq_iff] at hkeys
    subst hscores' hkeys
    exact ⟨(mapM_scoreOf_iff hvalid).1 ⟨_, hscores⟩,
      (complete_firstKeys_iff hvalid hscores hwritten hcolumnOf).1 hcomplete⟩
  · rintro ⟨hscorable, hfirst, harray⟩
    obtain ⟨scores, hscores⟩ := (mapM_scoreOf_iff hvalid).2 hscorable
    have hexists := (firstKeys_iff.1 ⟨hfirst, harray⟩).2
    obtain ⟨columns, hcolumns⟩ := exists_extraColumns
      (fun key hkey => (hexists key hkey).imp fun _ h => h.1) d
    have hrows : ∀ c ∈ (base.insert "rm_scores" scores).items, c.2.length = n := by
      intro c hc
      rcases mem_items_insert hc with hc | rfl
      · exact hbase c hc
      · have hscores := (forall₂_of_mapM_eq_ok hscores).length_eq
        rwa [length_range, eq_comm] at hscores
    obtain ⟨batch, hbatch, hbatchColumns, hsize⟩ := tensorDict_new_ok hrows
    obtain ⟨hlen, hcolumnOf⟩ := hcolumnOf hcolumns
    refine ⟨_, (hmerged _).2 ⟨scores, batch, columns, hscores, hbatch, hcolumns,
      dataProto_new_ok (hsize ▸ hlen) _⟩, batch, scores, _, rfl, ?_, hmeta, ?_⟩
    · rw [hbatchColumns, get?_insert, if_pos rfl]
    · exact (complete_firstKeys_iff hvalid hscores hwritten hcolumnOf).2 ⟨hfirst, harray⟩

theorem one_le_of_chunkable (h : Chunkable autoPadding workers data) : 1 ≤ data.len := by
  obtain ⟨hk, -, hlen⟩ := h
  by_contra hn
  rw [show data.len = 0 by omega, DataProto.chunkSizes_zero hk, length_nil] at hlen
  omega

theorem computeRmScore_eq_ok {rows : Rows} {scoring : Nat → Row TensorRow PyVal → Scoring}
    (hwf : data.WellFormed) (hb : data.batch = some td)
    (hcut : Chunkable autoPadding workers data)
    (hvalid : (fun i => rows.validResponseLength (data.row i)) = valid)
    (houtcome : (fun i => scoring i (data.row i)) = outcome) (result : DataProto TensorRow PyVal) :
    computeRmScore np rows scoring autoPadding workers data = .ok result ↔
      ∃ scores batch columns,
        (range data.len).mapM (scoreOf rows.responseLength valid outcome) = .ok scores ∧
        TensorDict.new (Dict.empty.insert "rm_scores" scores) data.len = .ok batch ∧
        extraColumns np (infosOf data.len outcome) (outcome 0).info.keys Dict.empty = .ok columns ∧
        DataProto.new (some batch) columns (Dict.ofItems
          [("reward_extra_keys", .list ((outcome 0).info.keys.map .str))]) = .ok result := by
  subst hvalid houtcome
  obtain ⟨chunks, hchunks⟩ := (DataProto.chunk_ok_iff hwf hb).2 hcut
  have hinfos : ((range data.len).map fun i => runSingle (scoring i (data.row i))).map
      (·.rewardExtraInfo) = infosOf data.len fun i => scoring i (data.row i) := by
    rw [map_map]
    exact map_congr_left fun i _ => runSingle_info _
  have hfirst := firstKeys_infosOf (one_le_of_chunkable hcut) fun i => scoring i (data.row i)
  have hvalues : data.rows.map rows.validResponseLength
      = (range data.len).map fun i => rows.validResponseLength (data.row i) := by
    rw [DataProto.rows, map_map]
    rfl
  unfold computeRmScore
  rw [hchunks, ok_bind]
  dsimp only
  rw [outputsFlat_eq scoring hwf hb hchunks, hinfos, hfirst]
  unfold assembleRmScores
  rw [hvalues, map_map]
  simp only [bind_eq_ok, ok_bind]
  constructor
  · rintro ⟨scores, hscores, batch, hbatch, columns, hcolumns, hnew⟩
    exact ⟨scores, batch, columns, scoreRows_eq_ok.1 hscores, hbatch, hcolumns, hnew⟩
  · rintro ⟨scores, batch, columns, hscores, hbatch, hcolumns, hnew⟩
    exact ⟨scores, scoreRows_eq_ok.2 hscores, batch, hbatch, columns, hcolumns, hnew⟩

/-- `compute_rm_score` is complete exactly if the batch can be cut for the workers, the scores can
be written, all samples have the keys of the first one, and `np.array` keeps what was returned. -/
theorem computeRmScore_complete_iff (np : NumPy) (rows : Rows)
    (scoring : Nat → Row TensorRow PyVal → Scoring) (hwf : data.WellFormed)
    (hb : data.batch = some td) (autoPadding : Bool) (workers : Nat)
    (hvalid : (fun i => rows.validResponseLength (data.row i)) = valid)
    (houtcome : (fun i => scoring i (data.row i)) = outcome) :
    (∃ result, computeRmScore np rows scoring autoPadding workers data = .ok result ∧
      CompleteBatch data.len rows.responseLength valid outcome result) ↔
      Chunkable autoPadding workers data ∧ Scorable data.len rows.responseLength outcome ∧
        FirstKeys data.len outcome ∧ ArrayKeeps np data.len outcome fun _ => none := by
  have hle : ∀ i, valid i ≤ rows.responseLength := by
    intro i
    rw [← hvalid]
    exact validResponseLength_le rows _
  by_cases hcut : Chunkable autoPadding workers data
  · rw [and_iff_right hcut]
    exact completeBatch_iff hle (by simp [Dict.empty]) (by simp [Dict.empty]) (fun h => h)
      (fun _ _ => (Option.none_or).symm) (by simp) rfl
      (computeRmScore_eq_ok hwf hb hcut hvalid houtcome)
  · refine iff_of_false ?_ fun h => hcut h.1
    rintro ⟨result, hcall, -⟩
    obtain ⟨chunks, hchunks, -⟩ := bind_eq_ok.1 hcall
    exact hcut ((DataProto.chunk_ok_iff hwf hb).1 ⟨chunks, hchunks⟩)

/-! ## Lemmas: `_postprocess` -/

theorem catRows_spec {rows stacked : List TensorRow} (h : catRows rows = .ok stacked) :
    rows ≠ [] ∧ ∀ row ∈ rows, row.length = (rows.head?.getD []).length := by
  cases rows with
  | nil => cases h
  | cons first rows =>
    refine ⟨cons_ne_nil _ _, fun row hrow => ?_⟩
    unfold catRows at h
    by_cases hall : rows.all (·.length == first.length) = true
    · grind
    · grind

theorem stackInputs_spec (h : stackInputs inputs = .ok td) :
    1 ≤ inputs.length ∧ td.batchSize = inputs.length ∧
      ∀ input ∈ inputs, input.promptIds.length = stackedPromptLength inputs ∧
        input.responseMask.length = stackedResponseLength inputs := by
  obtain ⟨promptIds, hprompts, h⟩ := bind_eq_ok.1 h
  obtain ⟨_, -, h⟩ := bind_eq_ok.1 h
  obtain ⟨responseMask, hmask, h⟩ := bind_eq_ok.1 h
  obtain ⟨_, -, h⟩ := bind_eq_ok.1 h
  obtain ⟨_, -, h⟩ := bind_eq_ok.1 h
  obtain ⟨_, -, h⟩ := bind_eq_ok.1 h
  obtain ⟨_, -, h⟩ := bind_eq_ok.1 h
  obtain ⟨_, -, h⟩ := bind_eq_ok.1 h
  obtain ⟨_, -, h⟩ := bind_eq_ok.1 h
  obtain ⟨hne, hpromptLength⟩ := catRows_spec hprompts
  obtain ⟨-, hresponseLength⟩ := catRows_spec hmask
  refine ⟨?_, (of_tensorDict_new h).2, fun input hinput => ⟨?_, ?_⟩⟩
  · grind
  · rw [hpromptLength _ (mem_map_of_mem hinput), head?_map]
    rfl
  · rw [hresponseLength _ (mem_map_of_mem hinput), head?_map]
    rfl

/-- The number of tokens of the response of sample `i`. -/
def validAt (inputs : List InternalAgentLoopOutput) (i : Nat) : Nat :=
  (validResponseLengths inputs).getD i 0

theorem validResponseLengths_eq (inputs : List InternalAgentLoopOutput) :
    validResponseLengths inputs = (range inputs.length).map (validAt inputs) := by
  have h := map_getD_range (validResponseLengths inputs) 0
  rw [validResponseLengths, length_map] at h
  exact h.symm

theorem validAt_le (h : stackInputs inputs = .ok td) (i : Nat) :
    validAt inputs i ≤ stackedResponseLength inputs := by
  unfold validAt validResponseLengths
  rw [getD_eq_getElem?_getD, getElem?_map]
  cases hi : inputs[i]? with
  | none => exact Nat.zero_le _
  | some input =>
    obtain ⟨hprompt, hresponse⟩ := (stackInputs_spec h).2.2 input (mem_of_getElem? hi)
    have hlen := input.length_mask
    refine count_le_length.trans ?_
    rw [length_drop]
    omega

theorem get?_addExtraFields (inputs : List InternalAgentLoopOutput) (d : Dict (List PyVal))
    (key : String) :
    (addExtraFields inputs d).get? key = (overwritten inputs key).or (d.get? key) := by
  have hnodup : (((allKeys inputs).map fun key => (key, extraField inputs key)).map Prod.fst).Nodup := by
    rw [map_map]
    exact (map_id _).symm ▸ nodup_dedup _
  have hany : (inputs.map (·.multiModalInputs)).any (!isNone ·)
      = inputs.any (!isNone ·.multiModalInputs) := by
    rw [any_map]
    rfl
  unfold addExtraFields overwritten
  rw [get?_foldl_insert hnodup, lookup_map_pair, hany]
  by_cases hkey : key ∈ allKeys inputs
  · grind
  · rw [if_neg hkey]
    by_cases hmm : inputs.any (!isNone ·.multiModalInputs) = true
    · rw [if_pos hmm, get?_insert]
      by_cases heq : key = "multi_modal_inputs"
      · grind
      · grind
    · grind

theorem length_addExtraFields (hd : ∀ c ∈ d.items, c.2.length = inputs.length) :
    ∀ c ∈ (addExtraFields inputs d).items, c.2.length = inputs.length := by
  intro c hc
  rcases Dict.mem_items_foldl_insert hc with hc | hc
  · split at hc
    · rcases mem_items_insert hc with hc | rfl
      · exact hd c hc
      · exact length_map _
    · exact hd c hc
  · obtain ⟨key, -, rfl⟩ := mem_map.1 hc
    exact length_map _

theorem length_overwritten {column : List PyVal} (h : overwritten inputs key = some column) :
    column.length = inputs.length := by
  unfold overwritten at h
  split at h
  · cases h
    exact length_map _
  · grind

/-- The inputs of `_postprocess`, after the scoring of each. -/
def scoredInputs (outcome : Nat → Scoring) (outputs : List InternalAgentLoopOutput) :
    List InternalAgentLoopOutput :=
  outputs.mapIdx fun i output => computeScore true (outcome i) output

theorem length_scoredInputs (outcome : Nat → Scoring) (outputs : List InternalAgentLoopOutput) :
    (scoredInputs outcome outputs).length = outputs.length := length_mapIdx

section Postprocess

variable {outcome : Nat → Scoring} {outputs : List InternalAgentLoopOutput}

variable {inputs : List InternalAgentLoopOutput}

section

variable (hunscored : ∀ output ∈ outputs, output.rewardScore = .none)
include hunscored

theorem getElem_scoredInputs {i : Nat} (hi : i < (scoredInputs outcome outputs).length) :
    (scoredInputs outcome outputs)[i].rewardScore = (runSingle (outcome i)).rewardScore ∧
      rewardExtraInfo (scoredInputs outcome outputs)[i] = .ok (outcome i).info := by
  have hi' : i < outputs.length := by rwa [length_scoredInputs] at hi
  have hnone := hunscored _ (getElem_mem hi')
  have hget : (scoredInputs outcome outputs)[i] = computeScore true (outcome i) outputs[i] :=
    getElem_mapIdx
  rw [hget]
  unfold computeScore
  rw [hnone]
  refine ⟨rfl, ?_⟩
  unfold rewardExtraInfo
  rw [get?_insert, if_pos rfl, runSingle_info]
  exact congrArg Except.ok (ofItems_items _)

theorem rewardScores_eq : (scoredInputs outcome outputs).map (·.rewardScore)
      = (range (scoredInputs outcome outputs).length).map fun i =>
          (runSingle (outcome i)).rewardScore := by
  apply ext_getElem
  · simp
  · intro i h1 h2
    rw [length_map] at h1
    rw [getElem_map, getElem_map, getElem_range]
    exact (getElem_scoredInputs hunscored h1).1

theorem mapM_rewardExtraInfo : (scoredInputs outcome outputs).mapM rewardExtraInfo
      = .ok (infosOf (scoredInputs outcome outputs).length outcome) := by
  apply mapM_eq_ok_of_forall₂
  refine forall₂_iff_get.2 ⟨(length_infosOf _ _).symm, fun i h1 h2 => ?_⟩
  rw [get_eq_getElem, get_eq_getElem, (getElem_scoredInputs hunscored h1).2]
  unfold infosOf
  rw [getElem_map, getElem_range]

end

theorem isNone_eq_false {v : PyVal} {entry : Option ℚ} (h : scoreEntry v = .ok entry) :
    isNone v = false := by
  cases v with
  | none => cases h
  | _ => rfl

theorem allScored_of_scorable (hunscored : ∀ output ∈ outputs, output.rewardScore = .none)
    {r : Nat} (h : Scorable (scoredInputs outcome outputs).length r outcome) :
    allScored (scoredInputs outcome outputs) = true := by
  unfold allScored
  rw [all_eq_true]
  intro input hinput
  obtain ⟨i, hi, rfl⟩ := getElem_of_mem hinput
  rw [(getElem_scoredInputs hunscored hi).1, Bool.not_eq_true']
  cases hreturned : (outcome i).returned with
  | none =>
    rw [runSingle_of_failed hreturned]
    rfl
  | some p =>
    obtain ⟨entry, hentry⟩ := h.2 i hi p.1 p.2 hreturned
    rw [(runSingle_of_returned hreturned).1]
    exact isNone_eq_false hentry

theorem postprocess_eq_ok {np : NumPy} (hinputs : scoredInputs outcome outputs = inputs)
    (hunscored : ∀ output ∈ outputs, output.rewardScore = .none)
    {inputNonTensorBatch : Dict (List PyVal)} {td : TensorDict TensorRow}
    (hstack : stackInputs inputs = .ok td) (hscored : allScored inputs = true)
    (result : DataProto TensorRow PyVal) :
    postprocess np true inputs inputNonTensorBatch = .ok result ↔
      ∃ scores batch columns,
        (range inputs.length).mapM (scoreOf (stackedResponseLength inputs) (validAt inputs)
          outcome) = .ok scores ∧
        TensorDict.new (td.columns.insert "rm_scores" scores) inputs.length = .ok batch ∧
        extraColumns np (infosOf inputs.length outcome) (outcome 0).info.keys
          (Dict.ofItems [("__num_turns__", inputs.map fun input => .int input.numTurns)])
            = .ok columns ∧
        DataProto.new (some batch) (addExtraFields inputs columns) (Dict.ofItems
          [("metrics", .list (inputs.map (·.metrics))),
            ("reward_extra_keys", .list ((outcome 0).info.keys.map .str))]) = .ok result := by
  have hfirst := firstKeys_infosOf (stackInputs_spec hstack).1 outcome
  have hinfos : inputs.mapM rewardExtraInfo = .ok (infosOf inputs.length outcome) := by
    rw [← hinputs]
    exact mapM_rewardExtraInfo hunscored
  have hscores : inputs.map (·.rewardScore)
      = (range inputs.length).map fun i => (runSingle (outcome i)).rewardScore := by
    rw [← hinputs]
    exact rewardScores_eq hunscored
  unfold postprocess addRmScores
  rw [hstack, hinfos, hscores, validResponseLengths_eq]
  simp only [ok_bind, hfirst, hscored, if_true, bind_eq_ok, except_map_eq_ok,
    scoreRows_eq_ok]
  constructor
  · simp
  · simp

theorem not_completeBatch_of_unscored {np : NumPy} {inputNonTensorBatch : Dict (List PyVal)}
    {result : DataProto TensorRow PyVal} (hscored : ¬allScored inputs = true)
    (h : postprocess np true inputs inputNonTensorBatch = .ok result) {n r : Nat}
    {valid : Nat → Nat} : ¬CompleteBatch n r valid outcome result := by
  unfold postprocess at h
  simp only [bind_eq_ok, if_neg hscored] at h
  obtain ⟨_, -, _, -, _, -, _, -, keys, -, _, -, hnew⟩ := h
  obtain ⟨_, -, hnew⟩ := bind_eq_ok.1 hnew
  cases hnew
  rintro ⟨td, scores, keys, -, -, hkeys, -⟩
  cases hkeys

/-- `_postprocess` is complete exactly if the scores can be written, all samples have the keys of
the first one, and `np.array` and the columns that are written over keep what was returned. -/
theorem postprocess_complete_iff (np : NumPy) (hinputs : scoredInputs outcome outputs = inputs)
    (hunscored : ∀ output ∈ outputs, output.rewardScore = .none)
    (inputNonTensorBatch : Dict (List PyVal)) {td : TensorDict TensorRow}
    (hstack : stackInputs inputs = .ok td) :
    (∃ result, postprocess np true inputs inputNonTensorBatch = .ok result ∧
      CompleteBatch inputs.length (stackedResponseLength inputs) (validAt inputs) outcome result) ↔
      Scorable inputs.length (stackedResponseLength inputs) outcome ∧
        FirstKeys inputs.length outcome ∧
        ArrayKeeps np inputs.length outcome (overwritten inputs) := by
  by_cases hscored : allScored inputs = true
  · refine completeBatch_iff (validAt_le hstack) (fun c hc => ?_) (fun c hc => ?_)
      length_addExtraFields (get?_addExtraFields inputs) (fun _ _ => length_overwritten) rfl
      (postprocess_eq_ok hinputs hunscored hstack hscored)
    · rw [td.rows_eq c hc, (stackInputs_spec hstack).2.1]
    · obtain rfl : c = ("__num_turns__", _) := mem_singleton.1 hc
      exact length_map _
  · refine iff_of_false ?_ fun h => hscored ?_
    · rintro ⟨result, hcall, hcomplete⟩
      exact not_completeBatch_of_unscored hscored hcall hcomplete
    · rw [← hinputs] at h ⊢
      exact allScored_of_scorable hunscored h.1

end Postprocess

/-! ## Top theorem -/

/-- **Rate-limited rewards.**  The three places that merge the results of a batch are complete
exactly if the scores are numbers and the dictionaries of the samples have the same keys
(`__call__`), or the keys of the first one with nothing that was returned beyond them
(`compute_rm_score` and `_postprocess`). -/
theorem complete_iff (np : NumPy) (rows : Rows) (scoring : Nat → Row TensorRow PyVal → Scoring)
    (data : DataProto TensorRow PyVal) (hwf : data.WellFormed) (td : TensorDict TensorRow)
    (hb : data.batch = some td) (hfresh : td.columns.get? "rm_scores" = none) (autoPadding : Bool)
    (workers : Nat) (outcome : Nat → Scoring) (outputs : List InternalAgentLoopOutput)
    (hunscored : ∀ output ∈ outputs, output.rewardScore = .none) (stacked : TensorDict TensorRow)
    (hstack : stackInputs (scoredInputs outcome outputs) = .ok stacked)
    (inputNonTensorBatch : Dict (List PyVal)) :
    ((∃ scores lists, call rows scoring true data
        = .ok { rewardTensor := scores, rewardExtraInfo := some lists } ∧
      Complete data.len rows.responseLength (fun i => rows.validResponseLength (data.row i))
        (fun i => scoring i (data.row i)) scores (lists.map Prod.fst) (lists.lookup ·)) ↔
      Scorable data.len rows.responseLength (fun i => scoring i (data.row i)) ∧
        SameKeys data.len fun i => scoring i (data.row i)) ∧
    ((∃ result, computeRmScore np rows scoring autoPadding workers data = .ok result ∧
      CompleteBatch data.len rows.responseLength (fun i => rows.validResponseLength (data.row i))
        (fun i => scoring i (data.row i)) result) ↔
      Chunkable autoPadding workers data ∧
        Scorable data.len rows.responseLength (fun i => scoring i (data.row i)) ∧
        FirstKeys data.len (fun i => scoring i (data.row i)) ∧
        ArrayKeeps np data.len (fun i => scoring i (data.row i)) fun _ => none) ∧
    ((∃ result, postprocess np true (scoredInputs outcome outputs) inputNonTensorBatch
        = .ok result ∧
      CompleteBatch outputs.length (stackedResponseLength (scoredInputs outcome outputs))
        (validAt (scoredInputs outcome outputs)) outcome result) ↔
      Scorable outputs.length (stackedResponseLength (scoredInputs outcome outputs)) outcome ∧
        FirstKeys outputs.length outcome ∧
        ArrayKeeps np outputs.length outcome (overwritten (scoredInputs outcome outputs))) := by
  have hfresh : data.batch.bind (·.columns.get? "rm_scores") = none := by rw [hb]; exact hfresh
  have hpost := postprocess_complete_iff np rfl hunscored inputNonTensorBatch hstack
  rw [length_scoredInputs] at hpost
  exact ⟨call_complete_iff rows scoring hfresh,
    computeRmScore_complete_iff np rows scoring hwf hb autoPadding workers rfl rfl, hpost⟩

/-- `np.array` of values of one type. -/
def sameType : NumPy where
  array := fun values => .ok values
  length_array := fun h => by rw [← Except.ok.inj h]

/-- Prompts of one token and responses of two, the second one padding. -/
def twoTokens : Rows where
  promptLength := 1
  responseLength := 2
  attentionMask := fun _ => [true, true, false]
  length_mask := fun _ => rfl

def twoSamples : DataProto TensorRow PyVal where
  batch := some {
    batchSize := 2
    columns := Dict.ofItems [("responses", [[some 5, some 0], [some 6, some 0]])]
    rows_eq := by decide }
  nonTensorBatch := Dict.empty
  metaInfo := Dict.empty

def unscoredOutput : InternalAgentLoopOutput where
  promptIds := [some 4]
  responseIds := [some 5, some 0]
  inputIds := [some 4, some 5, some 0]
  positionIds := [some 0, some 1, some 1]
  responseMask := [some 1, some 0]
  attentionMask := [true, true, false]
  responseLogprobs := none
  routedExperts := none
  teacherLogprobs := none
  teacherIds := none
  multiModalInputs := .none
  rewardScore := .none
  numTurns := 2
  metrics := .dict []
  extraFields := Dict.empty
  length_mask := rfl

/-- The second of two scorings times out. -/
def timeoutSecond (i : Nat) : Scoring := if i = 0 then .returns (.float 1) else .timeout

theorem lt_two {i : Nat} (hi : i < 2) : i = 0 ∨ i = 1 := by omega

theorem scorable_timeoutSecond : Scorable 2 2 timeoutSecond := by
  refine ⟨Or.inr (by decide), fun i hi score info h => ?_⟩
  rcases lt_two hi with rfl | rfl
  · cases h
    exact ⟨_, rfl⟩
  · cases h

theorem firstKeys_timeoutSecond : FirstKeys 2 timeoutSecond := by
  intro i hi
  rcases lt_two hi with rfl | rfl
  · exact ⟨fun _ h => h, fun score info h key hkey => by cases h; exact hkey⟩
  · refine ⟨fun key hkey => ?_, fun score info h => by cases h⟩
    obtain rfl : key = "acc" := mem_singleton.1 hkey
    decide

theorem arrayKeeps_timeoutSecond {written : String → Option (List PyVal)} (h : written "acc" = none) :
    ArrayKeeps sameType 2 timeoutSecond written := by
  intro key hkey
  obtain rfl : key = "acc" := mem_singleton.1 hkey
  refine ⟨_, rfl, fun i hi score info value hreturned hvalue => ?_⟩
  rw [h]
  rcases lt_two hi with rfl | rfl
  · cases hreturned
    cases hvalue
    exact ⟨_, rfl, Or.inl rfl⟩
  · cases hreturned

/-- A timeout after a sample with the one key `acc`, which every failure has. -/
theorem complete_timeoutSecond :
    (∃ result, computeRmScore sameType twoTokens (fun i _ => timeoutSecond i) false 2 twoSamples
        = .ok result ∧ CompleteBatch 2 2 (fun _ => 1) timeoutSecond result) ∧
    (∃ result, postprocess sameType true
        (scoredInputs timeoutSecond [unscoredOutput, unscoredOutput]) Dict.empty = .ok result ∧
      CompleteBatch 2 2 (validAt (scoredInputs timeoutSecond [unscoredOutput, unscoredOutput]))
        timeoutSecond result) := by
  have h := complete_iff sameType twoTokens (fun i _ => timeoutSecond i) twoSamples
    (fun c hc => absurd hc not_mem_nil) _ rfl rfl false 2 timeoutSecond
    [unscoredOutput, unscoredOutput] (fun output h => by
      rcases mem_cons.1 h with rfl | h
      · rfl
      · rw [mem_singleton.1 h]
        rfl) _ rfl Dict.empty
  exact ⟨h.2.1.mpr ⟨⟨by decide, Or.inr ⟨1, rfl⟩, rfl⟩, scorable_timeoutSecond, firstKeys_timeoutSecond,
      arrayKeeps_timeoutSecond rfl⟩,
    h.2.2.mpr ⟨scorable_timeoutSecond, firstKeys_timeoutSecond, arrayKeeps_timeoutSecond rfl⟩⟩

/-- The first of two scorings times out. -/
def timeoutFirst (i : Nat) : Scoring := if i = 0 then .timeout else .returns (.float 1)

/-- The first sample has the key `timeout`: the list of `__call__` has one entry of two, and the
others raise. -/
theorem not_complete_timeoutFirst :
    (∃ scores, call twoTokens (fun i _ => timeoutFirst i) true twoSamples
      = .ok { rewardTensor := scores
              rewardExtraInfo := some
                [("timeout", [.bool true]), ("acc", [.float 0, .float 1])] }) ∧
    computeRmScore sameType twoTokens (fun i _ => timeoutFirst i) false 2 twoSamples
      = .error (.keyError "timeout") ∧
    postprocess sameType true (scoredInputs timeoutFirst [unscoredOutput, unscoredOutput])
      Dict.empty = .error (.keyError "timeout") :=
  ⟨⟨_, rfl⟩, rfl, rfl⟩

end RewardLoop

end Verl
