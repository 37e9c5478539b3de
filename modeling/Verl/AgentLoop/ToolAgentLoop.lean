import Verl.Lib.Dict
import Verl.Lib.PySlice

/-! # The tool agent loop (`verl/experimental/agent_loop/tool_agent_loop.py`)

A conversation is a list of tokens that the server and the tools extend in turn, next to a mask of
who wrote a token and the log-probs of the server.  `run` loops over the states until one of its
handlers terminates, then cuts the response off the conversation by the length of the mask.

    PENDING ─prompt─▶ GENERATING ─generation─▶ PROCESSING_TOOLS ─tools─▶ GENERATING
                          └──▶ TERMINATED ◀──────────┘

A `Turn` is one pass of the loop with what the code outside answers in it: the tokenizer, the
server, the tool parser and the tools.  `F` are floats, `ι` images, `ρ` the routed experts of a
token.

* `KeepsStep`: the turns for which the output is right.  A response without tokens is cut off at
  `-0`, which is all of the conversation; log-probs that begin late are shorter than the mask. -/

namespace Verl.AgentLoop

open List

variable {F ι ρ : Type}

inductive AgentState where
  | pending
  | generating
  | processingTools
  | terminated
  deriving DecidableEq

structure FunctionCall where
  name : String
  arguments : String
  deriving DecidableEq

structure ToolResponse (ι : Type) where
  text : Option String := none
  image : Option (List (Option ι)) := none
  video : Option (List (Option ι)) := none

inductive ContentPart where
  | image
  | video
  | text (text : String)

inductive Content where
  | text (text : String)
  | parts (parts : List ContentPart)

structure Message where
  role : String
  content : Content

structure TokenOutput (F ρ : Type) where
  tokenIds : List Nat
  logProbs : Option (List F) := none
  routedExperts : Option (List ρ) := none
  numPreempted : Option Int := none
  extraFields : Dict PyVal := .empty

/-- What a tool does when it is executed. -/
inductive ToolRun (F ι : Type) where
  | returned (response : ToolResponse ι) (reward : Option F)
  | raised (error : String)

/-- `repr` is Python's for strings, `jsonError` the text of what `json.loads` raises, if it does. -/
structure Config (F : Type) where
  maxUserTurns : Option Int
  maxAssistantTurns : Option Int
  maxParallelCalls : Int
  maxToolResponseLength : Nat
  toolResponseTruncateSide : String
  responseLength : Nat
  tools : List String
  hasImageProcessor : Bool
  zero : F
  repr : String → String
  jsonError : String → Option String

structure AgentData (F ι ρ : Type) where
  messages : List Message
  imageData : Option (List ι)
  activeTools : List String
  promptIds : List Nat := []
  responseIds : List Nat := []
  responseMask : List Nat := []
  responseLogprobs : List F := []
  toolRewards : List F := []
  userTurns : Nat := 0
  assistantTurns : Nat := 0
  toolCalls : List FunctionCall := []
  routedExperts : Option (List ρ) := none
  numPreempted : Option Int := none
  extraFields : Dict PyVal := .empty

structure AgentLoopOutput (F ι ρ : Type) where
  promptIds : List Nat
  responseIds : List Nat
  responseMask : List Nat
  responseLogprobs : Option (List F)
  images : Option (List ι)
  numTurns : Nat
  routedExperts : Option (List ρ)
  numPreempted : Option Int
  toolRewards : List F
  extraFields : Dict PyVal

/-! ## The tools -/

/-- `bool(xs)` for a list that may be missing. -/
def given {α : Type} : Option (List α) → Bool
  | some (_ :: _) => true
  | _ => false

/-- A tool's text, cut to the length that is allowed. -/
def truncateText (cfg : Config F) (text : String) : String :=
  let max := cfg.maxToolResponseLength
  if text.length ≤ max then text
  else if cfg.toolResponseTruncateSide = "left" then
    String.ofList (text.toList.take max) ++ "...(truncated)"
  else if cfg.toolResponseTruncateSide = "right" then
    "(truncated)..." ++ String.ofList (plainSlice text.toList (some (-(max : Int))) none)
  else
    let length := max / 2
    String.ofList (text.toList.take length) ++ "...(truncated)..." ++
      String.ofList (plainSlice text.toList (some (-(length : Int))) none)

/-- `_call_tool`; `run` is what the tool does if it is executed. -/
def callTool (cfg : Config F) (activeTools : List String) (toolCall : FunctionCall)
    (run : ToolRun F ι) : ToolResponse ι × Option F :=
  if toolCall.name ∉ activeTools then
    let available := "[" ++ ", ".intercalate (activeTools.map cfg.repr) ++ "]"
    ({ text := some ("Unknown function '" ++ toolCall.name ++ "'. Available tools: " ++ available) },
      some cfg.zero)
  else match cfg.jsonError toolCall.arguments with
    | some e =>
      ({ text := some ("Invalid JSON in arguments for '" ++ toolCall.name ++ "': " ++ e) },
        some cfg.zero)
    | none =>
      match run with
      | .raised e =>
        ({ text := some ("Error executing tool '" ++ toolCall.name ++ "': " ++ e) }, some cfg.zero)
      | .returned response reward =>
        ({ response with text := response.text.map (truncateText cfg) }, reward)

/-- The message of a tool response. -/
def toolMessage (cfg : Config F) (response : ToolResponse ι) : Except PyErr Message :=
  if given response.image || given response.video then
    if cfg.hasImageProcessor then
      .ok
        { role := "tool"
          content := .parts ((if given response.image then [.image] else []) ++
            (if given response.video then [.video] else []) ++
            match response.text with
            | some text => if text = "" then [] else [.text text]
            | none => []) }
    else .error (.valueError
      ("Multimedia data can only be processed by `processor`, but the processor is None. " ++
        "This error is often caused if you are using a LLM model but your tool returns multimodal " ++
        "data. Plase use a vlm as the base model."))
  else .ok { role := "tool", content := .text (response.text.getD "") }

/-- What the loop over the tool responses collects. -/
structure ToolResults (F ι : Type) where
  addMessages : List Message
  newImagesThisTurn : List ι
  toolRewards : List F

def addToolResponse (cfg : Config F) (results : ToolResults F ι)
    (response : ToolResponse ι × Option F) : Except PyErr (ToolResults F ι) := do
  let message ← toolMessage cfg response.1
  if given response.1.video then
    .error (.notImplementedError
      "Multimedia type 'video' is not currently supported. Only 'image' is supported.")
  else
    return {
      addMessages := results.addMessages ++ [message]
      newImagesThisTurn :=
        results.newImagesThisTurn ++ (response.1.image.getD []).filterMap id
      toolRewards := results.toolRewards ++ response.2.toList }

/-! ## The handlers -/

/-- `limit and n >= limit`. -/
def limitReached (limit : Option Int) (n : Nat) : Bool :=
  match limit with
  | some k => k != 0 && decide (k ≤ n)
  | none => false

/-- `_handle_pending_state`, with what `apply_chat_template` returns. -/
def handlePendingState (data : AgentData F ι ρ) (promptIds : List Nat) :
    AgentState × AgentData F ι ρ :=
  (.generating, { data with promptIds := promptIds })

/-- `_handle_generating_state`, with what the server and the tool parser return. -/
def handleGeneratingState (cfg : Config F) (data : AgentData F ι ρ) (output : TokenOutput F ρ)
    (toolCalls : List FunctionCall) : AgentState × AgentData F ι ρ :=
  let data := { data with
    numPreempted := some (match data.numPreempted with
      | none => output.numPreempted.getD (-1)
      | some n => n + output.numPreempted.getD 0)
    extraFields :=
      if data.extraFields.items.isEmpty then output.extraFields
      else match output.extraFields.get? "max_global_steps" with
        | some steps =>
          if steps.truthy then data.extraFields.insert "max_global_steps" steps
          else data.extraFields
        | none => data.extraFields
    assistantTurns := data.assistantTurns + 1
    responseIds := output.tokenIds
    promptIds := data.promptIds ++ output.tokenIds
    responseMask := data.responseMask ++ List.replicate output.tokenIds.length 1
    responseLogprobs := data.responseLogprobs ++ output.logProbs.getD []
    routedExperts := output.routedExperts.or data.routedExperts }
  if cfg.responseLength ≤ data.responseMask.length then (.terminated, data)
  else if limitReached cfg.maxAssistantTurns data.assistantTurns then (.terminated, data)
  else if limitReached cfg.maxUserTurns data.userTurns then (.terminated, data)
  else
    let data := { data with toolCalls := toolCalls }
    if toolCalls.isEmpty then (.terminated, data) else (.processingTools, data)

/-- `_handle_processing_tools_state`, with what the tools do and what the tokenizer makes of their
messages. -/
def handleProcessingToolsState (cfg : Config F) (data : AgentData F ι ρ) (runs : Nat → ToolRun F ι)
    (responseIds : List Nat) : Except PyErr (AgentState × AgentData F ι ρ) := do
  let calls := plainSlice data.toolCalls none (some cfg.maxParallelCalls)
  let responses := calls.mapIdx fun i toolCall => callTool cfg data.activeTools toolCall (runs i)
  let results ← responses.foldlM (addToolResponse cfg)
    { addMessages := [], newImagesThisTurn := [], toolRewards := data.toolRewards }
  let data := { data with
    toolRewards := results.toolRewards
    messages := data.messages ++ results.addMessages }
  if cfg.responseLength ≤ data.responseMask.length + responseIds.length then
    return (.terminated, data)
  else
    return (.generating,
      { data with
        imageData :=
          if results.newImagesThisTurn.isEmpty then data.imageData
          else some (data.imageData.getD [] ++ results.newImagesThisTurn)
        promptIds := data.promptIds ++ responseIds
        responseMask := data.responseMask ++ List.replicate responseIds.length 0
        responseLogprobs :=
          if data.responseLogprobs.isEmpty then []
          else data.responseLogprobs ++ List.replicate responseIds.length cfg.zero
        userTurns := data.userTurns + 1 })

/-! ## The loop -/

/-- A pass of the loop, with what the code outside answers. -/
inductive Turn (F ι ρ : Type) where
  | prompt (promptIds : List Nat)
  | generation (output : TokenOutput F ρ) (toolCalls : List FunctionCall)
  | tools (runs : Nat → ToolRun F ι) (responseIds : List Nat)

/-- The loop over the states; `none` where the turns are not those of a run that ends. -/
def loop (cfg : Config F) : AgentState → AgentData F ι ρ → List (Turn F ι ρ) →
    Except PyErr (Option (AgentData F ι ρ))
  | .terminated, data, [] => .ok (some data)
  | .pending, data, .prompt promptIds :: turns =>
    let next := handlePendingState data promptIds
    loop cfg next.1 next.2 turns
  | .generating, data, .generation output toolCalls :: turns =>
    let next := handleGeneratingState cfg data output toolCalls
    loop cfg next.1 next.2 turns
  | .processingTools, data, .tools runs responseIds :: turns => do
    let next ← handleProcessingToolsState cfg data runs responseIds
    loop cfg next.1 next.2 turns
  | _, _, _ => .ok none

/-- `extra_info.tool_selection` picks from the tools. -/
def selectTools (cfg : Config F) (toolSelection : Option (List String)) : List String :=
  if given toolSelection && !cfg.tools.isEmpty then
    ((toolSelection.getD []).filter (· ∈ cfg.tools)).eraseDups
  else cfg.tools

/-- The end of `run`. -/
def finalize (cfg : Config F) (data : AgentData F ι ρ) : AgentLoopOutput F ι ρ :=
  let responseIds := plainSlice data.promptIds (some (-(data.responseMask.length : Int))) none
  let promptIds := plainSlice data.promptIds none
    (some ((data.promptIds.length : Int) - data.responseMask.length))
  { promptIds := promptIds
    responseIds := responseIds.take cfg.responseLength
    responseMask := data.responseMask.take cfg.responseLength
    responseLogprobs :=
      if data.responseLogprobs.isEmpty then none
      else some (data.responseLogprobs.take cfg.responseLength)
    images := data.imageData
    numTurns := data.userTurns + data.assistantTurns + 1
    routedExperts := data.routedExperts.map (·.take (promptIds.length + cfg.responseLength))
    numPreempted := data.numPreempted
    toolRewards := data.toolRewards
    extraFields := data.extraFields }

/-- `ToolAgentLoop.run` on the messages and images of a sample. -/
def run (cfg : Config F) (messages : List Message) (images : Option (List ι))
    (toolSelection : Option (List String)) (turns : List (Turn F ι ρ)) :
    Except PyErr (Option (AgentLoopOutput F ι ρ)) := do
  let data ← loop cfg .pending
    { messages := messages, imageData := images, activeTools := selectTools cfg toolSelection } turns
  return data.map (finalize cfg)

/-! ## What is said in a run -/

namespace Turn

/-- The tokens of a turn, with whether the server wrote them. -/
def spoken : Turn F ι ρ → List (Nat × Bool)
  | prompt _ => []
  | generation output _ => output.tokenIds.map fun token => (token, true)
  | tools _ responseIds => responseIds.map fun token => (token, false)

/-- The server returns log-probs. -/
def hasLogProbs : Turn F ι ρ → Bool
  | generation output _ => given output.logProbs
  | _ => false

/-- Log-probs are those of the tokens. -/
def WellFormed : Turn F ι ρ → Prop
  | generation output _ => given output.logProbs = true →
      (output.logProbs.getD []).length = output.tokenIds.length
  | _ => True

end Turn

/-- The turns of a run whose tokens enter the conversation: not a tool response at the end, which
is dropped because it is too long. -/
def kept : List (Turn F ι ρ) → List (Turn F ι ρ)
  | [] => []
  | [.tools _ _] => []
  | turn :: turns => turn :: kept turns

/-- Everything that is said after the prompt. -/
def spoken (turns : List (Turn F ι ρ)) : List (Nat × Bool) := (kept turns).flatMap Turn.spoken

/-- What is said with an entry in the log-probs, once these have begun or not. -/
def logged : Bool → List (Turn F ι ρ) → List (Nat × Bool)
  | _, [] => []
  | begun, turn :: turns =>
    match turn with
    | .prompt _ => logged begun turns
    | .generation output _ =>
      if given output.logProbs then turn.spoken ++ logged true turns else logged begun turns
    | .tools _ _ => (if begun then turn.spoken else []) ++ logged begun turns

/-- What the output of a run is, for the prompt and the turns after it. -/
structure OutputInStep (cfg : Config F) (promptIds : List Nat) (turns : List (Turn F ι ρ))
    (output : AgentLoopOutput F ι ρ) : Prop where
  mask_length : output.responseMask.length = output.responseIds.length
  logprobs_length : ∀ logprobs, output.responseLogprobs = some logprobs →
    logprobs.length = output.responseIds.length
  length_le : output.responseIds.length ≤ cfg.responseLength
  prompt : output.promptIds = promptIds
  isPrefix : output.promptIds ++ output.responseIds <+: promptIds ++ (spoken turns).map Prod.fst
  mask : ∀ (i : Nat) bit, output.responseMask[i]? = some bit →
    ∃ token byServer, (spoken turns)[i]? = some (token, byServer) ∧
      output.responseIds[i]? = some token ∧ (bit = 1 ↔ byServer = true)

/-- The runs whose output is right: something is said, and where there are log-probs, all that is
said has them, or enough of it. -/
structure KeepsStep (cfg : Config F) (promptIds : List Nat) (turns : List (Turn F ι ρ)) : Prop where
  tokens : (∃ turn ∈ kept turns, turn.spoken ≠ []) ∨ promptIds = [] ∨ cfg.responseLength = 0
  logprobs : (∀ turn ∈ kept turns, turn.hasLogProbs = false) ∨ logged false (kept turns) = spoken turns ∨
    cfg.responseLength ≤ (logged false (kept turns)).length

/-! ## Lemmas: the three lists -/

/-- The lists after the turns `done`. -/
structure InStep (promptIds : List Nat) (done : List (Turn F ι ρ)) (data : AgentData F ι ρ) :
    Prop where
  prompt : data.promptIds = promptIds ++ (done.flatMap Turn.spoken).map Prod.fst
  mask : data.responseMask = (done.flatMap Turn.spoken).map fun t => if t.2 then 1 else 0
  logprobs : data.responseLogprobs.length = (logged false done).length
  begun : data.responseLogprobs = [] ↔ ∀ turn ∈ done, turn.hasLogProbs = false

variable {promptIds : List Nat} {done : List (Turn F ι ρ)} {data : AgentData F ι ρ} {cfg : Config F}

theorem given_eq_true {α : Type} {xs : Option (List α)} : given xs = true ↔ xs.getD [] ≠ [] := by
  cases xs with
  | none => simp [given]
  | some xs => cases xs <;> simp [given]

/-- Log-probs have begun after `done`. -/
def begun (done : List (Turn F ι ρ)) : Bool := done.any Turn.hasLogProbs

theorem begun_cons (turn : Turn F ι ρ) (done : List (Turn F ι ρ)) :
    begun (turn :: done) = (turn.hasLogProbs || begun done) := any_cons

theorem begun_eq_false : begun done = false ↔ ∀ turn ∈ done, turn.hasLogProbs = false := by
  unfold begun
  simp

variable (b : Bool) (output : TokenOutput F ρ) (toolCalls : List FunctionCall)
  (runs : Nat → ToolRun F ι) (responseIds : List Nat) (byServer : Bool) (ids : List Nat)

theorem logged_generation (turns : List (Turn F ι ρ)) :
    logged b (.generation output toolCalls :: turns) =
      if given output.logProbs then
        (Turn.generation (ι := ι) output toolCalls).spoken ++ logged true turns
      else logged b turns := rfl

theorem logged_tools (turns : List (Turn F ι ρ)) :
    logged b (.tools runs responseIds :: turns) =
      (if b then (Turn.tools (ρ := ρ) runs responseIds).spoken else []) ++ logged b turns := rfl

theorem logged_append (done turns : List (Turn F ι ρ)) :
    logged b (done ++ turns) = logged b done ++ logged (b || begun done) turns := by
  induction done generalizing b with
  | nil =>
    show logged b turns = logged (b || false) turns
    rw [Bool.or_false]
  | cons turn done ih =>
    rw [cons_append, begun_cons]
    cases turn with
    | prompt ids => exact ih b
    | generation output calls =>
      rw [logged_generation, logged_generation]
      unfold Turn.hasLogProbs
      by_cases hgiven : given output.logProbs = true
      · grind
      · grind
    | tools runs ids =>
      rw [logged_tools, logged_tools, ih b, append_assoc]
      unfold Turn.hasLogProbs
      rw [Bool.false_or]

theorem logged_sublist (turns : List (Turn F ι ρ)) :
    (logged b turns).Sublist (turns.flatMap Turn.spoken) := by
  induction turns generalizing b with
  | nil => exact .slnil
  | cons turn turns ih =>
    cases turn with
    | prompt ids => exact ih b
    | generation output calls =>
      unfold logged
      dsimp only
      split
      · exact (Sublist.refl _).append (ih true)
      · exact (ih b).trans (sublist_append_right _ _)
    | tools runs ids =>
      unfold logged
      dsimp only
      split
      · exact (Sublist.refl _).append (ih b)
      · exact (ih b).trans (sublist_append_right _ _)

theorem handleGeneratingState_lists (cfg : Config F) (data : AgentData F ι ρ)
    (output : TokenOutput F ρ) (toolCalls : List FunctionCall) :
    let next := handleGeneratingState cfg data output toolCalls
    next.1 ≠ .pending ∧ next.2.promptIds = data.promptIds ++ output.tokenIds ∧
      next.2.responseMask = data.responseMask ++ replicate output.tokenIds.length 1 ∧
      next.2.responseLogprobs = data.responseLogprobs ++ output.logProbs.getD [] := by
  unfold handleGeneratingState
  dsimp only
  split
  · exact ⟨by simp, rfl, rfl, rfl⟩
  · grind

theorem handleProcessingToolsState_lists
    {runs : Nat → ToolRun F ι} {responseIds : List Nat} {next : AgentState × AgentData F ι ρ}
    (h : handleProcessingToolsState cfg data runs responseIds = .ok next) :
    (next.1 = .terminated ∧ next.2.promptIds = data.promptIds ∧
        next.2.responseMask = data.responseMask ∧
        next.2.responseLogprobs = data.responseLogprobs) ∨
      (next.1 = .generating ∧ next.2.promptIds = data.promptIds ++ responseIds ∧
        next.2.responseMask = data.responseMask ++ replicate responseIds.length 0 ∧
        next.2.responseLogprobs =
          if data.responseLogprobs.isEmpty then []
          else data.responseLogprobs ++ replicate responseIds.length cfg.zero) := by
  obtain ⟨results, -, h⟩ := bind_eq_ok.1 h
  dsimp only at h
  split at h
  · cases h
    exact .inl ⟨rfl, rfl, rfl, rfl⟩
  · cases h
    exact .inr ⟨rfl, rfl, rfl, rfl⟩

theorem map_fst_spoken :
    (ids.map fun token => (token, byServer)).map Prod.fst = ids := by
  rw [map_map]
  exact map_id ids

theorem map_mask_spoken :
    (ids.map fun token => (token, byServer)).map (fun t => if t.2 then 1 else 0) =
      replicate ids.length (if byServer then 1 else 0) := by
  rw [map_map, ← map_const']
  rfl

theorem inStep_generation {output : TokenOutput F ρ} {toolCalls : List FunctionCall}
    (h : InStep promptIds done data)
    (hwf : (Turn.generation (ι := ι) output toolCalls).WellFormed) :
    InStep promptIds (done ++ [.generation output toolCalls])
      (handleGeneratingState cfg data output toolCalls).2 := by
  obtain ⟨-, hprompt, hmask, hlogprobs⟩ :=
    handleGeneratingState_lists cfg data output toolCalls
  have hspoken : (done ++ [Turn.generation (ι := ι) output toolCalls]).flatMap Turn.spoken =
      done.flatMap Turn.spoken ++ output.tokenIds.map fun token => (token, true) := by
    rw [flatMap_append, flatMap_singleton]
    rfl
  refine ⟨?_, ?_, ?_, ?_⟩
  · rw [hprompt, h.prompt, hspoken, map_append, map_fst_spoken, append_assoc]
  · rw [hmask, h.mask, hspoken, map_append, map_mask_spoken]
    rfl
  · rw [hlogprobs, logged_append, length_append, length_append, h.logprobs,
      logged_generation]
    by_cases hgiven : given output.logProbs = true
    · rw [if_pos hgiven, hwf hgiven]
      simp [logged, Turn.spoken]
    · have hnil : output.logProbs.getD [] = [] := by
        by_contra hne
        exact hgiven (given_eq_true.2 hne)
      rw [if_neg hgiven, hnil]
      rfl
  · rw [hlogprobs, forall_mem_append, ← h.begun, forall_mem_singleton]
    have hgiven : output.logProbs.getD [] = [] ↔ given output.logProbs = false := by
      rw [← Bool.not_eq_true, given_eq_true, not_not]
    rw [List.append_eq_nil_iff, hgiven]
    rfl

theorem inStep_tools {next : AgentData F ι ρ}
    (runs : Nat → ToolRun F ι) {responseIds : List Nat} {zero : F} (h : InStep promptIds done data)
    (hprompt : next.promptIds = data.promptIds ++ responseIds)
    (hmask : next.responseMask = data.responseMask ++ replicate responseIds.length 0)
    (hlogprobs : next.responseLogprobs = if data.responseLogprobs.isEmpty then []
      else data.responseLogprobs ++ replicate responseIds.length zero) :
    InStep promptIds (done ++ [.tools runs responseIds]) next := by
  have hspoken : (done ++ [Turn.tools (ρ := ρ) runs responseIds]).flatMap Turn.spoken =
      done.flatMap Turn.spoken ++ responseIds.map fun token => (token, false) := by
    rw [flatMap_append, flatMap_singleton]
    rfl
  have hbegun : begun done = false ↔ data.responseLogprobs = [] :=
    begun_eq_false.trans h.begun.symm
  refine ⟨?_, ?_, ?_, ?_⟩
  · rw [hprompt, h.prompt, hspoken, map_append, map_fst_spoken, append_assoc]
  · rw [hmask, h.mask, hspoken, map_append, map_mask_spoken]
    rfl
  · rw [hlogprobs, logged_append, length_append, ← h.logprobs]
    by_cases hempty : data.responseLogprobs = []
    · rw [hbegun.2 hempty, hempty]
      rfl
    · have htrue : begun done = true := by grind
      rw [htrue, if_neg (by rw [List.isEmpty_iff]; exact hempty)]
      simp [logged, Turn.spoken]
  · rw [hlogprobs, forall_mem_append, ← h.begun, forall_mem_singleton]
    by_cases hempty : data.responseLogprobs = []
    · rw [if_pos (List.isEmpty_iff.2 hempty)]
      exact ⟨fun _ => ⟨hempty, rfl⟩, fun _ => rfl⟩
    · rw [if_neg (by rw [List.isEmpty_iff]; exact hempty), List.append_eq_nil_iff]
      exact ⟨fun h => absurd h.1 hempty, fun h => absurd h.1 hempty⟩

theorem kept_generation (turns : List (Turn F ι ρ)) :
    kept (.generation output toolCalls :: turns) =
      .generation output toolCalls :: kept turns := by
  cases turns <;> rfl

theorem kept_tools {turns : List (Turn F ι ρ)}
    (h : turns ≠ []) : kept (.tools runs responseIds :: turns) =
      .tools runs responseIds :: kept turns := by
  cases turns with
  | nil => exact absurd rfl h
  | cons turn turns => rfl

theorem inStep_loop {turns : List (Turn F ι ρ)} {state : AgentState} {data' : AgentData F ι ρ}
    (h : InStep promptIds done data) (hstate : state ≠ .pending)
    (hwf : ∀ turn ∈ turns, turn.WellFormed) (hloop : loop cfg state data turns = .ok (some data')) :
    InStep promptIds (done ++ kept turns) data' := by
  induction turns generalizing state data done with
  | nil =>
    cases state with
    | terminated =>
      cases hloop
      rw [show kept [] = ([] : List (Turn F ι ρ)) from rfl, append_nil]
      exact h
    | pending => cases hloop
    | generating => cases hloop
    | processingTools => cases hloop
  | cons turn turns ih =>
    rw [forall_mem_cons] at hwf
    cases state with
    | pending => exact absurd rfl hstate
    | terminated => cases hloop
    | generating =>
      cases turn with
      | prompt ids => cases hloop
      | tools runs responseIds => cases hloop
      | generation output toolCalls =>
        have hnext := (handleGeneratingState_lists cfg data output toolCalls).1
        have hrest := ih (inStep_generation h hwf.1) hnext hwf.2 hloop
        rwa [append_assoc] at hrest
    | processingTools =>
      cases turn with
      | prompt ids => cases hloop
      | generation output toolCalls => cases hloop
      | tools runs responseIds =>
        obtain ⟨next, hturn, hloop⟩ := bind_eq_ok.1 hloop
        rcases handleProcessingToolsState_lists hturn with
          ⟨hnext, hprompt, hmask, hlogprobs⟩ | ⟨hnext, hprompt, hmask, hlogprobs⟩
        · rw [hnext] at hloop
          cases turns with
          | cons turn turns => cases hloop
          | nil =>
            cases hloop
            rw [show kept [Turn.tools runs responseIds] = ([] : List (Turn F ι ρ)) from rfl,
              append_nil]
            exact ⟨hprompt.trans h.prompt, hmask.trans h.mask, by rw [hlogprobs]; exact h.logprobs,
              by rw [hlogprobs]; exact h.begun⟩
        · have hne : turns ≠ [] := by
            rintro rfl
            rw [hnext] at hloop
            cases hloop
          have hrest := ih (inStep_tools runs h hprompt hmask hlogprobs)
            (by rw [hnext]; decide) hwf.2 hloop
          rw [kept_tools _ _ hne]
          rwa [append_assoc] at hrest

/-! ## The output -/

section Output

variable {cfg : Config F} {messages : List Message} {images : Option (List ι)}
  {toolSelection : Option (List String)} {promptIds : List Nat} {turns : List (Turn F ι ρ)}
  {output : AgentLoopOutput F ι ρ}

theorem exists_inStep_of_run (hwf : ∀ turn ∈ turns, turn.WellFormed)
    (hrun : run cfg messages images toolSelection (.prompt promptIds :: turns) =
      .ok (some output)) :
    ∃ data, InStep promptIds (kept turns) data ∧ output = finalize cfg data := by
  obtain ⟨data, hloop, hrun⟩ := bind_eq_ok.1 hrun
  cases data with
  | none => cases hrun
  | some data =>
    cases hrun
    have hinit : InStep (F := F) (ι := ι) (ρ := ρ) promptIds []
        { messages := messages, imageData := images, activeTools := selectTools cfg toolSelection
          promptIds := promptIds } :=
      ⟨by simp, rfl, rfl, by simp⟩
    exact ⟨data, inStep_loop hinit (show AgentState.generating ≠ _ by decide) hwf hloop, rfl⟩

variable {data : AgentData F ι ρ}

section

variable (h : InStep promptIds (kept turns) data)
include h

theorem length_responseMask : data.responseMask.length = (spoken turns).length := by
  rw [h.mask, length_map]
  rfl

theorem finalize_promptIds : (finalize cfg data).promptIds = promptIds := by
  have hlen : data.promptIds.length = promptIds.length + data.responseMask.length := by
    rw [h.prompt, length_responseMask h, length_append, length_map]
    rfl
  show plainSlice data.promptIds none _ = promptIds
  rw [show (data.promptIds.length : Int) - data.responseMask.length = (promptIds.length : Nat) by
    omega, plainSlice_upto, h.prompt, take_left]

theorem finalize_responseIds : (finalize cfg data).responseIds =
      (if spoken turns = [] then promptIds else (spoken turns).map Prod.fst).take
        cfg.responseLength := by
  have hmask := length_responseMask h
  have hprompt : data.promptIds = promptIds ++ (spoken turns).map Prod.fst := h.prompt
  show (plainSlice data.promptIds _ none).take _ = _
  congr 1
  by_cases hsilent : spoken turns = []
  · rw [if_pos hsilent, hmask, hsilent, length_nil, plainSlice_from_zero, hprompt, hsilent,
      map_nil, append_nil]
  · have hpos := length_pos_iff.2 hsilent
    rw [if_neg hsilent, hmask, hprompt, plainSlice_from_neg hpos
      (by rw [length_append, length_map]; omega), length_append, length_map,
      Nat.add_sub_cancel, drop_left]

theorem finalize_responseMask : (finalize cfg data).responseMask =
      ((spoken turns).map fun t => if t.2 then 1 else 0).take cfg.responseLength := by
  show data.responseMask.take _ = _
  rw [h.mask]
  rfl

theorem finalize_mask {i bit : Nat} (hbit : (finalize cfg data).responseMask[i]? = some bit) :
    ∃ token byServer, (spoken turns)[i]? = some (token, byServer) ∧
      (finalize cfg data).responseIds[i]? = some token ∧ (bit = 1 ↔ byServer = true) := by
  rw [finalize_responseMask h, getElem?_take] at hbit
  split at hbit
  · next hi =>
    rw [getElem?_map, Option.map_eq_some_iff] at hbit
    obtain ⟨⟨token, byServer⟩, hspoken, rfl⟩ := hbit
    have hne : spoken turns ≠ [] := by grind
    refine ⟨token, byServer, hspoken, ?_, ?_⟩
    · rw [finalize_responseIds h, if_neg hne, getElem?_take, if_pos hi, getElem?_map,
        hspoken]
      rfl
    · simp
  · cases hbit

theorem finalize_isPrefix (hne : spoken turns ≠ []) :
    (finalize cfg data).promptIds ++ (finalize cfg data).responseIds <+:
      promptIds ++ (spoken turns).map Prod.fst := by
  rw [finalize_promptIds h, finalize_responseIds h, if_neg hne]
  exact (prefix_append_right_inj _).2 (List.take_prefix _ _)

theorem outputInStep_of_spoken (hne : spoken turns ≠ []) :
    OutputInStep cfg promptIds turns (finalize cfg data) ↔
      ((∀ turn ∈ kept turns, turn.hasLogProbs = false) ∨
        logged false (kept turns) = spoken turns ∨
        cfg.responseLength ≤ (logged false (kept turns)).length) := by
  have hsub := logged_sublist false (kept turns)
  have hids : (finalize cfg data).responseIds.length =
      min cfg.responseLength (spoken turns).length := by
    rw [finalize_responseIds h, if_neg hne, length_take, length_map]
  have hlogprobs : (∀ logprobs, (finalize cfg data).responseLogprobs = some logprobs →
      logprobs.length = (finalize cfg data).responseIds.length) ↔
        (data.responseLogprobs = [] ∨
          min cfg.responseLength data.responseLogprobs.length =
            min cfg.responseLength (spoken turns).length) := by
    show (∀ logprobs, (if data.responseLogprobs.isEmpty = true then none
      else some (data.responseLogprobs.take cfg.responseLength)) = some logprobs → _) ↔ _
    by_cases hempty : data.responseLogprobs = []
    · grind
    · grind
  have hlogged : min cfg.responseLength data.responseLogprobs.length =
      min cfg.responseLength (spoken turns).length ↔
        (logged false (kept turns) = spoken turns ∨
          cfg.responseLength ≤ (logged false (kept turns)).length) := by
    rw [h.logprobs]
    have hle : (logged false (kept turns)).length ≤ (spoken turns).length := hsub.length_le
    constructor
    · intro hmin
      by_cases hlong : cfg.responseLength ≤ (logged false (kept turns)).length
      · exact .inr hlong
      · exact .inl (hsub.eq_of_length (by show _ = (spoken turns).length; omega))
    · grind
  rw [hlogged, h.begun] at hlogprobs
  constructor
  · intro hout
    exact hlogprobs.1 hout.logprobs_length
  · intro hcond
    refine ⟨?_, hlogprobs.2 hcond, ?_, finalize_promptIds h, finalize_isPrefix h hne, ?_⟩
    · rw [hids, finalize_responseMask h, length_take, length_map]
    · omega
    · exact fun i bit => finalize_mask h

theorem outputInStep_of_silent (hnil : spoken turns = []) :
    OutputInStep cfg promptIds turns (finalize cfg data) ↔
      (promptIds = [] ∨ cfg.responseLength = 0) := by
  have hids : (finalize cfg data).responseIds = promptIds.take cfg.responseLength := by
    rw [finalize_responseIds h, if_pos hnil]
  have hmask : (finalize cfg data).responseMask = [] := by
    rw [finalize_responseMask h, hnil, map_nil, take_nil]
  have hlogprobs : (finalize cfg data).responseLogprobs = none := by
    have hlen := h.logprobs
    have hsub := logged_sublist false (kept turns)
    rw [show (kept turns).flatMap Turn.spoken = [] from hnil, sublist_nil] at hsub
    rw [hsub, length_nil, length_eq_zero_iff] at hlen
    exact if_pos (List.isEmpty_iff.2 hlen)
  rw [← take_eq_nil_iff.trans or_comm, ← hids]
  constructor
  · intro hout
    have hlen := hout.mask_length
    rw [hmask] at hlen
    exact length_eq_zero_iff.1 hlen.symm
  · intro hempty
    refine ⟨by rw [hmask, hempty], fun _ hsome => ?_, by rw [hempty]; exact Nat.zero_le _,
      finalize_promptIds h, ?_, fun i bit => finalize_mask h⟩
    · grind
    · rw [hempty, finalize_promptIds h, append_nil]
      exact prefix_append _ _

end

theorem spoken_ne_nil_iff : spoken turns ≠ [] ↔ ∃ turn ∈ kept turns, turn.spoken ≠ [] := by
  unfold spoken
  rw [ne_eq, flatMap_eq_nil_iff]
  push Not
  rfl

/-- Of a run that returns the output is right iff its turns keep step. -/
theorem outputInStep_iff (hwf : ∀ turn ∈ turns, turn.WellFormed)
    (hrun : run cfg messages images toolSelection (.prompt promptIds :: turns) =
      .ok (some output)) :
    OutputInStep cfg promptIds turns output ↔ KeepsStep cfg promptIds turns := by
  obtain ⟨data, hstep, rfl⟩ := exists_inStep_of_run hwf hrun
  by_cases hnil : spoken turns = []
  · rw [outputInStep_of_silent hstep hnil]
    have hnone : ¬∃ turn ∈ kept turns, turn.spoken ≠ [] := by
      rw [← spoken_ne_nil_iff, not_not]
      exact hnil
    have hsub := logged_sublist false (kept turns)
    rw [show (kept turns).flatMap Turn.spoken = [] from hnil, sublist_nil] at hsub
    exact ⟨fun h => ⟨.inr h, .inr (.inl (hsub.trans hnil.symm))⟩,
      fun h => h.tokens.resolve_left hnone⟩
  · rw [outputInStep_of_spoken hstep hnil]
    exact ⟨fun h => ⟨.inl (spoken_ne_nil_iff.1 hnil), h⟩, fun h => h.logprobs⟩

theorem logged_true (h : ∀ turn ∈ turns, turn.hasLogProbs = true ∨
      (∀ output toolCalls, turn = .generation output toolCalls → turn.spoken = [])) :
    logged true turns = turns.flatMap Turn.spoken := by
  induction turns with
  | nil => rfl
  | cons turn turns ih =>
    rw [forall_mem_cons] at h
    have hrest := ih h.2
    rw [flatMap_cons]
    cases turn with
    | prompt ids => exact hrest
    | tools runs ids => rw [logged_tools, if_pos rfl, hrest]
    | generation output toolCalls =>
      rw [logged_generation]
      by_cases hgiven : given output.logProbs = true
      · rw [if_pos hgiven, hrest]
      · rw [if_neg hgiven, hrest, (h.1.resolve_left hgiven) output toolCalls rfl, nil_append]

/-- A run in which the server says something at once, and returns log-probs for every token or for
none, keeps step. -/
theorem keepsStep_of_generation {output : TokenOutput F ρ} {toolCalls : List FunctionCall}
    (htokens : output.tokenIds ≠ [])
    (hlogprobs : (∀ turn ∈ kept (.generation output toolCalls :: turns), turn.hasLogProbs = false) ∨
      given output.logProbs = true ∧ ∀ turn ∈ kept turns, turn.hasLogProbs = true ∨
        (∀ output toolCalls, turn = .generation output toolCalls → turn.spoken = [])) :
    KeepsStep cfg promptIds (.generation output toolCalls :: turns) := by
  refine ⟨.inl ⟨.generation output toolCalls, ?_, ?_⟩, ?_⟩
  · rw [kept_generation]
    exact mem_cons_self
  · rw [Turn.spoken, ne_eq, map_eq_nil_iff]
    exact htokens
  · rcases hlogprobs with hnone | ⟨hgiven, hall⟩
    · exact .inl hnone
    · right
      left
      unfold spoken
      rw [kept_generation, logged_generation, if_pos hgiven, logged_true hall, flatMap_cons]

end Output

/-- Ten tokens for the response, one tool. -/
def sampleConfig : Config Nat :=
  { maxUserTurns := none, maxAssistantTurns := none, maxParallelCalls := 1
    maxToolResponseLength := 256, toolResponseTruncateSide := "middle", responseLength := 10
    tools := ["search"], hasImageProcessor := false, zero := 0, repr := id
    jsonError := fun _ => none }

/-- A generation with log-probs, a tool response and another generation. -/
def sampleTurns : List (Turn Nat Unit Unit) :=
  [.generation { tokenIds := [3, 4], logProbs := some [7, 8] } [⟨"search", "[]"⟩],
    .tools (fun _ => .returned { text := some "found" } none) [5],
    .generation { tokenIds := [6], logProbs := some [9] } []]

theorem outputInStep_sample : ∃ output,
    run sampleConfig [] none none (.prompt [1, 2] :: sampleTurns) = .ok (some output) ∧
      OutputInStep sampleConfig [1, 2] sampleTurns output := by
  have hwf : ∀ turn ∈ sampleTurns, turn.WellFormed := by
    simp [sampleTurns, Turn.WellFormed]
  have hkeeps : KeepsStep sampleConfig [1, 2] sampleTurns :=
    keepsStep_of_generation (by decide) (.inr ⟨rfl, by simp [kept, Turn.hasLogProbs, given]⟩)
  exact ⟨_, rfl,
    (@outputInStep_iff Nat Unit Unit sampleConfig [] none none [1, 2] sampleTurns _ hwf rfl).2 hkeeps⟩

/-- An empty generation makes the prompt the response; log-probs that begin late are too few. -/
theorem not_outputInStep : (∃ output : AgentLoopOutput Nat Unit Unit,
      run sampleConfig [] none none [.prompt [1, 2], .generation { tokenIds := [] } []] =
          .ok (some output) ∧
        ¬OutputInStep sampleConfig [1, 2] [.generation { tokenIds := [] } []] output) ∧
    ∃ output : AgentLoopOutput Nat Unit Unit,
      run sampleConfig [] none none [.prompt [1, 2],
          .generation { tokenIds := [3] } [⟨"search", "[]"⟩],
          .tools (fun _ => .returned { text := some "found" } none) [5],
          .generation { tokenIds := [6], logProbs := some [9] } []] = .ok (some output) ∧
        ¬OutputInStep sampleConfig [1, 2] [.generation { tokenIds := [3] } [⟨"search", "[]"⟩],
          .tools (fun _ => .returned { text := some "found" } none) [5],
          .generation { tokenIds := [6], logProbs := some [9] } []] output := by
  constructor
  · refine ⟨_, rfl, fun h => ?_⟩
    have hlen : 0 = 2 := h.mask_length
    exact absurd hlen (by decide)
  · refine ⟨_, rfl, fun h => ?_⟩
    have hlen : 1 = 3 := h.logprobs_length _ rfl
    exact absurd hlen (by decide)

/-! ## Termination -/

/-- What the code outside would answer in a pass, whichever handler it is. -/
structure Answers (F ι ρ : Type) where
  promptIds : List Nat
  output : TokenOutput F ρ
  toolCalls : List FunctionCall
  runs : Nat → ToolRun F ι
  responseIds : List Nat

/-- The turns of the first passes of the loop, up to the one that terminates or raises. -/
def turnsOf (cfg : Config F) : List (Answers F ι ρ) → AgentState → AgentData F ι ρ →
    List (Turn F ι ρ)
  | answers :: rest, .pending, data =>
    let next := handlePendingState data answers.promptIds
    .prompt answers.promptIds :: turnsOf cfg rest next.1 next.2
  | answers :: rest, .generating, data =>
    let next := handleGeneratingState cfg data answers.output answers.toolCalls
    .generation answers.output answers.toolCalls :: turnsOf cfg rest next.1 next.2
  | answers :: rest, .processingTools, data =>
    .tools answers.runs answers.responseIds ::
      match handleProcessingToolsState cfg data answers.runs answers.responseIds with
      | .error _ => []
      | .ok next => turnsOf cfg rest next.1 next.2
  | _, _, _ => []

variable {cfg : Config F} {data : AgentData F ι ρ} {output : TokenOutput F ρ} {runs : Nat → ToolRun F ι} {responseIds : List Nat}

/-- A generation terminates, or leaves a longer mask that is still too short. -/
theorem handleGeneratingState_progress (cfg : Config F) (data : AgentData F ι ρ)
    (calls : List FunctionCall) (hne : output.tokenIds ≠ []) :
    let next := handleGeneratingState cfg data output calls
    next.1 = .terminated ∨ next.1 = .processingTools ∧
      data.responseMask.length < next.2.responseMask.length ∧
      next.2.responseMask.length < cfg.responseLength := by
  have hpos := length_pos_iff.2 hne
  unfold handleGeneratingState
  dsimp only
  split
  · exact .inl rfl
  · next hlen =>
    have hlonger : data.responseMask.length <
        (data.responseMask ++ replicate output.tokenIds.length 1).length := by simp [hpos]
    split
    · exact .inl rfl
    · split
      · exact .inl rfl
      · split
        · exact .inl rfl
        · exact .inr ⟨rfl, hlonger, Nat.lt_of_not_le hlen⟩

/-- Tool responses terminate, or leave a mask no shorter that is still too short. -/
theorem handleProcessingToolsState_progress {next : AgentState × AgentData F ι ρ}
    (h : handleProcessingToolsState cfg data runs responseIds = .ok next) :
    next.1 = .terminated ∨ next.1 = .generating ∧
      data.responseMask.length ≤ next.2.responseMask.length ∧
      next.2.responseMask.length < cfg.responseLength := by
  obtain ⟨results, -, h⟩ := bind_eq_ok.1 h
  dsimp only at h
  split at h
  · cases h
    exact .inl rfl
  · next hlen =>
    cases h
    refine .inr ⟨rfl, by simp, ?_⟩
    rw [length_append, length_replicate]
    omega

/-- What is left of a run that is still going: two passes for each token that still fits. -/
def passesLeft (cfg : Config F) : AgentState → AgentData F ι ρ → Nat
  | .pending, data => 2 * (cfg.responseLength - data.responseMask.length) + 3
  | .generating, data => 2 * (cfg.responseLength - data.responseMask.length) + 2
  | .processingTools, data => 2 * (cfg.responseLength - data.responseMask.length) + 3
  | .terminated, _ => 0

theorem loop_turnsOf {answers : List (Answers F ι ρ)} {state : AgentState}
    (hanswers : ∀ a ∈ answers, a.output.tokenIds ≠ [])
    (hleft : passesLeft cfg state data ≤ answers.length) :
    loop cfg state data (turnsOf cfg answers state data) ≠ .ok none := by
  induction answers generalizing state data with
  | nil => cases state <;> simp [passesLeft, turnsOf, loop] at hleft ⊢
  | cons a rest ih =>
    rw [forall_mem_cons] at hanswers
    rw [length_cons] at hleft
    cases state with
    | terminated => simp [turnsOf, loop]
    | pending =>
      apply ih hanswers.2
      simp only [passesLeft, handlePendingState] at hleft ⊢
      omega
    | generating =>
      apply ih hanswers.2
      rcases handleGeneratingState_progress cfg data a.toolCalls hanswers.1 with
        hdone | ⟨hnext, hlonger, hlt⟩
      · rw [hdone]
        exact Nat.zero_le _
      · rw [hnext]
        simp only [passesLeft] at hleft ⊢
        omega
    | processingTools =>
      unfold turnsOf loop
      cases hnext : handleProcessingToolsState cfg data a.runs a.responseIds with
      | error e => simp [bind, Except.bind]
      | ok next =>
        apply ih hanswers.2
        rcases handleProcessingToolsState_progress hnext with hdone | ⟨hgen, hle, hlt⟩
        · rw [hdone]
          exact Nat.zero_le _
        · rw [hgen]
          simp only [passesLeft] at hleft ⊢
          omega

/-- **Termination.**  However the tokenizer, the server, the parser and the tools answer, if a
generation has a token, the run is over within two passes for each token of the response and three
more; and a cycle from one generation to the next makes the mask longer, with the next
generation only while it is still too short. -/
theorem run_terminates (cfg : Config F) (messages : List Message) (images : Option (List ι))
    (toolSelection : Option (List String)) (answers : Nat → Answers F ι ρ)
    (hanswers : ∀ k, (answers k).output.tokenIds ≠ []) :
    let data : AgentData F ι ρ :=
      { messages := messages, imageData := images, activeTools := selectTools cfg toolSelection }
    let turns := turnsOf cfg ((List.range (2 * cfg.responseLength + 3)).map answers) .pending data
    run cfg messages images toolSelection turns ≠ .ok none ∧
      ∀ k k' d next, (handleGeneratingState cfg d (answers k).output (answers k).toolCalls).1 ≠
          .terminated →
        handleProcessingToolsState cfg
          (handleGeneratingState cfg d (answers k).output (answers k).toolCalls).2
          (answers k').runs (answers k').responseIds = .ok next →
        next.1 = .terminated ∨ next.1 = .generating ∧
          d.responseMask.length < next.2.responseMask.length ∧
          next.2.responseMask.length < cfg.responseLength := by
  intro data turns
  refine ⟨fun hrun => ?_, fun k k' d next hgoes hnext => ?_⟩
  · obtain ⟨out, hloop, hout⟩ := bind_eq_ok.1 hrun
    cases out with
    | some out => cases hout
    | none =>
      refine loop_turnsOf (fun a ha => ?_) ?_ hloop
      · obtain ⟨k, -, rfl⟩ := mem_map.1 ha
        exact hanswers k
      · simp [passesLeft]
  · rcases handleGeneratingState_progress cfg d (answers k).toolCalls (hanswers k) with
      hdone | ⟨-, hlonger, -⟩
    · exact absurd hdone hgoes
    · refine (handleProcessingToolsState_progress hnext).imp_right fun hgen => ?_
      exact ⟨hgen.1, Nat.lt_of_lt_of_le hlonger hgen.2.1, hgen.2.2⟩

/-- A server that always calls the tool. -/
def searching : Answers Nat Unit Unit where
  promptIds := [1, 2]
  output := { tokenIds := [3] }
  toolCalls := [⟨"search", "[]"⟩]
  runs := fun _ => .returned { text := some "" } none
  responseIds := []

theorem run_terminates_searching : run sampleConfig [] none none
    (turnsOf sampleConfig ((List.range 23).map fun _ => searching) .pending
      { messages := [], imageData := none, activeTools := selectTools sampleConfig none }) ≠
        .ok none :=
  (run_terminates sampleConfig [] none none (fun _ => searching) fun _ => by simp [searching]).1

end Verl.AgentLoop
