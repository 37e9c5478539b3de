import Verl.Lib.Python
import Verl.Lib.Softmax
import Verl.Utils.Ulysses

/-! # Log-probs and entropy of a micro-batch

`FSDPEngineWithLMHead` computes, for every position of the sequences of a micro-batch, the
log-prob of the next token and the entropy.  It has three switches:

    use_remove_padding   the sequences in one packed row, or one padded row for each
    use_fused_kernels    the head of `dense_common`, with torch or triton, or plain logits
    sp_size              Ulysses: the packed row is padded and cut into one shard a rank

Jagged tensors are lists of rows; reals stand for the floating point numbers.  The model is
a text model, so `position_ids` have one row and count from zero in every sequence. -/

namespace Verl.Engine

variable {V : Nat} {H : Type}

/-- A text model: the hidden state at the last position of a sequence, and `lm_head`. -/
structure TextModel (V : Nat) (H : Type) where
  hidden : List (Fin V) → H
  lmHead : H → Fin V → ℝ

/-- Sequences of one token at least, and one temperature for all. -/
structure MicroBatch (V : Nat) where
  inputIds : List (List (Fin V))
  temperature : ℝ
  padTokenId : Fin V
  maxResponseLength : Nat
  ne_nil : inputIds ≠ []
  seq_ne_nil : ∀ s ∈ inputIds, s ≠ []
  temperature_pos : 0 < temperature

namespace MicroBatch

def positionIds (batch : MicroBatch V) : List (List Nat) :=
  batch.inputIds.map fun s => List.range s.length

/-- `input_ids.offsets().diff()`. -/
def seqLens (batch : MicroBatch V) : List Nat := batch.inputIds.map List.length

end MicroBatch

inductive FusedBackend
  | torch
  | triton
  deriving DecidableEq, Repr

/-- Sequence parallelism needs remove-padding. -/
structure EngineConfig where
  useRemovePadding : Bool
  useFusedKernels : Option FusedBackend
  spSize : Nat
  spSize_pos : 0 < spSize
  accepted : 1 < spSize → useRemovePadding = true

def EngineConfig.useUlyssesSp (cfg : EngineConfig) : Bool := decide (1 < cfg.spSize)

/-! ## Tensor operations -/

/-- A tensor of at most two dimensions. -/
inductive Tensor (α : Type)
  | scalar (a : α)
  | vec (xs : List α)
  | mat (rows : List (List α))

/-- `x.squeeze(0)`. -/
def Tensor.squeeze {α : Type} : Tensor α → Tensor α
  | .vec [a] => .scalar a
  | .mat [row] => .vec row
  | x => x

/-- `x[:, -responseLength - 1 : -1]`. -/
def Tensor.lastColumns {α : Type} (responseLength : Nat) : Tensor α → Except PyErr (List (List α))
  | .mat rows => .ok <| rows.map fun row =>
      (row.take (row.length - 1)).drop (row.length - (responseLength + 1))
  | _ => .error .indexError

/-- `torch.roll(x, shifts=-1, dims=-1)` of a row. -/
def roll {α : Type} (xs : List α) : List α := xs.rotate 1

/-- `torch.nested.to_padded_tensor`, for rows of at most `maxSeqLen` items. -/
def toPaddedTensor {α : Type} (padding : α) (maxSeqLen : Nat) (rows : List (List α)) :
    List (List α) :=
  rows.map fun row => row ++ List.replicate (maxSeqLen - row.length) padding

/-- The values of `expand_as_nested`. -/
def expandAsNested {α : Type} (tensor : List ℝ) (nested : List (List α)) : List ℝ :=
  (List.zipWith (fun t row => List.replicate row.length t) tensor nested).flatten

/-- The operations on the real tensors below are not modelled further than their values. -/
noncomputable def logprobsFromLogits (logits : List (Fin V → ℝ)) (labels : List (Fin V)) :
    List ℝ :=
  List.zipWith Softmax.logSoftmax logits labels

noncomputable def entropyFromLogits (logits : List (Fin V → ℝ)) : List ℝ :=
  logits.map Softmax.entropy

/-- `logits.div_(temperature.clamp(min=1e-8))` at one position. -/
noncomputable def divTemperature (logits : Fin V → ℝ) (temperature : ℝ) : Fin V → ℝ :=
  fun v => logits v / max temperature 1e-8

/-! ## Inputs -/

structure ModelInputs (V : Nat) where
  inputIds : List (List (Fin V))
  positionIds : List (List Nat)
  attentionMask : Option (List (List Nat))
  temperature : Option ℝ

structure OutputArgs (V : Nat) where
  inputIdsRmpadRolled : List (Fin V)
  /-- `temperature_rmpad`, or one temperature for each sequence. -/
  temperature : List ℝ
  padSize : Nat

variable [NeZero V]

/-- `prepare_model_inputs` on rank `rank` of the sequence parallel group. -/
noncomputable def prepareModelInputs (cfg : EngineConfig) (batch : MicroBatch V) (rank : Nat) :
    ModelInputs V × OutputArgs V :=
  let temperature := List.replicate batch.inputIds.length batch.temperature
  let temperatureItem := cfg.useFusedKernels.map fun _ => batch.temperature
  let inputIdsRmpad := batch.inputIds.flatten
  let inputIdsRmpadRolled := roll inputIdsRmpad
  if cfg.useRemovePadding then
    let temperatureRmpad := expandAsNested temperature batch.inputIds
    let positionIdsRmpad := batch.positionIds.flatten
    if cfg.useUlyssesSp then
      let padSize := ulyssesPadSize cfg.spSize inputIdsRmpad.length
      let slice {α : Type} (xs : List α) := sliceInputTensor cfg.spSize rank xs
      ( { inputIds := [slice (ulyssesPad cfg.spSize 0 inputIdsRmpad)]
          positionIds := [slice (positionIdsRmpad ++ List.range padSize)]
          attentionMask := none
          temperature := temperatureItem },
        { inputIdsRmpadRolled := slice (ulyssesPad cfg.spSize 0 inputIdsRmpadRolled)
          temperature := slice (ulyssesPad cfg.spSize 1 temperatureRmpad)
          padSize := padSize } )
    else
      ( { inputIds := [inputIdsRmpad]
          positionIds := [positionIdsRmpad]
          attentionMask := none
          temperature := temperatureItem },
        { inputIdsRmpadRolled := inputIdsRmpadRolled
          temperature := temperatureRmpad
          padSize := 0 } )
  else
    let maxSeqLen := batch.seqLens.foldl max 0
    let attentionMask := batch.inputIds.map fun s => List.replicate s.length 1
    ( { inputIds := toPaddedTensor batch.padTokenId maxSeqLen batch.inputIds
        positionIds := toPaddedTensor 0 maxSeqLen batch.positionIds
        attentionMask := some (toPaddedTensor 0 maxSeqLen attentionMask)
        temperature := temperatureItem },
      { inputIdsRmpadRolled := inputIdsRmpadRolled
        temperature := temperature
        padSize := 0 } )

/-! ## The base model -/

/-- The hidden states of a packed row: a position id of zero starts a sequence. -/
def varlenHidden (hidden : List (Fin V) → H) : List (Fin V) → List (Fin V × Nat) → List H
  | _, [] => []
  | sequence, (token, positionId) :: rest =>
    let sequence := if positionId = 0 then [token] else sequence ++ [token]
    hidden sequence :: varlenHidden hidden sequence rest

/-- The hidden states of a padded row: masked tokens are not seen. -/
def maskedHidden (hidden : List (Fin V) → H) : List (Fin V) → List (Fin V × Nat) → List H
  | _, [] => []
  | sequence, (token, mask) :: rest =>
    let sequence := if mask = 1 then sequence ++ [token] else sequence
    hidden sequence :: maskedHidden hidden sequence rest

/-- The hidden states of a rank.  In a packed row the attention of Ulysses sees the shards of
all ranks. -/
def baseForward (hidden : List (Fin V) → H) (ranks : List (ModelInputs V)) (rank : Nat)
    (inputs : ModelInputs V) : List (List H) :=
  match inputs.attentionMask with
  | none =>
    let inputIds := ranks.flatMap fun r => r.inputIds.flatten
    let positionIds := ranks.flatMap fun r => r.positionIds.flatten
    [sliceInputTensor ranks.length rank (varlenHidden hidden [] (inputIds.zip positionIds))]
  | some attentionMask =>
    List.zipWith (fun row mask => maskedHidden hidden [] (row.zip mask)) inputs.inputIds
      attentionMask

/-! ## The head -/

inductive ModelOutput (V : Nat)
  | logits (rows : List (List (Fin V → ℝ)))
  | fused (logProbs entropy : Tensor ℝ)

/-- `FusedLinearForPPO` and the triton kernel at one row; the chunks in which the first one
goes over the positions do not change the values. -/
noncomputable def fusedLinear (lmHead : H → Fin V → ℝ) (temperature : ℝ) (hiddenStates : List H)
    (labels : List (Fin V)) : List ℝ × List ℝ :=
  let logits := hiddenStates.map fun h v => lmHead h v / temperature
  (logprobsFromLogits logits labels, entropyFromLogits logits)

/-- `forward_with_torch_backend` keeps the rows, `forward_with_triton_backend` returns one
dimension. -/
noncomputable def fusedForward (backend : FusedBackend) (lmHead : H → Fin V → ℝ)
    (temperature : ℝ) (inputIds : List (List (Fin V))) (hiddenStates : List (List H)) :
    ModelOutput V :=
  let rolledLabels := inputIds.map roll
  let rows := List.zipWith (fusedLinear lmHead temperature) hiddenStates rolledLabels
  match backend with
  | .torch => .fused (.mat (rows.map Prod.fst)) (.mat (rows.map Prod.snd))
  | .triton => .fused (.vec (rows.map Prod.fst).flatten) (.vec (rows.map Prod.snd).flatten)

noncomputable def forward (cfg : EngineConfig) (model : TextModel V H)
    (ranks : List (ModelInputs V)) (rank : Nat) (inputs : ModelInputs V) : ModelOutput V :=
  let hiddenStates := baseForward model.hidden ranks rank inputs
  match cfg.useFusedKernels with
  | none => .logits (hiddenStates.map fun row => row.map model.lmHead)
  | some backend =>
    fusedForward backend model.lmHead (inputs.temperature.getD 1) inputs.inputIds hiddenStates

/-! ## Outputs -/

inductive Result
  | jagged (rows : List (List ℝ))
  | dense (rows : List (List ℝ))

structure LogProbsAndEntropy where
  logProbs : Result
  entropy : Result

/-- What a rank has before the shards are gathered. -/
noncomputable def localOutputs (output : ModelOutput V) (args : OutputArgs V) :
    Tensor ℝ × Tensor ℝ :=
  match output with
  | .fused logProbs entropy => (logProbs.squeeze, entropy.squeeze)
  | .logits rows =>
    let logitsRmpad := List.zipWith divTemperature rows.flatten args.temperature
    (.vec (logprobsFromLogits logitsRmpad args.inputIdsRmpadRolled),
      .vec (entropyFromLogits logitsRmpad))

/-- The values that are nested; a tensor without a dimension can be neither gathered nor
nested. -/
def tensorValues : Tensor ℝ → Except PyErr (List ℝ)
  | .vec xs => .ok xs
  | _ => .error .indexError

/-- `gather_outputs_and_unpad` where there are several ranks, then
`torch.nested.nested_tensor_from_jagged`. -/
def nestOutputs (batch : MicroBatch V) (padSize : Nat) (ranks : List (Tensor ℝ)) :
    Except PyErr Result := do
  let shards ← ranks.mapM tensorValues
  .ok (.jagged (batch.seqLens.splitLengths (gatherOutputsAndUnpad padSize shards)))

/-- `prepare_model_outputs`; all ranks return the same. -/
noncomputable def prepareModelOutputs (cfg : EngineConfig) (batch : MicroBatch V)
    (ranks : List (ModelOutput V × OutputArgs V)) : Except PyErr LogProbsAndEntropy :=
  if cfg.useRemovePadding then do
    let outputs := ranks.map fun r => localOutputs r.1 r.2
    let padSize := (ranks.head?.map fun r => r.2.padSize).getD 0
    let logProbs ← nestOutputs batch padSize (outputs.map Prod.fst)
    let entropy ← nestOutputs batch padSize (outputs.map Prod.snd)
    .ok { logProbs := logProbs, entropy := entropy }
  else
    match ranks with
    | [(.fused logProbs entropy, _)] => do
      let logProbs ← logProbs.lastColumns batch.maxResponseLength
      let entropy ← entropy.lastColumns batch.maxResponseLength
      .ok { logProbs := .dense logProbs, entropy := .dense entropy }
    | [(.logits rows, args)] =>
      let logits := List.zipWith (fun row t => row.map fun z => divTemperature z t) rows
        args.temperature
      let entropy := List.zipWith List.take batch.seqLens (logits.map entropyFromLogits)
      let logitsRmpad := (List.zipWith List.take batch.seqLens logits).flatten
      let logProbs := logprobsFromLogits logitsRmpad args.inputIdsRmpadRolled
      .ok { logProbs := .jagged (batch.seqLens.splitLengths logProbs)
            entropy := .jagged (batch.seqLens.splitLengths entropy.flatten) }
    | _ => .error (.valueError "sequence parallelism without remove-padding")

/-- Inputs, model and outputs, on all ranks. -/
noncomputable def forwardStep (cfg : EngineConfig) (model : TextModel V H)
    (batch : MicroBatch V) : Except PyErr LogProbsAndEntropy :=
  let prepared := (List.range cfg.spSize).map (prepareModelInputs cfg batch)
  let inputs := prepared.map Prod.fst
  let outputs := (List.range cfg.spSize).map fun rank =>
    let (input, args) := prepareModelInputs cfg batch rank
    (forward cfg model inputs rank input, args)
  prepareModelOutputs cfg batch outputs

end Verl.Engine
