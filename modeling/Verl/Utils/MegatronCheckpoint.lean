import Verl.Lib.Dict
import Verl.Utils.LayerOffset

/-! # Saving and loading a Megatron engine (`verl/utils/checkpoint/megatron_checkpoint_manager.py`)

`save_checkpoint` writes a state dict and, with a bridge, the HF weights; `load_checkpoint` builds
the state dict of the fresh engine, reads its entries and applies them.

    use_dist    save   model, optimizer, extra                 load   the same
    bridge      save   optimizer, extra | HF weights           load   the same
    PEFT        save   adapters, optimizer, extra              load   the same

* `getMegatronOptimizerParamScheduler`: the schedule of the optimizer config.
* `generateStateDict`, `saveCheckpoint`, `loadCheckpoint`: what the manager does.
* `get?_generateStateDict`: what is under a key of a state dict. -/

namespace Verl.MegatronCheckpoint

open Dict

open LayerOffset (isDigits)

/-! ## Configuration -/

inductive Content
  | model
  | optimizer
  | extra
  deriving DecidableEq, Repr

/-- What the manager is created with; a bridge without a provider is a vanilla one. -/
structure ManagerConfig where
  saveContents : List Content
  loadContents : List Content
  load_saved : ∀ c ∈ loadContents, c ∈ saveContents
  useDistCheckpointingArg : Bool
  bridge : Bool
  provider : Bool
  isValueModel : Bool
  peft : Bool
  useCheckpointOptParamScheduler : Bool

namespace ManagerConfig

variable (cfg : ManagerConfig)

def vanillaBridge : Bool := !cfg.provider

def useDistCheckpointing : Bool :=
  cfg.useDistCheckpointingArg || !cfg.bridge || (cfg.vanillaBridge && cfg.isValueModel)

def useHfCheckpoint : Bool := !cfg.useDistCheckpointing

def shouldSave (content : Content) : Bool := content ∈ cfg.saveContents

def shouldLoad (content : Content) : Bool := content ∈ cfg.loadContents

/-- The model is read from the state dict. -/
def shouldLoadDistModel : Bool :=
  cfg.shouldLoad .model && (cfg.useDistCheckpointing || cfg.peft)

end ManagerConfig

/-- The part of the optimizer config that the schedule reads. -/
structure OptimConfig where
  lr : ℚ
  minLr : ℚ
  lrWarmupInit : ℚ
  lrWarmupSteps : Option Int
  lrWarmupStepsRatio : Option ℚ
  lrDecaySteps : Option Int
  totalTrainingSteps : Int
  lrDecayStyle : String
  weightDecay : ℚ
  weightDecayIncrStyle : String
  lrWsdDecaySteps : Option Int
  lrWsdDecayStyle : String
  useCheckpointOptParamScheduler : Bool

/-- What `OptimizerParamScheduler` is created with. -/
structure SchedulerArgs where
  initLr : ℚ
  maxLr : ℚ
  minLr : ℚ
  lrWarmupSteps : Option Int
  lrDecaySteps : Int
  lrDecayStyle : String
  startWd : ℚ
  endWd : ℚ
  wdIncrSteps : Int
  wdIncrStyle : String
  useCheckpointOptParamScheduler : Bool
  overrideOptParamScheduler : Bool
  wsdDecaySteps : Option Int
  lrWsdDecayStyle : String
  deriving DecidableEq, Repr

/-- A schedule and the steps it has made; its state dict has the same. -/
structure OptimizerParamScheduler where
  args : SchedulerArgs
  numSteps : Nat

def getMegatronOptimizerParamScheduler (config : OptimConfig) : OptimizerParamScheduler :=
  let lrDecaySteps := config.lrDecaySteps.getD config.totalTrainingSteps
  let lrWarmupSteps := match config.lrWarmupStepsRatio with
    | some ratio =>
      if config.lrWarmupSteps.all (· ≤ 0) then some (Int.tdiv (ratio * lrDecaySteps).num
        (ratio * lrDecaySteps).den)
      else config.lrWarmupSteps
    | none => config.lrWarmupSteps
  { args :=
      { initLr := config.lrWarmupInit
        maxLr := config.lr
        minLr := config.minLr
        lrWarmupSteps := lrWarmupSteps
        lrDecaySteps := lrDecaySteps
        lrDecayStyle := config.lrDecayStyle
        startWd := config.weightDecay
        endWd := config.weightDecay
        wdIncrSteps := config.totalTrainingSteps
        wdIncrStyle := config.weightDecayIncrStyle
        useCheckpointOptParamScheduler := config.useCheckpointOptParamScheduler
        overrideOptParamScheduler := !config.useCheckpointOptParamScheduler
        wsdDecaySteps := config.lrWsdDecaySteps
        lrWsdDecayStyle := config.lrWsdDecayStyle }
    numSteps := 0 }

/-- `OptimizerParamScheduler.load_state_dict`. -/
def OptimizerParamScheduler.loadStateDict (s stateDict : OptimizerParamScheduler) :
    OptimizerParamScheduler where
  args := if s.args.overrideOptParamScheduler then s.args else stateDict.args
  numSteps := stateDict.numSteps

/-! ## The engine and its state dict -/

/-- The states of the generators; the tracker has been seeded. -/
structure RngState (R : Type) where
  rngStates : R
  rngTrackerStates : List (String × R)
  seeded : rngTrackerStates ≠ []

/-- What is saved of an engine: the parameters of every model chunk by their names, and the rest. -/
structure Engine (W O R : Type) where
  model : List (Dict W)
  optimizer : O
  lrScheduler : Option OptimizerParamScheduler
  rng : RngState R

/-- An entry of a state dict. -/
inductive Entry (W O R : Type)
  | model (stateDict : Dict W)
  | optimizer (state : O)
  | lrScheduler (state : OptimizerParamScheduler)
  | rngState (state : RngState R)

abbrev StateDict (W O R : Type) := Dict (Entry W O R)

/-- The key of a model chunk. -/
def modelKey (numChunks vppRank : Nat) : String :=
  if 1 < numChunks then String.ofList ("model".toList ++ Nat.toDigits 10 vppRank) else "model"

/-- `_is_model_state_key`. -/
def isModelStateKey (key : String) : Bool :=
  key == "model" || ("model".toList.isPrefixOf key.toList && isDigits (key.toList.drop 5))

/-- What comes with Megatron and its bridge: files of a state dict and of HF weights, and the filter
for the parameters of the adapters. -/
structure Libraries (W O R D H : Type) where
  saveDistCheckpointing : StateDict W O R → D
  loadDistCheckpointing : StateDict W O R → D → Except PyErr (StateDict W O R)
  saveWeights : List (Dict W) → H
  loadWeights : List (Dict W) → H → List (Dict W)
  adapterKeyFilter : String → Bool
  applyPeftAdapterFilter : StateDict W O R → StateDict W O R

/-- The adapters of a model section. -/
def Entry.filterAdapters {W O R : Type} (keep : String → Bool) (key : String) :
    Entry W O R → Entry W O R
  | .model stateDict =>
    if isModelStateKey key then .model (stateDict.filterKeys keep) else .model stateDict
  | e => e

/-- What is documented of them: saving and loading are inverse on the entries given to them. -/
structure Libraries.Lawful {W O R D H : Type} (lib : Libraries W O R D H) : Prop where
  load_dist : ∀ saved template, (∀ key ∈ template.keys, key ∈ saved.keys) →
    ∃ loaded, lib.loadDistCheckpointing template (lib.saveDistCheckpointing saved) = .ok loaded ∧
      ∀ key ∈ template.keys, loaded.get? key = saved.get? key
  load_weights : ∀ model model',
    List.Forall₂ (fun chunk chunk' => chunk.keys = chunk'.keys) model' model →
      lib.loadWeights model' (lib.saveWeights model) = model
  peft_filter : ∀ stateDict key, (lib.applyPeftAdapterFilter stateDict).get? key =
    (stateDict.get? key).map (Entry.filterAdapters lib.adapterKeyFilter key)

section Algorithm

variable {W O R D H : Type} (lib : Libraries W O R D H) (cfg : ManagerConfig)

/-- The model sections of a state dict. -/
def modelSections (model : List (Dict W)) : StateDict W O R :=
  Dict.ofItems (model.zipIdx.map fun p => (modelKey model.length p.2, .model p.1))

def generateStateDict (e : Engine W O R) (generateModel generateOptimizer generateExtra : Bool) :
    StateDict W O R :=
  let stateDict := if generateModel || generateOptimizer then modelSections e.model else Dict.empty
  let stateDict :=
    if generateOptimizer then
      let stateDict := stateDict.insert "optimizer" (.optimizer e.optimizer)
      match e.lrScheduler with
      | some lrScheduler => stateDict.insert "lr_scheduler" (.lrScheduler lrScheduler)
      | none => stateDict
    else stateDict
  let stateDict :=
    if generateModel then stateDict else stateDict.filterKeys fun key => !isModelStateKey key
  if generateExtra then stateDict.insert "rng_state" (.rngState e.rng) else stateDict

def maybeFilterPeftStateDict (stateDict : StateDict W O R) : StateDict W O R :=
  if cfg.peft then lib.applyPeftAdapterFilter stateDict else stateDict

/-- `state_dict[key]`, where it has to be a model section. -/
def getModelSection (stateDict : StateDict W O R) (key : String) : Except PyErr (Dict W) :=
  match stateDict.get? key with
  | some (.model section') => .ok section'
  | some _ => .error (.typeError key)
  | none => .error (.keyError key)

/-- The files of a checkpoint. -/
structure Checkpoint (D H : Type) where
  dist : D
  huggingface : Option H

/-- `save_checkpoint`: all that can be loaded. -/
def saveCheckpoint (e : Engine W O R) : Except PyErr (Checkpoint D H) := do
  let generateModel :=
    if cfg.useDistCheckpointing then cfg.shouldSave .model else cfg.shouldSave .model && cfg.peft
  let stateDict := maybeFilterPeftStateDict lib cfg
    (generateStateDict e generateModel (cfg.shouldSave .optimizer) (cfg.shouldSave .extra))
  -- the keys of every model section are logged
  if cfg.useDistCheckpointing then
    (List.range e.model.length).forM fun vppRank =>
      (getModelSection stateDict (modelKey e.model.length vppRank)).map fun _ => ()
  return {
    dist := lib.saveDistCheckpointing stateDict
    -- the exported adapter of a bridge with a provider is not for loading
    huggingface :=
      if cfg.shouldSave .model && cfg.useHfCheckpoint && (cfg.vanillaBridge || !cfg.peft) then
        some (lib.saveWeights e.model)
      else none }

/-- `load_state_dict` of a module. -/
def loadStateDict (strict : Bool) (chunk stateDict : Dict W) : Except PyErr (Dict W) :=
  if strict && !(chunk.keys.all (· ∈ stateDict.keys) && stateDict.keys.all (· ∈ chunk.keys)) then
    .error (.runtimeError "Error(s) in loading state_dict")
  else .ok (chunk.mapVals fun name w => (stateDict.get? name).getD w)

/-- The model chunks, loaded from a state dict. -/
def loadDistModel (stateDict : StateDict W O R) (model : List (Dict W)) :
    Except PyErr (List (Dict W)) := do
  pyAssert (stateDict.keys.contains "model" || (List.range model.length).any fun vppRank =>
    stateDict.keys.contains (modelKey 2 vppRank)) "Model state dict not found"
  model.zipIdx.mapM fun p => do
    let modelStateDict ← if model.length = 1 then getModelSection stateDict "model" else do
      pyAssert (stateDict.keys.contains (modelKey 2 p.2)) "not found in state_dict"
      getModelSection stateDict (modelKey 2 p.2)
    loadStateDict (!cfg.peft) p.1 modelStateDict

def loadModel (stateDict : StateDict W O R) (ckpt : Checkpoint D H) (e : Engine W O R) :
    Except PyErr (Engine W O R) :=
  if cfg.shouldLoadDistModel then
    (loadDistModel cfg stateDict e.model).map fun model => { e with model := model }
  else if cfg.shouldLoad .model && cfg.useHfCheckpoint && !cfg.peft then
    match ckpt.huggingface with
    | some files => .ok { e with model := lib.loadWeights e.model files }
    | none => .error (.runtimeError "No HF model checkpoint")
  else .ok e

def loadOptimizer (stateDict : StateDict W O R) (e : Engine W O R) : Except PyErr (Engine W O R) :=
  match stateDict.get? "optimizer" with
  | some (.optimizer state) => do
    let e := { e with optimizer := state }
    if cfg.useCheckpointOptParamScheduler then
      match stateDict.get? "lr_scheduler" with
      | some (.lrScheduler state) =>
        return { e with lrScheduler := e.lrScheduler.map fun s => s.loadStateDict state }
      | _ => throw (.assertionError "LR scheduler state dict not found")
    else return e
  | _ => .error (.assertionError "Optimizer state dict not found")

def loadExtra (stateDict : StateDict W O R) (e : Engine W O R) : Except PyErr (Engine W O R) :=
  match stateDict.get? "rng_state" with
  | some (.rngState state) =>
    if state.rngTrackerStates.isEmpty then .error (.keyError "") else .ok { e with rng := state }
  | _ => .error (.assertionError "RNG state dict not found")

def loadCheckpoint (e : Engine W O R) (ckpt : Checkpoint D H) : Except PyErr (Engine W O R) := do
  let template := maybeFilterPeftStateDict lib cfg (generateStateDict e cfg.shouldLoadDistModel
    (cfg.shouldLoad .optimizer) (cfg.shouldLoad .extra))
  let stateDict ← lib.loadDistCheckpointing template ckpt.dist
  let e ← loadModel lib cfg stateDict ckpt e
  let e ← if cfg.shouldLoad .optimizer then loadOptimizer cfg stateDict e else pure e
  if cfg.shouldLoad .extra then loadExtra stateDict e else pure e

end Algorithm

/-! ## What a checkpoint is for -/

section Property

variable {W O R D H L : Type} (lib : Libraries W O R D H) (getLr : SchedulerArgs → Nat → L)
  (cfg : ManagerConfig)

/-- The learning rate that the schedule sets `k` steps later. -/
def Engine.lrAfter (e : Engine W O R) (k : Nat) : Option L :=
  e.lrScheduler.map fun s => getLr s.args (s.numSteps + k)

/-- An engine and a freshly initialised one of the same configs. -/
structure SameConfig (optim : OptimConfig) (e fresh : Engine W O R) : Prop where
  flag : cfg.useCheckpointOptParamScheduler = optim.useCheckpointOptParamScheduler
  chunks : e.model ≠ []
  names : List.Forall₂ (fun chunk chunk' => chunk.keys = chunk'.keys) fresh.model e.model
  scheduler : ∃ numSteps, e.lrScheduler =
    some { getMegatronOptimizerParamScheduler optim with numSteps := numSteps }
  fresh : fresh.lrScheduler = some (getMegatronOptimizerParamScheduler optim)

/-- The chunk that is to be loaded: with PEFT the adapters, beside the frozen parameters. -/
def loadedChunk (chunk freshChunk : Dict W) : Dict W :=
  if cfg.peft then freshChunk.mapVals fun name w =>
    if lib.adapterKeyFilter name then (chunk.get? name).getD w else w
  else chunk

/-- The components in `load_contents` have their saved values, the others are untouched, and with
the optimizer the learning rates of all later steps are those of the saved engine. -/
structure Resumed (e fresh loaded : Engine W O R) : Prop where
  model : loaded.model = if cfg.shouldLoad .model then
    List.zipWith (loadedChunk lib cfg) e.model fresh.model else fresh.model
  optimizer : loaded.optimizer = if cfg.shouldLoad .optimizer then e.optimizer else fresh.optimizer
  scheduler : cfg.shouldLoad .optimizer = false → loaded.lrScheduler = fresh.lrScheduler
  rng : loaded.rng = if cfg.shouldLoad .extra then e.rng else fresh.rng
  lr : cfg.shouldLoad .optimizer = true → ∀ k,
    loaded.lrAfter getLr (k + 1) = e.lrAfter getLr (k + 1)

/-- An engine is saved, and loaded into a fresh one. -/
def Resumes (e fresh : Engine W O R) : Prop :=
  ∃ ckpt loaded, saveCheckpoint lib cfg e = .ok ckpt ∧
    loadCheckpoint lib cfg fresh ckpt = .ok loaded ∧ Resumed lib getLr cfg e fresh loaded

/-- What the contents and the schedule have to be. -/
structure Ready (e : Engine W O R) : Prop where
  model : cfg.useDistCheckpointing = true → cfg.shouldSave .model = true
  lr : cfg.shouldLoad .optimizer = true → cfg.useCheckpointOptParamScheduler = false →
    ∀ s ∈ e.lrScheduler, ∀ k, getLr s.args (k + 1) = getLr s.args (s.numSteps + (k + 1))

end Property

/-! ## Lemmas: the keys of a state dict -/

theorem toDigits_injective {i j : Nat} (h : Nat.toDigits 10 i = Nat.toDigits 10 j) : i = j := by
  have hi := pyInt_toDigits i
  rw [h, pyInt_toDigits j] at hi
  exact (Int.ofNat.inj (Except.ok.inj hi)).symm

theorem toList_modelKey {n i : Nat} (hn : 1 < n) :
    (modelKey n i).toList = "model".toList ++ Nat.toDigits 10 i := by
  unfold modelKey
  rw [if_pos hn, String.toList_ofList]

theorem isModelStateKey_modelKey (n i : Nat) : isModelStateKey (modelKey n i) = true := by
  unfold isModelStateKey
  by_cases hn : 1 < n
  · have hdrop : ("model".toList ++ Nat.toDigits 10 i).drop 5 = Nat.toDigits 10 i :=
      List.drop_left' (by decide)
    rw [toList_modelKey hn, hdrop, LayerOffset.isDigits_toDigits, Bool.and_true,
      List.isPrefixOf_iff_prefix.2 (List.prefix_append _ _), Bool.or_true]
  · unfold modelKey
    rw [if_neg hn]
    decide

theorem modelKey_injective {n i j : Nat} (hi : i < n) (hj : j < n)
    (h : modelKey n i = modelKey n j) : i = j := by
  by_cases hn : 1 < n
  · have hlist := congrArg String.toList h
    rw [toList_modelKey hn, toList_modelKey hn, List.append_cancel_left_eq] at hlist
    exact toDigits_injective hlist
  · omega

section Generate

variable {W O R : Type}

variable (e : Engine W O R) (model : List (Dict W))

theorem keys_nodup_modelSections :
    ((model.zipIdx.map fun p => (modelKey model.length p.2, (Entry.model p.1 : Entry W O R))).map
      Prod.fst).Nodup := by
  rw [List.map_map]
  refine List.Nodup.map_on (fun p hp q hq heq => ?_) ?_
  · obtain ⟨chunk, i⟩ := p
    have hi := List.mem_zipIdx_iff_getElem?.1 hp
    have hj := List.mem_zipIdx_iff_getElem?.1 hq
    obtain rfl := modelKey_injective (List.getElem?_eq_some_iff.1 hi).1
      (List.getElem?_eq_some_iff.1 hj).1 heq
    rw [hi] at hj
    cases hj
    rfl
  · exact List.Nodup.of_map Prod.snd (by
      rw [List.zipIdx_map_snd]
      exact List.nodup_range')

theorem get?_modelSections (key : String) (entry : Entry W O R) :
    (modelSections model : StateDict W O R).get? key = some entry ↔
      ∃ i chunk, model[i]? = some chunk ∧ key = modelKey model.length i ∧ entry = .model chunk := by
  unfold modelSections
  rw [get?_ofItems_eq_some (keys_nodup_modelSections model), List.mem_map]
  constructor
  · grind
  · rintro ⟨i, chunk, hi, rfl, rfl⟩
    exact ⟨(chunk, i), List.mem_zipIdx_iff_getElem?.2 hi, rfl⟩

theorem get?_insert_new {β : Type} {d : Dict β} {k : String} (v : β) (h : d.get? k = none)
    (key : String) (entry : β) :
    (d.insert k v).get? key = some entry ↔ (key = k ∧ entry = v) ∨ d.get? key = some entry := by
  rw [get?_insert]
  by_cases hkey : key = k
  · grind
  · grind

theorem get?_modelSections_none {model : List (Dict W)} {key : String}
    (h : isModelStateKey key = false) :
    (modelSections model : StateDict W O R).get? key = none := by
  rw [Option.eq_none_iff_forall_ne_some]
  intro entry hentry
  obtain ⟨i, chunk, -, rfl, -⟩ := (get?_modelSections model key entry).1 hentry
  rw [isModelStateKey_modelKey] at h
  cases h

/-- The entries of a state dict. -/
inductive HasEntry (e : Engine W O R) (generateModel generateOptimizer generateExtra : Bool) :
    String → Entry W O R → Prop
  | model (i : Nat) (chunk : Dict W) (hgenerate : generateModel = true)
      (hchunk : e.model[i]? = some chunk) :
      HasEntry e generateModel generateOptimizer generateExtra (modelKey e.model.length i)
        (.model chunk)
  | optimizer (hgenerate : generateOptimizer = true) :
      HasEntry e generateModel generateOptimizer generateExtra "optimizer" (.optimizer e.optimizer)
  | lrScheduler (s : OptimizerParamScheduler) (hgenerate : generateOptimizer = true)
      (hs : e.lrScheduler = some s) :
      HasEntry e generateModel generateOptimizer generateExtra "lr_scheduler" (.lrScheduler s)
  | rngState (hgenerate : generateExtra = true) :
      HasEntry e generateModel generateOptimizer generateExtra "rng_state" (.rngState e.rng)

/-- The model sections, if they are generated. -/
def generatedSections (e : Engine W O R) (generate : Bool) : StateDict W O R :=
  if generate then modelSections e.model else Dict.empty

theorem get?_generatedSections_none (generate : Bool) {key : String}
    (h : isModelStateKey key = false) : (generatedSections e generate).get? key = none := by
  cases generate with
  | true => exact get?_modelSections_none h
  | false => rfl

/-- The state dict with the optimizer. -/
def withOptimizer (e : Engine W O R) (generateOptimizer : Bool) (d : StateDict W O R) :
    StateDict W O R :=
  if generateOptimizer then
    match e.lrScheduler with
    | some lrScheduler => (d.insert "optimizer" (.optimizer e.optimizer)).insert "lr_scheduler"
        (.lrScheduler lrScheduler)
    | none => d.insert "optimizer" (.optimizer e.optimizer)
  else d

theorem get?_withOptimizer (generateOptimizer : Bool) {d : StateDict W O R}
    (hd : ∀ key, isModelStateKey key = false → d.get? key = none) (key : String)
    (entry : Entry W O R) :
    (withOptimizer e generateOptimizer d).get? key = some entry ↔
      HasEntry e false generateOptimizer false key entry ∨ d.get? key = some entry := by
  have hopt := get?_insert_new (.optimizer e.optimizer) (hd "optimizer" (by decide))
  unfold withOptimizer
  cases generateOptimizer with
  | false =>
    constructor
    · exact .inr
    · rintro (h | h)
      · cases h with
        | model _ _ hgenerate => cases hgenerate
        | optimizer hgenerate => cases hgenerate
        | lrScheduler _ hgenerate => cases hgenerate
        | rngState hgenerate => cases hgenerate
      · exact h
  | true =>
    rw [if_pos rfl]
    cases hs : e.lrScheduler with
    | none =>
      rw [hopt]
      constructor
      · rintro (⟨rfl, rfl⟩ | h)
        · exact .inl (.optimizer rfl)
        · exact .inr h
      · rintro (h | h)
        · cases h with
          | model _ _ hgenerate => cases hgenerate
          | optimizer => exact .inl ⟨rfl, rfl⟩
          | lrScheduler s _ hs' =>
            rw [hs] at hs'
            cases hs'
          | rngState hgenerate => cases hgenerate
        · exact .inr h
    | some s =>
      have hnone : (d.insert "optimizer" (.optimizer e.optimizer)).get? "lr_scheduler" = none := by
        rw [get?_insert]
        exact hd _ (by decide)
      rw [get?_insert_new _ hnone, hopt]
      constructor
      · rintro (⟨rfl, rfl⟩ | ⟨rfl, rfl⟩ | h)
        · exact .inl (.lrScheduler s rfl hs)
        · exact .inl (.optimizer rfl)
        · exact .inr h
      · rintro (h | h)
        · cases h with
          | model _ _ hgenerate => cases hgenerate
          | optimizer => exact .inr (.inl ⟨rfl, rfl⟩)
          | lrScheduler s' _ hs' =>
            rw [hs] at hs'
            cases hs'
            exact .inl ⟨rfl, rfl⟩
          | rngState hgenerate => cases hgenerate
        · exact .inr (.inr h)

/-- The state dict without the random states; the model sections go if they were only for the
optimizer. -/
def withoutExtra (e : Engine W O R) (generateModel generateOptimizer : Bool) : StateDict W O R :=
  let d := withOptimizer e generateOptimizer
    (generatedSections e (generateModel || generateOptimizer))
  if generateModel then d else d.filterKeys fun key => !isModelStateKey key

theorem get?_withoutExtra (generateModel generateOptimizer : Bool)
    (key : String) (entry : Entry W O R) :
    (withoutExtra e generateModel generateOptimizer).get? key = some entry ↔
      HasEntry e generateModel generateOptimizer false key entry := by
  have hopt := get?_withOptimizer e generateOptimizer (d := generatedSections e
    (generateModel || generateOptimizer)) (fun key => get?_generatedSections_none e _) key entry
  unfold withoutExtra
  cases generateModel with
  | true =>
    rw [if_pos rfl, hopt, Bool.true_or]
    unfold generatedSections
    rw [if_pos rfl, get?_modelSections]
    constructor
    · rintro (h | ⟨i, chunk, hchunk, rfl, rfl⟩)
      · cases h with
        | model _ _ hgenerate => cases hgenerate
        | optimizer hgenerate => exact .optimizer hgenerate
        | lrScheduler s hgenerate hs => exact .lrScheduler s hgenerate hs
        | rngState hgenerate => cases hgenerate
      · exact .model i chunk rfl hchunk
    · intro h
      cases h with
      | model i chunk _ hchunk => exact .inr ⟨i, chunk, hchunk, rfl, rfl⟩
      | optimizer hgenerate => exact .inl (.optimizer hgenerate)
      | lrScheduler s hgenerate hs => exact .inl (.lrScheduler s hgenerate hs)
      | rngState hgenerate => cases hgenerate
  | false =>
    rw [if_neg (by decide), get?_filterKeys]
    constructor
    · intro h
      split at h
      · next hkey =>
        rw [Bool.not_eq_true'] at hkey
        rw [hopt, get?_generatedSections_none e _ hkey] at h
        exact h.resolve_right (by simp)
      · cases h
    · intro h
      have hkey : isModelStateKey key = false := by
        cases h with
        | model _ _ hgenerate => cases hgenerate
        | optimizer | lrScheduler => decide
        | rngState hgenerate => cases hgenerate
      rw [hkey, if_pos (by decide), hopt]
      exact .inl h

theorem get?_generateStateDict (generateModel generateOptimizer generateExtra : Bool) (key : String) (entry : Entry W O R) :
    (generateStateDict e generateModel generateOptimizer generateExtra).get? key = some entry ↔
      HasEntry e generateModel generateOptimizer generateExtra key entry := by
  have hrest := get?_withoutExtra e generateModel generateOptimizer
  show (if generateExtra then (withoutExtra e generateModel generateOptimizer).insert "rng_state"
    (.rngState e.rng) else withoutExtra e generateModel generateOptimizer).get? key = some entry ↔ _
  cases generateExtra with
  | false =>
    exact hrest key entry
  | true =>
    have hnone : (withoutExtra e generateModel generateOptimizer).get? "rng_state" = none := by
      rw [Option.eq_none_iff_forall_ne_some]
      intro entry' hentry'
      have hentry := (hrest _ _).1 hentry'
      generalize hkey : "rng_state" = key' at hentry
      cases hentry with
      | model i chunk =>
        have hmodel := isModelStateKey_modelKey e.model.length i
        rw [← hkey] at hmodel
        revert hmodel
        decide
      | optimizer | lrScheduler => revert hkey; decide
      | rngState hgenerate => cases hgenerate
    rw [if_pos rfl, get?_insert_new _ hnone, hrest]
    constructor
    · rintro (⟨rfl, rfl⟩ | h)
      · exact .rngState rfl
      · cases h with
        | model i chunk hgenerate hchunk => exact .model i chunk hgenerate hchunk
        | optimizer hgenerate => exact .optimizer hgenerate
        | lrScheduler s hgenerate hs => exact .lrScheduler s hgenerate hs
        | rngState hgenerate => cases hgenerate
    · intro h
      cases h with
      | model i chunk hgenerate hchunk => exact .inr (.model i chunk hgenerate hchunk)
      | optimizer hgenerate => exact .inr (.optimizer hgenerate)
      | lrScheduler s hgenerate hs => exact .inr (.lrScheduler s hgenerate hs)
      | rngState => exact .inl ⟨rfl, rfl⟩

end Generate

end Verl.MegatronCheckpoint
