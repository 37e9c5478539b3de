import Verl.Lib.PyStr

/-! # Sending the weights to the rollout

`ActorRolloutRefWorker.update_weights` sends what `get_per_tensor_param` returns, either to the
colocated rollout (`"naive"`) or through a checkpoint engine:

                        naive                                       checkpoint engine
    all parameters      weights                                     weights
    merged adapters     weights                                     weights
    adapters            [base, if not sent yet], adapter            base

* `Worker`, `updateWeights`: the actor, the flag and what has arrived at the rollout.
* `Synced`: the rollout computes with the weights of the actor.
* `synced_iff`: a call of the first kind fails only if the base was never there; one of the second
  only if the adapter was trained since it was last sent, or was never. -/

namespace Verl.ActorRollout

structure Config where
  /-- There is an adapter. -/
  lora : Bool
  /-- `model.lora.merge`. -/
  peftMerge : Bool
  /-- `rollout.checkpoint_engine.backend`. -/
  backend : String
  /-- `rollout.load_format`. -/
  loadFormat : String

structure Actor (B A : Type) where
  base : B
  adapter : A

/-- What `get_per_tensor_param` returns. -/
inductive Params (B A : Type)
  | weights (w : B)
  | adapter (a : A)

/-- What was sent last; the base may be loaded from the start. -/
structure Rollout (B A : Type) where
  base : Option B
  adapter : Option A

structure Worker (B A : Type) where
  actor : Actor B A
  baseSyncDone : Bool
  rollout : Rollout B A

section Model

variable {B A : Type} (merge : B → A → B) (C : Config)

/-! ## The weights of the two -/

def Actor.effective (a : Actor B A) : B := if C.lora then merge a.base a.adapter else a.base

def withAdapter (w : B) (adapter : Option A) : B := adapter.elim w (merge w)

def Rollout.effective (r : Rollout B A) : Option B := r.base.map fun w => withAdapter merge w r.adapter

def Synced (s : Worker B A) : Prop := s.rollout.effective merge = some (s.actor.effective merge C)

/-! ## A call -/

/-- `get_per_tensor_param`, and whether there is a `peft_config` with it. -/
def getPerTensorParam (a : Actor B A) (baseSyncDone : Bool) : Params B A × Bool :=
  if C.lora && !C.peftMerge then
    (if baseSyncDone then .adapter a.adapter else .weights a.base, true)
  else (.weights (a.effective merge C), false)

/-- `update_weights` of the rollout: an adapter is added as such, and all else is loaded. -/
def Rollout.updateWeights (r : Rollout B A) (params : Params B A) (peftConfig baseSyncDone : Bool) :
    Rollout B A :=
  match peftConfig && baseSyncDone, params with
  | true, .adapter a => { r with adapter := some a }
  | false, .weights w => { r with base := some w }
  | _, _ => r

def Config.effectiveMode (mode : String) : String := if mode != "auto" then mode else C.backend

def updateWeights (mode : String) (s : Worker B A) : Worker B A :=
  if C.effectiveMode mode != "naive" then
    let (perTensorParam, _) := getPerTensorParam merge C s.actor false
    { s with rollout := s.rollout.updateWeights perTensorParam false false }
  else
    let (perTensorParam, peftConfig) := getPerTensorParam merge C s.actor true
    let doLoraBaseSync := !C.peftMerge && peftConfig && !s.baseSyncDone
    let rollout :=
      if doLoraBaseSync then
        let (perTensorParamBase, peftConfig) := getPerTensorParam merge C s.actor false
        s.rollout.updateWeights perTensorParamBase peftConfig false
      else s.rollout
    { s with rollout := rollout.updateWeights perTensorParam peftConfig true, baseSyncDone := true }

/-! ## Runs -/

/-- What goes on at the actor; the base of an adapter is frozen. -/
inductive Op (B A : Type)
  | updateActor (base : B) (adapter : A)
  | updateWeights (mode : String)

def Op.run (s : Worker B A) : Op B A → Worker B A
  | .updateActor base adapter =>
    { s with actor := if C.lora then { s.actor with adapter := adapter }
                      else { s.actor with base := base } }
  | .updateWeights mode => ActorRollout.updateWeights merge C mode s

def Config.preloads : Bool := !pyIn "dummy".toList C.loadFormat.toList

/-- The actor and the rollout load the same checkpoint. -/
def start (base : B) (adapter : A) (baseSyncDone : Bool) : Worker B A where
  actor := { base := base, adapter := adapter }
  baseSyncDone := baseSyncDone
  rollout := { base := if C.preloads then some base else none, adapter := none }

def Op.isNaive : Op B A → Bool
  | .updateActor .. => false
  | .updateWeights mode => C.effectiveMode mode == "naive"

def Op.isSend : Op B A → Bool
  | .updateActor .. => false
  | .updateWeights mode => C.effectiveMode mode != "naive"

/-- The adapter of now, and the one of the last naive call. -/
def Op.adapters (now : A × Option A) : Op B A → A × Option A
  | .updateActor _ adapter => (adapter, now.2)
  | .updateWeights mode => (now.1, if C.effectiveMode mode = "naive" then some now.1 else now.2)

@[simp] theorem Op.isNaive_updateActor (base : B) (adapter : A) :
    (Op.updateActor base adapter).isNaive C = false := rfl

@[simp] theorem Op.isSend_updateActor (base : B) (adapter : A) :
    (Op.updateActor base adapter).isSend C = false := rfl

@[simp] theorem Op.isNaive_updateWeights (mode : String) :
    (Op.updateWeights mode : Op B A).isNaive C = (C.effectiveMode mode == "naive") := rfl

@[simp] theorem Op.isSend_updateWeights (mode : String) :
    (Op.updateWeights mode : Op B A).isSend C = (C.effectiveMode mode != "naive") := rfl

end Model

/-! ## Weights without adapters -/

section Weights

variable {B A : Type} {merge : B → A → B} {C : Config}

theorem getPerTensorParam_weights (h : ¬(C.lora = true ∧ C.peftMerge = false)) (a : Actor B A)
    (baseSyncDone : Bool) :
    getPerTensorParam merge C a baseSyncDone = (.weights (a.effective merge C), false) := by
  unfold getPerTensorParam
  rw [if_neg (by simpa using h)]

theorem updateWeights_weights (h : ¬(C.lora = true ∧ C.peftMerge = false)) (mode : String)
    (s : Worker B A) :
    (updateWeights merge C mode s).rollout =
      { s.rollout with base := some (s.actor.effective merge C) } := by
  unfold updateWeights
  simp only [getPerTensorParam_weights h, Bool.and_false]
  split <;> rfl

theorem actor_updateWeights (mode : String) (s : Worker B A) :
    (updateWeights merge C mode s).actor = s.actor := by
  unfold updateWeights
  split <;> rfl

theorem adapter_weights (merge : B → A → B) (h : ¬(C.lora = true ∧ C.peftMerge = false)) (base : B) (adapter : A)
    (baseSyncDone : Bool) (history : List (Op B A)) :
    (history.foldl (Op.run merge C) (start C base adapter baseSyncDone)).rollout.adapter = none := by
  refine List.foldlRecOn (motive := fun s : Worker B A => s.rollout.adapter = none) history _ rfl ?_
  intro s hs op _
  cases op with
  | updateActor base adapter => exact hs
  | updateWeights mode =>
    show (updateWeights merge C mode s).rollout.adapter = none
    rw [updateWeights_weights h]
    exact hs

end Weights

/-! ## Adapters -/

section Adapter

variable {B A : Type} {merge : B → A → B} {C : Config}

section

variable (hlora : C.lora = true) (hmerge : C.peftMerge = false)
include hlora hmerge

theorem getPerTensorParam_adapter (a : Actor B A) (baseSyncDone : Bool) :
    getPerTensorParam merge C a baseSyncDone =
      (if baseSyncDone then .adapter a.adapter else .weights a.base, true) := by
  unfold getPerTensorParam
  rw [if_pos (by simp [hlora, hmerge])]

theorem updateWeights_send {mode : String}
    (hmode : C.effectiveMode mode ≠ "naive") (s : Worker B A) :
    updateWeights merge C mode s =
      { s with rollout := { s.rollout with base := some s.actor.base } } := by
  unfold updateWeights
  rw [if_pos (by simpa using hmode), getPerTensorParam_adapter hlora hmerge]
  rfl

theorem updateWeights_naive {mode : String}
    (hmode : C.effectiveMode mode = "naive") (s : Worker B A) :
    updateWeights merge C mode s =
      { s with
        rollout :=
          { base := if s.baseSyncDone then s.rollout.base else some s.actor.base,
            adapter := some s.actor.adapter }
        baseSyncDone := true } := by
  unfold updateWeights
  rw [if_neg (by simpa using hmode), getPerTensorParam_adapter hlora hmerge,
    getPerTensorParam_adapter hlora hmerge, hmerge]
  cases s.baseSyncDone <;> rfl

end

/-- What a run has trained and sent. -/
structure Sent (C : Config) (base : B) (adapter : A) (baseSyncDone : Bool)
    (history : List (Op B A)) (s : Worker B A) : Prop where
  actor : s.actor.base = base
  flag : s.baseSyncDone = (baseSyncDone || history.any (Op.isNaive C))
  rollout : s.rollout.base =
    if C.preloads || history.any (Op.isSend C) || (!baseSyncDone && history.any (Op.isNaive C)) then
      some base
    else none
  adapters : (s.actor.adapter, s.rollout.adapter) = history.foldl (Op.adapters C) (adapter, none)

theorem sent_of_run (merge : B → A → B) (hlora : C.lora = true) (hmerge : C.peftMerge = false) (base : B) (adapter : A)
    (baseSyncDone : Bool) (history : List (Op B A)) :
    Sent C base adapter baseSyncDone history
      (history.foldl (Op.run merge C) (start C base adapter baseSyncDone)) := by
  induction history using List.reverseRecOn with
  | nil =>
    refine ⟨rfl, (Bool.or_false _).symm, ?_, rfl⟩
    simp [start]
  | append_singleton history op ih =>
    have hadapters := ih.adapters
    rw [List.foldl_append]
    cases op with
    | updateActor base' adapter' =>
      have hactor : (Op.run merge C (history.foldl (Op.run merge C)
          (start C base adapter baseSyncDone)) (.updateActor base' adapter')).actor.base = base := by
        simp [Op.run, hlora, ih.actor]
      have hnaive : (history ++ [Op.updateActor base' adapter']).any (Op.isNaive C) =
          history.any (Op.isNaive C) := by simp
      have hsend : (history ++ [Op.updateActor base' adapter']).any (Op.isSend C) =
          history.any (Op.isSend C) := by simp
      refine ⟨hactor, ?_, ?_, ?_⟩
      · rw [hnaive]
        exact ih.flag
      · rw [hnaive, hsend]
        exact ih.rollout
      · rw [List.foldl_append, ← hadapters]
        simp [Op.run, Op.adapters, hlora]
    | updateWeights mode =>
      show Sent C base adapter baseSyncDone _ (updateWeights merge C mode _)
      by_cases hmode : C.effectiveMode mode = "naive"
      · rw [updateWeights_naive hlora hmerge hmode]
        refine ⟨ih.actor, ?_, ?_, ?_⟩
        · simp [hmode]
        · dsimp only
          rw [ih.flag, ih.rollout, ih.actor]
          simp only [List.any_append, List.any_cons, Op.isNaive_updateWeights,
            Op.isSend_updateWeights, hmode]
          cases baseSyncDone <;> cases history.any (Op.isNaive C) <;> simp
        · rw [List.foldl_append, ← hadapters]
          simp [Op.adapters, hmode]
      · rw [updateWeights_send hlora hmerge hmode]
        have hnaive : (C.effectiveMode mode == "naive") = false := beq_eq_false_iff_ne.2 hmode
        refine ⟨ih.actor, ?_, ?_, ?_⟩
        · simp [hnaive, ih.flag]
        · simp [hmode, ih.actor]
        · rw [List.foldl_append, ← hadapters]
          simp [Op.adapters, hmode]

/-- Every call of every run: what it leaves at the rollout is the actor's. -/
theorem synced_iff (C : Config) (base : B) (adapter : A) (baseSyncDone : Bool)
    (history : List (Op B A)) (mode : String) :
    Synced merge C (updateWeights merge C mode
        (history.foldl (Op.run merge C) (start C base adapter baseSyncDone))) ↔
      (C.lora = true → C.peftMerge = false →
        if C.effectiveMode mode = "naive" then
          C.preloads = true ∨ baseSyncDone = false ∨ history.any (Op.isSend C) = true
        else
          withAdapter merge base (history.foldl (Op.adapters C) (adapter, none)).2 =
            merge base (history.foldl (Op.adapters C) (adapter, none)).1) := by
  by_cases h : C.lora = true ∧ C.peftMerge = false
  · obtain ⟨hlora, hmerge⟩ := h
    have hsent := sent_of_run merge hlora hmerge base adapter baseSyncDone history
    rw [← hsent.adapters]
    unfold Synced Rollout.effective Actor.effective
    by_cases hmode : C.effectiveMode mode = "naive"
    · rw [updateWeights_naive hlora hmerge hmode, if_pos hmode, hsent.flag, hsent.rollout,
        hsent.actor]
      simp only [hlora, hmerge]
      cases C.preloads <;> cases baseSyncDone <;> cases history.any (Op.isSend C) <;>
        cases history.any (Op.isNaive C) <;> simp [withAdapter]
    · rw [updateWeights_send hlora hmerge hmode, if_neg hmode, hsent.actor]
      simp only [hlora, hmerge, true_implies]
      exact Option.some_inj
  · have hadapter := adapter_weights merge h base adapter baseSyncDone history
    have hsynced : Synced merge C (updateWeights merge C mode
        (history.foldl (Op.run merge C) (start C base adapter baseSyncDone))) := by
      unfold Synced Rollout.effective
      rw [updateWeights_weights h, actor_updateWeights, hadapter]
      rfl
    exact iff_of_true hsynced fun hlora hmerge => absurd ⟨hlora, hmerge⟩ h

/-- An adapter goes to a checkpoint engine as its base only: `5`, and not `5 + 6`. -/
theorem adapter_not_sent :
    ¬ ∀ (C : Config) (base adapter : Nat) (baseSyncDone : Bool) (history : List (Op Nat Nat))
        (mode : String),
      Synced (· + ·) C (updateWeights (· + ·) C mode
        (history.foldl (Op.run (· + ·) C) (start C base adapter baseSyncDone))) := by
  intro h
  have hsynced := h ⟨true, false, "nccl", "safetensors"⟩ 5 6 true [] "auto"
  revert hsynced
  unfold Synced
  decide

end Adapter

end Verl.ActorRollout
