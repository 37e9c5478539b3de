import Verl.Lib.Python
import Verl.Trainer.Resume

/-! # Resuming the one-step-off-policy trainer

`OneStepOffRayTrainer.fit` generates the responses to a batch while it trains on the one before.

    step g:   await batch g ; start batch g + 1 ; train on batch g ; save

So the dataloader is one batch ahead of the step when a checkpoint is saved, and the batch under
way is in no checkpoint.

* `StatefulDataLoader`: what the trainer relies on of the dataloader.  The batches of an iteration
  may depend on how many went before, as a shuffling sampler has it.
* `nextBatch`: the generator `_create_continuous_iterator`.
* `fit`: a run from scratch or from a checkpoint. -/

namespace Verl.OneStepOffPolicy

open List

open Resume (Config saveDue)

/-! ## Algorithm -/

/-- A dataloader that gives the batches `order 0`, then `order 1` and so on.

* `next l` is `next` of the iterator of `l`, where an iterator that has ended is followed by a new
  one.
* `place l` is the number of iterations that have ended, and of the batches given since. -/
structure StatefulDataLoader (Loader StateDict Batch : Type) where
  length : Nat
  order : Nat → List Batch
  length_order : ∀ i, (order i).length = length
  fresh : Loader
  next : Loader → Option Batch × Loader
  stateDict : Loader → StateDict
  loadStateDict : Loader → StateDict → Loader
  place : Loader → Nat × Nat
  place_fresh : place fresh = (0, 0)
  next_fst : ∀ l, (next l).1 = (order (place l).1)[(place l).2]?
  place_next : ∀ l, place (next l).2 =
    if (next l).1.isSome then ((place l).1, (place l).2 + 1) else ((place l).1 + 1, 0)
  /-- The saved state describes the batches that were given so far. -/
  place_loadStateDict : ∀ l, place (loadStateDict fresh (stateDict l)) = place l

variable {Loader StateDict Batch : Type}

/-- The state of a run; `epochs` are those `continuous_iterator` has still to go through, the
current one included. -/
structure Run (Loader StateDict Batch : Type) where
  globalSteps : Nat
  epochs : List Nat
  dataloader : Loader
  /-- What `batch_data_future` returns; the batch is taken when the task is created. -/
  future : Option (Nat × Batch)
  /-- History: the steps, with their batches. -/
  trained : List (Nat × Batch)
  checkpoints : List (Nat × StateDict)
  error : Option PyErr

section Fit

variable (D : StatefulDataLoader Loader StateDict Batch) (cfg : Config) (esi : Nat → Bool)

/-- `self.total_training_steps`. -/
def totalTrainingSteps : Nat :=
  cfg.totalTrainingSteps.getD (D.length * cfg.totalEpochs)

/-- `next(continuous_iterator)`, with the epochs and the dataloader it leaves. -/
def nextBatch : List Nat → Loader → Option (Nat × Batch) × List Nat × Loader
  | [], l => (none, [], l)
  | epoch :: epochs, l =>
    match D.next l with
    | (some batch, l') => (some (epoch, batch), epoch :: epochs, l')
    | (none, l') => nextBatch epochs l'

/-- `asyncio.create_task(self._async_gen_next_batch(continuous_iterator))`. -/
def asyncGenNextBatch (r : Run Loader StateDict Batch) : Run Loader StateDict Batch :=
  { r with
    future := (nextBatch D r.epochs r.dataloader).1
    epochs := (nextBatch D r.epochs r.dataloader).2.1
    dataloader := (nextBatch D r.epochs r.dataloader).2.2 }

/-- The conditions of `_fit_save_checkpoint`; `esi g` says that the capacity expires at step `g`. -/
def shouldSave (globalSteps : Nat) (isLastStep : Bool) : Bool :=
  saveDue cfg globalSteps isLastStep || decide (0 < cfg.saveFreq) && esi globalSteps

/-- `_fit_generate` up to the next task. -/
def fitGenerate (isLastStep : Bool) (r : Run Loader StateDict Batch) : Run Loader StateDict Batch :=
  if isLastStep then { r with future := none } else asyncGenNextBatch D r

def fitStep (r : Run Loader StateDict Batch) : Run Loader StateDict Batch :=
  let isLastStep := decide (totalTrainingSteps D cfg ≤ r.globalSteps)
  match r.future with
  | none => { r with error := some (.typeError "cannot unpack non-iterable NoneType object") }
  | some (_, batch) =>
    let r' := fitGenerate D isLastStep r
    { r' with
      trained := r.trained ++ [(r.globalSteps, batch)]
      checkpoints :=
        if shouldSave cfg esi r.globalSteps isLastStep then
          r.checkpoints ++ [(r.globalSteps, D.stateDict r'.dataloader)]
        else r.checkpoints
      globalSteps := r.globalSteps + 1 }

theorem fitStep_of_future {r : Run Loader StateDict Batch} {p : Nat × Batch}
    (h : r.future = some p) :
    (fitStep D cfg esi r).globalSteps = r.globalSteps + 1 ∧
    (fitStep D cfg esi r).error = r.error ∧
    (fitStep D cfg esi r).trained = r.trained ++ [(r.globalSteps, p.2)] := by
  unfold fitStep
  rw [h]
  refine ⟨rfl, ?_, rfl⟩
  show (fitGenerate D _ r).error = r.error
  unfold fitGenerate
  split <;> rfl

theorem error_fitStep_of_none {r : Run Loader StateDict Batch} (h : r.future = none) :
    (fitStep D cfg esi r).error.isSome = true := by
  unfold fitStep
  rw [h]
  rfl

/-- `while batch_data_future is not None`: the task of the next batch is `None` only behind the last
step. -/
def fitLoop (r : Run Loader StateDict Batch) : Run Loader StateDict Batch :=
  if (fitStep D cfg esi r).error.isSome = true ∨ totalTrainingSteps D cfg ≤ r.globalSteps then
    fitStep D cfg esi r
  else fitLoop (fitStep D cfg esi r)
termination_by totalTrainingSteps D cfg - r.globalSteps
decreasing_by
  rename_i h
  rw [not_or] at h
  cases hfuture : r.future with
  | none => exact absurd (error_fitStep_of_none D cfg esi hfuture) h.1
  | some p =>
    rw [(fitStep_of_future D cfg esi hfuture).1]
    omega

/-- `_load_checkpoint` of `RayPPOTrainer`: `global_steps` and the dataloader. -/
def loadCheckpoint : Option (Nat × StateDict) → Nat × Loader
  | none => (0, D.fresh)
  | some (step, state) =>
    (step, if 0 < D.length ∧ step % D.length = 0 then D.fresh else D.loadStateDict D.fresh state)

def fit (checkpoint : Option (Nat × StateDict)) : Run Loader StateDict Batch :=
  let (globalSteps, l) := loadCheckpoint D checkpoint
  fitLoop D cfg esi <| asyncGenNextBatch D
    { globalSteps := globalSteps + 1
      epochs := List.range cfg.totalEpochs
      dataloader := l
      future := none
      trained := []
      checkpoints := []
      error := none }

/-- The run resumed from a checkpoint trains on what the uninterrupted run trains on after the
step of the checkpoint. -/
def Resumes (checkpoint : Nat × StateDict) : Prop :=
  (fit D cfg esi (some checkpoint)).trained =
    (fit D cfg esi none).trained.filter fun e => checkpoint.1 < e.1

end Fit

/-! ## What a run trains on -/

def number : Nat → List Batch → List (Nat × Batch)
  | _, [] => []
  | step, batch :: batches => (step, batch) :: number (step + 1) batches

theorem map_snd_number (step : Nat) (batches : List Batch) :
    (number step batches).map Prod.snd = batches := by
  induction batches generalizing step with
  | nil => rfl
  | cons batch batches ih => rw [number, map_cons, ih]

theorem number_inj {step : Nat} {xs ys : List Batch} : number step xs = number step ys ↔ xs = ys := by
  constructor
  · intro h
    have hsnd := congrArg (List.map Prod.snd) h
    rwa [map_snd_number, map_snd_number] at hsnd
  · rintro rfl
    rfl

theorem le_of_mem_number {step : Nat} {batches : List Batch} {e : Nat × Batch}
    (h : e ∈ number step batches) : step ≤ e.1 := by
  induction batches generalizing step with
  | nil => cases h
  | cons batch batches ih =>
    rcases mem_cons.1 h with rfl | h
    · exact Nat.le_refl _
    · exact Nat.le_of_succ_le (ih h)

theorem filter_number (batches : List Batch) (step k : Nat) :
    (number (step + 1) batches).filter (fun e => step + k < e.1) =
      number (step + k + 1) (batches.drop k) := by
  induction batches generalizing step k with
  | nil => rw [drop_nil]; rfl
  | cons batch batches ih =>
    cases k with
    | zero =>
      rw [drop_zero, filter_eq_self]
      intro e he
      exact decide_eq_true (le_of_mem_number he)
    | succ k =>
      have hstep : step + 1 + k = step + (k + 1) := by omega
      rw [number, filter_cons_of_neg (by simp), ← hstep]
      exact ih (step + 1) k

section Spec

variable (D : StatefulDataLoader Loader StateDict Batch) (cfg : Config) (esi : Nat → Bool)

/-- The batch at place `m` of all that the dataloader gives. -/
def stream (m : Nat) : Option Batch := (D.order (m / D.length))[m % D.length]?

/-- The batches that are left of the epochs, from a place on. -/
def rest : List Nat → Nat × Nat → List Batch
  | [], _ => []
  | _ :: epochs, p => (D.order p.1).drop p.2 ++ rest epochs (p.1 + 1, 0)

variable {l : Loader} {p : Nat × Batch} {state : StateDict} {k step : Nat}

theorem stream_isSome (hpos : 0 < D.length) (m : Nat) : (stream D m).isSome = true := by
  have hlt : m % D.length < (D.order (m / D.length)).length := by
    rw [D.length_order]
    exact Nat.mod_lt _ hpos
  unfold stream
  rw [getElem?_eq_getElem hlt]
  rfl

theorem stream_eq {i : Nat} (hk : k < D.length) :
    stream D (i * D.length + k) = (D.order i)[k]? := by
  have hdiv : (i * D.length + k) / D.length = i := by
    rw [Nat.mul_comm, Nat.mul_add_div (by omega), Nat.div_eq_of_lt hk, Nat.add_zero]
  have hmod : (i * D.length + k) % D.length = k := by
    rw [Nat.mul_comm, Nat.mul_add_mod, Nat.mod_eq_of_lt hk]
  unfold stream
  rw [hdiv, hmod]

variable (epochs : List Nat) (i : Nat) (r : Run Loader StateDict Batch) {m : Nat}

theorem getElem?_rest (hk : k ≤ D.length) (j : Nat) :
    (rest D epochs (i, k))[j]? =
      if k + j < D.length * epochs.length then stream D (i * D.length + k + j) else none := by
  induction epochs generalizing i k j with
  | nil => rfl
  | cons epoch epochs ih =>
    have hlen : ((D.order i).drop k).length = D.length - k := by
      rw [length_drop, D.length_order]
    rw [rest, getElem?_append, hlen, length_cons, Nat.mul_succ]
    by_cases hj : j < D.length - k
    · rw [if_pos hj, if_pos (by omega), getElem?_drop, Nat.add_assoc, stream_eq D (by omega)]
    · grind

theorem length_rest (hk : k ≤ D.length) :
    (rest D epochs (i, k)).length = D.length * epochs.length - k := by
  induction epochs generalizing i k with
  | nil =>
    rw [length_nil, Nat.mul_zero, Nat.zero_sub]
    rfl
  | cons epoch epochs ih =>
    rw [rest, length_append, length_drop, D.length_order, ih _ (Nat.zero_le _),
      length_cons, Nat.mul_succ]
    omega

/-- The batches a run has in view, the one in the task first. -/
def Run.batches (r : Run Loader StateDict Batch) : List Batch :=
  match r.future with
  | none => []
  | some (_, batch) => batch :: rest D r.epochs (D.place r.dataloader)

theorem nextBatch_rest (l : Loader) : rest D epochs (D.place l) =
      match (nextBatch D epochs l).1 with
      | none => []
      | some (_, batch) => batch ::
          rest D (nextBatch D epochs l).2.1 (D.place (nextBatch D epochs l).2.2) := by
  induction epochs generalizing l with
  | nil => rfl
  | cons epoch epochs ih =>
    have hfst := D.next_fst l
    have hplace := D.place_next l
    rw [rest, nextBatch]
    rcases hnext : D.next l with ⟨batch, l'⟩
    rw [hnext] at hfst hplace
    cases batch with
    | none =>
      have hnil : (D.order (D.place l).1).drop (D.place l).2 = [] :=
        drop_eq_nil_iff.2 (getElem?_eq_none_iff.1 hfst.symm)
      rw [hnil]
      have hplace : D.place l' = ((D.place l).1 + 1, 0) := hplace
      rw [← hplace]
      exact ih l'
    | some batch =>
      have hplace : D.place l' = ((D.place l).1, (D.place l).2 + 1) := hplace
      obtain ⟨hlt, hget⟩ := List.getElem?_eq_some_iff.1 hfst.symm
      rw [drop_eq_getElem_cons hlt, hget, cons_append]
      rw [hplace, rest]

theorem batches_asyncGenNextBatch :
    (asyncGenNextBatch D r).batches D = rest D r.epochs (D.place r.dataloader) :=
  (nextBatch_rest D r.epochs r.dataloader).symm

/-- How many batches a run goes on for at a step: one at least. -/
def stepsLeft (globalSteps : Nat) : Nat := max 1 (totalTrainingSteps D cfg + 1 - globalSteps)

theorem fitLoop_trained (herror : r.error = none) :
    (fitLoop D cfg esi r).trained =
      r.trained ++ number r.globalSteps ((r.batches D).take (stepsLeft D cfg r.globalSteps)) := by
  fun_induction fitLoop D cfg esi r with
  | case1 r hstop =>
    cases hfuture : r.future with
    | none =>
      unfold fitStep Run.batches
      rw [hfuture, take_nil]
      exact (append_nil _).symm
    | some p =>
      obtain ⟨-, herr, htrained⟩ := fitStep_of_future D cfg esi hfuture
      have hlast : totalTrainingSteps D cfg ≤ r.globalSteps := by grind
      have hleft : stepsLeft D cfg r.globalSteps = 1 := by
        unfold stepsLeft
        omega
      unfold Run.batches
      rw [htrained, hfuture, hleft]
      rfl
  | case2 r hgo ih =>
    rw [not_or] at hgo
    cases hfuture : r.future with
    | none => exact absurd (error_fitStep_of_none D cfg esi hfuture) hgo.1
    | some p =>
      obtain ⟨hsteps, herr, htrained⟩ := fitStep_of_future D cfg esi hfuture
      have hleft : stepsLeft D cfg r.globalSteps = stepsLeft D cfg (r.globalSteps + 1) + 1 := by
        unfold stepsLeft
        omega
      have hbatches : r.batches D = p.2 :: (fitStep D cfg esi r).batches D := by
        have hgen := batches_asyncGenNextBatch D r
        unfold Run.batches
        rw [← hgen]
        unfold fitStep
        rw [hfuture, decide_eq_false hgo.2]
        rfl
      rw [ih (herr.trans herror), htrained, hsteps, hbatches, hleft,
        append_assoc]
      rfl

/-! ## Checkpoints -/

/-- How many batches were given, in all iterations. -/
def position (l : Loader) : Nat := (D.place l).1 * D.length + (D.place l).2

/-- The last batch given is the one before place `m`. -/
structure GaveBefore (l : Loader) (m : Nat) : Prop where
  position : position D l = m
  pos : 0 < (D.place l).2
  le : (D.place l).2 ≤ D.length

theorem nextBatch_gave {epochs : List Nat} (hle : (D.place l).2 ≤ D.length)
    (h : (nextBatch D epochs l).1 = some p) :
    GaveBefore D (nextBatch D epochs l).2.2 (position D l + 1) := by
  induction epochs generalizing l with
  | nil => cases h
  | cons epoch epochs ih =>
    have hfst := D.next_fst l
    have hplace := D.place_next l
    rw [nextBatch] at h ⊢
    rcases hnext : D.next l with ⟨batch, l'⟩
    rw [hnext] at h hfst hplace
    cases batch with
    | none =>
      have hplace : D.place l' = ((D.place l).1 + 1, 0) := hplace
      have hge := getElem?_eq_none_iff.1 hfst.symm
      rw [D.length_order] at hge
      have hposition : position D l' = position D l := by
        unfold position
        rw [hplace, Nat.add_one_mul]
        omega
      rw [← hposition]
      exact ih (by rw [hplace]; exact Nat.zero_le _) h
    | some batch =>
      obtain ⟨hlt, -⟩ := List.getElem?_eq_some_iff.1 hfst.symm
      rw [D.length_order] at hlt
      refine ⟨?_, ?_, ?_⟩
      · unfold position
        rw [hplace]
        rfl
      · grind
      · grind

theorem GaveBefore.place_eq (h : GaveBefore D l (m + 1)) :
    D.place l = (m / D.length, m % D.length + 1) := by
  have hposition := h.position
  unfold OneStepOffPolicy.position at hposition
  have hpos := h.pos
  have hle := h.le
  have hm : m = D.length * (D.place l).1 + ((D.place l).2 - 1) := by
    rw [Nat.mul_comm]
    omega
  have hdiv : m / D.length = (D.place l).1 := by
    rw [hm, Nat.mul_add_div (by omega), Nat.div_eq_of_lt (by omega), Nat.add_zero]
  have hmod : m % D.length = (D.place l).2 - 1 := by
    rw [hm, Nat.mul_add_mod, Nat.mod_eq_of_lt (by omega)]
  rw [hdiv, hmod, Nat.sub_add_cancel hpos]

theorem GaveBefore.place_of_mid (h : GaveBefore D l m)
    (hmid : m % D.length ≠ 0) : D.place l = (m / D.length, m % D.length) := by
  have hposition := h.position
  unfold OneStepOffPolicy.position at hposition
  have hle := h.le
  have hm : m = D.length * (D.place l).1 + (D.place l).2 := by
    rw [Nat.mul_comm]
    omega
  have hne : (D.place l).2 ≠ D.length := by
    intro heq
    apply hmid
    rw [hm, heq, Nat.mul_add_mod, Nat.mod_self]
  have hdiv : m / D.length = (D.place l).1 := by
    rw [hm, Nat.mul_add_div (by omega), Nat.div_eq_of_lt (by omega), Nat.add_zero]
  have hmod : m % D.length = (D.place l).2 := by
    rw [hm, Nat.mul_add_mod, Nat.mod_eq_of_lt (by omega)]
  rw [hdiv, hmod]

/-- A checkpoint of a run from scratch: but for the last step, it has given one batch more than the
run was trained on. -/
structure SavedAt (c : Nat × StateDict) : Prop where
  pos : 0 < c.1
  le_total : c.1 ≤ max 1 (totalTrainingSteps D cfg)
  le_length : c.1 ≤ D.length * cfg.totalEpochs
  state : ∃ l, c.2 = D.stateDict l ∧ (c.1 % D.length ≠ 0 →
    D.place l = (c.1 / D.length, c.1 % D.length +
      if c.1 < totalTrainingSteps D cfg then 1 else 0))

/-- A run from scratch, between two steps. -/
structure FromScratch (r : Run Loader StateDict Batch) : Prop where
  pos : 0 < r.globalSteps
  le_total : r.globalSteps ≤ max 1 (totalTrainingSteps D cfg)
  batches : (r.batches D).length = D.length * cfg.totalEpochs + 1 - r.globalSteps
  gave : r.future.isSome = true → GaveBefore D r.dataloader r.globalSteps
  saved : ∀ c ∈ r.checkpoints, SavedAt D cfg c

variable {D cfg} {r : Run Loader StateDict Batch}

theorem batches_of_future (h : r.future = some p) :
    r.batches D = p.2 :: (asyncGenNextBatch D r).batches D := by
  rw [batches_asyncGenNextBatch]
  unfold Run.batches
  rw [h]

theorem FromScratch.length_next (h : FromScratch D cfg r)
    (hfuture : r.future = some p) : ((asyncGenNextBatch D r).batches D).length + r.globalSteps =
      D.length * cfg.totalEpochs := by
  have hlen := h.batches
  rw [batches_of_future hfuture, length_cons] at hlen
  omega

theorem FromScratch.gave_next (h : FromScratch D cfg r) {q : Nat × Batch}
    (hfuture : r.future = some p) (hnext : (asyncGenNextBatch D r).future = some q) :
    GaveBefore D (asyncGenNextBatch D r).dataloader (r.globalSteps + 1) := by
  have hgave := h.gave (by rw [hfuture]; rfl)
  have hnext := nextBatch_gave D hgave.le hnext
  rwa [hgave.position] at hnext

theorem FromScratch.savedAt (h : FromScratch D cfg r) (hfuture : r.future = some p) :
    SavedAt D cfg (r.globalSteps, D.stateDict (fitGenerate D
      (decide (totalTrainingSteps D cfg ≤ r.globalSteps)) r).dataloader) where
  pos := h.pos
  le_total := h.le_total
  le_length := by
    have hlen := h.length_next hfuture
    omega
  state := by
    refine ⟨_, rfl, fun hmid => ?_⟩
    by_cases hlast : totalTrainingSteps D cfg ≤ r.globalSteps
    · -- no task behind the last step
      rw [decide_eq_true hlast, if_neg (Nat.not_lt.2 hlast)]
      exact (h.gave (by rw [hfuture]; rfl)).place_of_mid D hmid
    · rw [decide_eq_false hlast, if_pos (Nat.lt_of_not_le hlast)]
      cases hnext : (asyncGenNextBatch D r).future with
      | none =>
        have hlen := h.length_next hfuture
        unfold Run.batches at hlen
        rw [hnext, length_nil, Nat.zero_add] at hlen
        rw [hlen, Nat.mul_mod_right] at hmid
        exact absurd rfl hmid
      | some q => exact (h.gave_next hfuture hnext).place_eq D

theorem checkpoints_fitStep (hfuture : r.future = some p) : (fitStep D cfg esi r).checkpoints =
      if shouldSave cfg esi r.globalSteps (decide (totalTrainingSteps D cfg ≤ r.globalSteps)) then
        r.checkpoints ++ [(r.globalSteps, D.stateDict (fitGenerate D
          (decide (totalTrainingSteps D cfg ≤ r.globalSteps)) r).dataloader)]
      else r.checkpoints := by
  unfold fitStep
  rw [hfuture]

theorem FromScratch.saved_fitStep (h : FromScratch D cfg r) :
    ∀ c ∈ (fitStep D cfg esi r).checkpoints, SavedAt D cfg c := by
  intro c hc
  cases hfuture : r.future with
  | none =>
    unfold fitStep at hc
    rw [hfuture] at hc
    exact h.saved c hc
  | some p =>
    rw [checkpoints_fitStep esi hfuture] at hc
    split at hc
    · rcases mem_append.1 hc with hc | hc
      · exact h.saved c hc
      · rw [mem_singleton.1 hc]
        exact h.savedAt hfuture
    · exact h.saved c hc

theorem FromScratch.fitStep (h : FromScratch D cfg r)
    (hfuture : r.future = some p) (hlast : ¬totalTrainingSteps D cfg ≤ r.globalSteps) :
    FromScratch D cfg (fitStep D cfg esi r) := by
  obtain ⟨hsteps, -, -⟩ := fitStep_of_future D cfg esi hfuture
  have hfuture' : (OneStepOffPolicy.fitStep D cfg esi r).future =
      (asyncGenNextBatch D r).future := by
    unfold OneStepOffPolicy.fitStep
    rw [hfuture, decide_eq_false hlast]
    rfl
  have hloader : (OneStepOffPolicy.fitStep D cfg esi r).dataloader =
      (asyncGenNextBatch D r).dataloader := by
    unfold OneStepOffPolicy.fitStep
    rw [hfuture, decide_eq_false hlast]
    rfl
  have hbatches : (OneStepOffPolicy.fitStep D cfg esi r).batches D =
      (asyncGenNextBatch D r).batches D := by
    unfold OneStepOffPolicy.fitStep
    rw [hfuture, decide_eq_false hlast]
    rfl
  refine ⟨?_, ?_, ?_, ?_, h.saved_fitStep esi⟩
  · omega
  · rw [hsteps]
    omega
  · have hlen := h.length_next hfuture
    rw [hbatches]
    omega
  · intro hsome
    rw [hfuture'] at hsome
    obtain ⟨q, hq⟩ := Option.isSome_iff_exists.1 hsome
    rw [hsteps, hloader]
    exact h.gave_next hfuture hq

theorem FromScratch.saved_fitLoop (h : FromScratch D cfg r) :
    ∀ c ∈ (fitLoop D cfg esi r).checkpoints, SavedAt D cfg c := by
  fun_induction fitLoop D cfg esi r with
  | case1 r hstop => exact h.saved_fitStep esi
  | case2 r hgo ih =>
    rw [not_or] at hgo
    cases hfuture : r.future with
    | none => exact absurd (error_fitStep_of_none D cfg esi hfuture) hgo.1
    | some p => exact ih (h.fitStep esi hfuture hgo.2)

/-! ## When a run is resumed -/

variable (D cfg)

theorem fit_trained (checkpoint : Option (Nat × StateDict)) :
    (fit D cfg esi checkpoint).trained = number ((loadCheckpoint D checkpoint).1 + 1)
      ((rest D (range cfg.totalEpochs) (D.place (loadCheckpoint D checkpoint).2)).take
        (stepsLeft D cfg ((loadCheckpoint D checkpoint).1 + 1))) := by
  unfold fit
  rw [fitLoop_trained, batches_asyncGenNextBatch]
  · rfl
  · rfl

theorem getElem?_rest_fresh (j : Nat) : (rest D (range cfg.totalEpochs) (0, 0))[j]? =
      if j < D.length * cfg.totalEpochs then stream D j else none := by
  rw [getElem?_rest D _ _ (Nat.zero_le _), length_range, Nat.zero_mul, Nat.zero_add]

theorem mem_checkpoints
    (h : (step, state) ∈ (fit D cfg esi none).checkpoints) : SavedAt D cfg (step, state) := by
  refine FromScratch.saved_fitLoop esi ⟨Nat.succ_pos _, ?_, ?_, ?_, ?_⟩ (step, state) h
  · exact Nat.le_max_left _ _
  · rw [batches_asyncGenNextBatch]
    dsimp only [asyncGenNextBatch]
    rw [D.place_fresh, length_rest D _ _ (Nat.zero_le _), length_range]
    omega
  · intro hsome
    obtain ⟨p, hp⟩ := Option.isSome_iff_exists.1 hsome
    have hgave := nextBatch_gave D (l := D.fresh) (by rw [D.place_fresh]; exact Nat.zero_le _) hp
    have hposition : position D D.fresh = 0 := by simp [position, D.place_fresh]
    rw [hposition] at hgave
    exact hgave
  · intro c hc
    cases hc

theorem eq_iff_of_entries {xs ys : List Batch} {f g : Nat → Option Batch} {a b : Nat}
    (hf : ∀ j, (f j).isSome = true) (hg : ∀ j, (g j).isSome = true)
    (hx : ∀ j, xs[j]? = if j < a then f j else none)
    (hy : ∀ j, ys[j]? = if j < b then g j else none) :
    xs = ys ↔ a = b ∧ ∀ j < a, f j = g j := by
  constructor
  · rintro rfl
    have hab : a = b := by
      apply Nat.le_antisymm
      · grind
      · grind
    refine ⟨hab, fun j hj => ?_⟩
    have hentry := (hx j).symm.trans (hy j)
    rwa [if_pos hj, if_pos (hab ▸ hj)] at hentry
  · rintro ⟨rfl, heq⟩
    apply ext_getElem?
    intro j
    rw [hx, hy]
    by_cases hj : j < a
    · rw [if_pos hj, if_pos hj, heq j hj]
    · rw [if_neg hj, if_neg hj]

theorem resumes_iff_take : Resumes D cfg esi (step, state) ↔
      (rest D (range cfg.totalEpochs)
        (D.place (loadCheckpoint D (some (step, state))).2)).take
          (max 1 (totalTrainingSteps D cfg - step)) =
      ((rest D (range cfg.totalEpochs) (0, 0)).take
        (max 1 (totalTrainingSteps D cfg))).drop step := by
  have hfilter := filter_number ((rest D (range cfg.totalEpochs) (0, 0)).take
    (stepsLeft D cfg 1)) 0 step
  have hleft : stepsLeft D cfg (step + 1) = max 1 (totalTrainingSteps D cfg - step) := by
    unfold stepsLeft
    rw [Nat.add_sub_add_right]
  rw [Nat.zero_add] at hfilter
  unfold Resumes
  rw [fit_trained, fit_trained]
  dsimp only [loadCheckpoint] at ⊢
  rw [D.place_fresh, hfilter, number_inj, hleft]
  rfl

theorem getElem?_after (h : step < totalTrainingSteps D cfg) (j : Nat) :
    (((rest D (range cfg.totalEpochs) (0, 0)).take
      (max 1 (totalTrainingSteps D cfg))).drop step)[j]? =
      if j < min (totalTrainingSteps D cfg) (D.length * cfg.totalEpochs) - step then
        stream D (step + j) else none := by
  have hmax : max 1 (totalTrainingSteps D cfg) = totalTrainingSteps D cfg := by omega
  rw [getElem?_drop, getElem?_take, getElem?_rest_fresh]
  by_cases hj : j < min (totalTrainingSteps D cfg) (D.length * cfg.totalEpochs) - step
  · grind
  · grind

theorem getElem?_fromStart (n j : Nat) : ((rest D (range cfg.totalEpochs) (0, 0)).take n)[j]? =
      if j < min n (D.length * cfg.totalEpochs) then stream D j else none := by
  rw [getElem?_take, getElem?_rest_fresh, ← ite_and]
  simp only [lt_min_iff]

theorem getElem?_oneFurther (hmod : step % D.length < D.length) (n j : Nat) :
    ((rest D (range cfg.totalEpochs) (step / D.length, step % D.length + 1)).take n)[j]? =
      if j < min n (D.length * cfg.totalEpochs - (step % D.length + 1)) then
        stream D (step + 1 + j) else none := by
  have hplace : step / D.length * D.length + (step % D.length + 1) + j = step + 1 + j := by
    have hdiv := Nat.div_add_mod' step D.length
    omega
  have hiff : (j < n ∧ step % D.length + 1 + j < D.length * cfg.totalEpochs) ↔
      j < min n (D.length * cfg.totalEpochs - (step % D.length + 1)) := by omega
  rw [getElem?_take, getElem?_rest D _ _ hmod, length_range, hplace, ← ite_and]
  simp only [hiff]

variable {esi}

theorem place_loadCheckpoint
    (h : (step, state) ∈ (fit D cfg esi none).checkpoints) (hpos : 0 < D.length) :
    D.place (loadCheckpoint D (some (step, state))).2 =
      if step % D.length = 0 then (0, 0) else (step / D.length, step % D.length +
        if step < totalTrainingSteps D cfg then 1 else 0) := by
  obtain ⟨l, hstate, hplace⟩ := (mem_checkpoints D cfg esi h).state
  unfold loadCheckpoint
  dsimp only
  by_cases hend : step % D.length = 0
  · rw [if_pos ⟨hpos, hend⟩, if_pos hend, D.place_fresh]
  · dsimp only at hstate
    rw [if_neg fun hmid => hend hmid.2, if_neg hend, hstate, D.place_loadStateDict, hplace hend]

/-- The run resumed from a checkpoint trains on the batches it should: never behind the last step;
at the end of an epoch, where it begins with the first batch of all, if the dataloader gives the
same batches again and has enough of them; and inside of an epoch, where it has lost the batch
under way, only if each batch left is the one before. -/
theorem resumes_iff {step : Nat} {state : StateDict}
    (h : (step, state) ∈ (fit D cfg esi none).checkpoints) :
    Resumes D cfg esi (step, state) ↔
      step < totalTrainingSteps D cfg ∧
      if step % D.length = 0 then
        totalTrainingSteps D cfg ≤ D.length * cfg.totalEpochs ∧
        ∀ j < totalTrainingSteps D cfg - step, stream D j = stream D (step + j)
      else
        min (totalTrainingSteps D cfg - step) (D.length * cfg.totalEpochs - (step % D.length + 1)) =
          min (totalTrainingSteps D cfg) (D.length * cfg.totalEpochs) - step ∧
        ∀ j < min (totalTrainingSteps D cfg) (D.length * cfg.totalEpochs) - step,
          stream D (step + 1 + j) = stream D (step + j) := by
  have hsaved := mem_checkpoints D cfg esi h
  have hstep : 0 < step := hsaved.pos
  have htotal : step ≤ max 1 (totalTrainingSteps D cfg) := hsaved.le_total
  have hlength : step ≤ D.length * cfg.totalEpochs := hsaved.le_length
  have hpos : 0 < D.length := by grind
  have hmod : step % D.length < D.length := Nat.mod_lt _ hpos
  rw [resumes_iff_take, place_loadCheckpoint D cfg h hpos]
  by_cases hlt : step < totalTrainingSteps D cfg
  · have hmax : max 1 (totalTrainingSteps D cfg - step) = totalTrainingSteps D cfg - step := by
      omega
    rw [hmax, if_pos hlt, and_iff_right hlt]
    by_cases hend : step % D.length = 0
    · -- the first batches again
      rw [if_pos hend, eq_iff_of_entries (stream_isSome D hpos)
        (fun j => stream_isSome D hpos _) (getElem?_fromStart D cfg _) (getElem?_after D cfg hlt)]
      constructor
      · grind
      · grind
    · -- one batch further
      rw [if_neg hend, eq_iff_of_entries (fun j => stream_isSome D hpos _)
        (fun j => stream_isSome D hpos _) (getElem?_oneFurther D cfg hmod _)
        (getElem?_after D cfg hlt)]
      constructor
      · grind
      · grind
  · -- the resumed run trains on one more batch
    refine iff_of_false ?_ fun hlast => hlt hlast.1
    have hone : max 1 (totalTrainingSteps D cfg - step) = 1 := by omega
    have hnil : ((rest D (List.range cfg.totalEpochs) (0, 0)).take
        (max 1 (totalTrainingSteps D cfg))).drop step = [] := by grind
    rw [if_neg hlt, hone, hnil, take_eq_nil_iff]
    rintro (hzero | hrest)
    · cases hzero
    · have hlen := congrArg List.length hrest
      rw [length_nil] at hlen
      by_cases hend : step % D.length = 0
      · rw [if_pos hend, length_rest D _ _ (Nat.zero_le _), length_range] at hlen
        omega
      · rw [if_neg hend, Nat.add_zero, length_rest D _ _ (Nat.le_of_lt hmod),
          length_range] at hlen
        have hepochs : D.length ≤ D.length * cfg.totalEpochs := by
          apply Nat.le_mul_of_pos_right
          apply Nat.pos_of_ne_zero
          intro hzero
          rw [hzero] at hlength
          omega
        omega

end Spec

/-- A dataloader without a shuffle; its state is the place it is at. -/
def orderedLoader (length : Nat) : StatefulDataLoader (Nat × Nat) (Nat × Nat) Nat where
  length := length
  order := fun _ => List.range length
  length_order := fun _ => length_range
  fresh := (0, 0)
  next := fun l =>
    match (List.range length)[l.2]? with
    | some batch => (some batch, l.1, l.2 + 1)
    | none => (none, l.1 + 1, 0)
  stateDict := fun l => l
  loadStateDict := fun _ state => state
  place := fun l => l
  place_fresh := rfl
  next_fst := by
    intro l
    cases (List.range length)[l.2]? <;> rfl
  place_next := by
    intro l
    cases (List.range length)[l.2]? <;> rfl
  place_loadStateDict := fun _ => rfl

/-- Two epochs, a save at every step. -/
def twoEpochs : Config := ⟨2, none, 1⟩

/-- Of two batches an epoch, the run that is resumed at the end of the first epoch goes on as it
should. -/
theorem resumes_two_batches : Resumes (orderedLoader 2) twoEpochs (fun _ => false) (2, (1, 1)) :=
  (resumes_iff (orderedLoader 2) twoEpochs (by decide +kernel)).mpr (by decide)

/-- The run that is resumed after the first step does not train on the second batch. -/
theorem not_resumes_two_batches :
    (1, (0, 2)) ∈ (fit (orderedLoader 2) twoEpochs (fun _ => false) none).checkpoints ∧
    (fit (orderedLoader 2) twoEpochs (fun _ => false) none).trained =
      [(1, 0), (2, 1), (3, 0), (4, 1)] ∧
    (fit (orderedLoader 2) twoEpochs (fun _ => false) (some (1, (0, 2)))).trained =
      [(2, 0), (3, 1)] ∧
    ¬Resumes (orderedLoader 2) twoEpochs (fun _ => false) (1, (0, 2)) := by
  unfold Resumes
  decide +kernel

end Verl.OneStepOffPolicy
