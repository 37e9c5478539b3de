import Verl.Lib.Numerals

/-! # Resuming a training run

The `fit` of `main_ppo_sync.PPOTrainer` and of `RayPPOTrainer` is one loop over the epochs
and, in each, over a stateful dataloader.  A checkpoint holds the step it was saved at and
the state of the dataloader.

* `StatefulDataLoader`: what the trainers rely on of the dataloader.
* `fit`: a run from scratch or from a checkpoint, with its batches and checkpoints.
* `sync`, `ray`: the two trainers; they differ in when they save and in what they restore.
* `Resumes`: the run from a checkpoint trains on what the uninterrupted run trains on after
  it.
* `sync_resumes_iff`, `ray_resumes_iff`: when they do.  The trainers differ at the end of an
  epoch, where the saved dataloader has no batch left. -/

namespace Verl.Resume

open List

/-! ## Algorithm -/

/-- A dataloader, with the batches of an epoch given by their indices.

* `iter l` are the batches the next `for` loop over `l` gets.
* `advance l k` is `l` when that loop has got `k` of them.
* `finish l` is `l` when that loop has ended. -/
structure StatefulDataLoader (Loader StateDict : Type) where
  length : Nat
  fresh : Loader
  iter : Loader → List Nat
  advance : Loader → Nat → Loader
  finish : Loader → Loader
  stateDict : Loader → StateDict
  loadStateDict : Loader → StateDict → Loader
  iter_fresh : iter fresh = List.range length
  /-- The iteration after one that has ended is a full epoch. -/
  iter_finish : ∀ l, iter (finish l) = List.range length
  /-- A restored dataloader goes on where the saved one was. -/
  iter_loadStateDict : ∀ l k, k ≤ (iter l).length →
    iter (loadStateDict fresh (stateDict (advance l k))) = (iter l).drop k

structure Config where
  totalEpochs : Nat
  totalTrainingSteps : Option Nat
  saveFreq : Int
  deriving DecidableEq, Repr

/-- One step of training. -/
structure Event where
  step : Nat
  epoch : Nat
  batch : Nat
  deriving DecidableEq, Repr

structure Run (StateDict : Type) where
  globalSteps : Nat
  trained : List Event
  checkpoints : List (Nat × StateDict)
  deriving DecidableEq

variable {Loader StateDict : Type}

/-- What differs between the trainers: when they save, and the dataloader they go on with
after loading the checkpoint of a step. -/
structure Trainer (Loader StateDict : Type) where
  shouldSave : Nat → Bool → Bool
  restore : Nat → StateDict → Loader

section Fit

variable (D : StatefulDataLoader Loader StateDict) (cfg : Config)
  (tr : Trainer Loader StateDict)

/-- `self.total_training_steps`. -/
def totalTrainingSteps : Nat :=
  cfg.totalTrainingSteps.getD (D.length * cfg.totalEpochs)

/-- The body of the loops, for the batch after which `l` is at `k`. -/
def trainStep (epoch : Nat) (l : Loader) (k batch : Nat) (r : Run StateDict) :
    Run StateDict :=
  let isLastStep := decide (totalTrainingSteps D cfg ≤ r.globalSteps)
  { globalSteps := r.globalSteps + 1
    trained := r.trained ++ [⟨r.globalSteps, epoch, batch⟩]
    checkpoints :=
      if tr.shouldSave r.globalSteps isLastStep then
        r.checkpoints ++ [(r.globalSteps, D.stateDict (D.advance l k))]
      else r.checkpoints }

/-- `for batch_dict in self.train_dataloader`; `true` when `fit` has returned. -/
def trainEpoch (epoch : Nat) (l : Loader) : Nat → List Nat → Run StateDict →
    Run StateDict × Bool
  | _, [], r => (r, false)
  | k, batch :: rest, r =>
    let r' := trainStep D cfg tr epoch l (k + 1) batch r
    if totalTrainingSteps D cfg ≤ r.globalSteps then (r', true)
    else trainEpoch epoch l (k + 1) rest r'

/-- `for epoch in range(current_epoch, self.config.trainer.total_epochs)`. -/
def trainEpochs : List Nat → Loader → Run StateDict → Run StateDict
  | [], _, r => r
  | epoch :: epochs, l, r =>
    match trainEpoch D cfg tr epoch l 0 (D.iter l) r with
    | (r', true) => r'
    | (r', false) => trainEpochs epochs (D.finish l) r'

/-- `_load_checkpoint`: `global_steps` and the dataloader. -/
def loadCheckpoint : Option (Nat × StateDict) → Nat × Loader
  | none => (0, D.fresh)
  | some (step, state) => (step, tr.restore step state)

def fit (checkpoint : Option (Nat × StateDict)) : Run StateDict :=
  let (globalSteps, l) := loadCheckpoint D tr checkpoint
  let currentEpoch := globalSteps / D.length
  trainEpochs D cfg tr (List.range' currentEpoch (cfg.totalEpochs - currentEpoch)) l
    { globalSteps := globalSteps + 1, trained := [], checkpoints := [] }

/-- `save_freq > 0 and (is_last_step or global_steps % save_freq == 0)`. -/
def saveDue (globalSteps : Nat) (isLastStep : Bool) : Bool :=
  decide (0 < cfg.saveFreq) && (isLastStep || decide ((globalSteps : Int) % cfg.saveFreq = 0))

/-- `main_ppo_sync.PPOTrainer`. -/
def sync : Trainer Loader StateDict where
  shouldSave := saveDue cfg
  restore := fun _ state => D.loadStateDict D.fresh state

/-- `RayPPOTrainer`: it also saves when its capacity expires (`esi`), and at the end of an
epoch it leaves the dataloader as it is. -/
def ray (esi : Nat → Bool) : Trainer Loader StateDict where
  shouldSave := fun globalSteps isLastStep =>
    saveDue cfg globalSteps isLastStep || decide (0 < cfg.saveFreq) && esi globalSteps
  restore := fun step state =>
    if 0 < D.length ∧ step % D.length = 0 then D.fresh else D.loadStateDict D.fresh state

/-- The run resumed from a checkpoint trains on what the uninterrupted run trains on after
the step of the checkpoint, and ends at the same step. -/
def Resumes (checkpoint : Nat × StateDict) : Prop :=
  (fit D cfg tr (some checkpoint)).trained =
      (fit D cfg tr none).trained.filter (fun e => checkpoint.1 < e.step) ∧
    (fit D cfg tr (some checkpoint)).globalSteps = (fit D cfg tr none).globalSteps

end Fit

/-! ## What a run trains on -/

/-- The `(epoch, batch)` pairs of the epochs, the first of which gets the batches `first`. -/
def schedule (length : Nat) : List Nat → List Nat → List (Nat × Nat)
  | [], _ => []
  | epoch :: epochs, first =>
    first.map (Prod.mk epoch) ++ schedule length epochs (List.range length)

def number (step : Nat) : List (Nat × Nat) → List Event
  | [] => []
  | p :: ps => ⟨step, p.1, p.2⟩ :: number (step + 1) ps

theorem number_append (xs ys : List (Nat × Nat)) (step : Nat) :
    number step (xs ++ ys) = number step xs ++ number (step + xs.length) ys := by
  induction xs generalizing step with
  | nil => rfl
  | cons x xs ih =>
    rw [cons_append, number, number, ih, cons_append, length_cons,
      Nat.add_right_comm, Nat.add_assoc step]

theorem number_injective {xs ys : List (Nat × Nat)} {step : Nat}
    (h : number step xs = number step ys) : xs = ys := by
  induction xs generalizing ys step with
  | nil =>
    cases ys with
    | nil => rfl
    | cons y ys => cases h
  | cons x xs ih =>
    cases ys with
    | nil => cases h
    | cons y ys =>
      obtain ⟨hhead, htail⟩ := List.cons.inj h
      obtain ⟨-, hfst, hsnd⟩ := Event.mk.inj hhead
      rw [Prod.ext hfst hsnd, ih htail]

theorem map_step_number (xs : List (Nat × Nat)) (step : Nat) :
    (number step xs).map Event.step = range' step xs.length := by
  induction xs generalizing step with
  | nil => rfl
  | cons x xs ih => rw [number, map_cons, ih, length_cons, range'_succ]

theorem lt_step_of_mem_number {xs : List (Nat × Nat)} {step : Nat} {e : Event}
    (h : e ∈ number step xs) : step ≤ e.step := by
  induction xs generalizing step with
  | nil => cases h
  | cons x xs ih =>
    rcases mem_cons.mp h with rfl | h
    · exact Nat.le_refl _
    · exact Nat.le_of_succ_le (ih h)

theorem filter_number (xs : List (Nat × Nat)) (step k : Nat) :
    (number (step + 1) xs).filter (fun e => step + k < e.step) =
      number (step + k + 1) (xs.drop k) := by
  induction xs generalizing step k with
  | nil => simp [number]
  | cons x xs ih =>
    cases k with
    | zero =>
      rw [drop_zero, filter_eq_self]
      intro e he
      have hle := lt_step_of_mem_number he
      exact decide_eq_true hle
    | succ k =>
      have hstep : step + 1 + k = step + (k + 1) := by omega
      rw [number, filter_cons_of_neg (by simp), ← hstep]
      exact ih (step + 1) k

section Spec

variable (D : StatefulDataLoader Loader StateDict) (cfg : Config)
  (tr : Trainer Loader StateDict)

/-- How many batches a run goes on for at a step: one at least. -/
def stepsLeft (globalSteps : Nat) : Nat := max 1 (totalTrainingSteps D cfg + 1 - globalSteps)

variable {k epoch : Nat} {r : Run StateDict}

theorem trainEpoch_run (epoch : Nat) (l : Loader) (k : Nat) (batches : List Nat)
    (r : Run StateDict) :
    (trainEpoch D cfg tr epoch l k batches r).1.trained = r.trained ++
        number r.globalSteps ((batches.map (Prod.mk epoch)).take (stepsLeft D cfg r.globalSteps)) ∧
      (trainEpoch D cfg tr epoch l k batches r).1.globalSteps =
        r.globalSteps + min (stepsLeft D cfg r.globalSteps) batches.length ∧
      (trainEpoch D cfg tr epoch l k batches r).2 =
        decide (stepsLeft D cfg r.globalSteps ≤ batches.length) := by
  induction batches generalizing k r with
  | nil =>
    refine ⟨by simp [trainEpoch, number], by simp [trainEpoch], ?_⟩
    have hpos : ¬stepsLeft D cfg r.globalSteps ≤ 0 := by
      unfold stepsLeft
      omega
    simpa [trainEpoch] using hpos
  | cons batch rest ih =>
    unfold trainEpoch
    by_cases hlast : totalTrainingSteps D cfg ≤ r.globalSteps
    · -- the last step
      have hone : stepsLeft D cfg r.globalSteps = 1 := by
        unfold stepsLeft
        omega
      simp only [if_pos hlast, hone]
      refine ⟨by simp [trainStep, number], ?_, by simp⟩
      rfl
    · have hleft : stepsLeft D cfg r.globalSteps = stepsLeft D cfg (r.globalSteps + 1) + 1 := by
        unfold stepsLeft
        omega
      obtain ⟨htrained, hsteps, hret⟩ := ih (k + 1)
        (trainStep D cfg tr epoch l (k + 1) batch r)
      have hnext : (trainStep D cfg tr epoch l (k + 1) batch r).globalSteps =
          r.globalSteps + 1 := rfl
      simp only [if_neg hlast]
      rw [htrained, hsteps, hret, hnext, hleft]
      refine ⟨?_, by rw [length_cons]; omega, by rw [length_cons]; simp⟩
      rw [map_cons, take_succ_cons, number]
      simp only [trainStep, append_assoc, singleton_append]

theorem trainEpochs_run (epochs : List Nat) (l : Loader) (r : Run StateDict) :
    (trainEpochs D cfg tr epochs l r).trained = r.trained ++
        number r.globalSteps ((schedule D.length epochs (D.iter l)).take
          (stepsLeft D cfg r.globalSteps)) ∧
      (trainEpochs D cfg tr epochs l r).globalSteps = r.globalSteps +
        min (stepsLeft D cfg r.globalSteps) (schedule D.length epochs (D.iter l)).length := by
  induction epochs generalizing l r with
  | nil => simp [trainEpochs, schedule, number]
  | cons epoch epochs ih =>
    obtain ⟨htrained, hsteps, hret⟩ := trainEpoch_run D cfg tr epoch l 0 (D.iter l) r
    unfold trainEpochs schedule
    by_cases hle : stepsLeft D cfg r.globalSteps ≤ (D.iter l).length
    · -- `fit` returns in this epoch
      rw [decide_eq_true hle] at hret
      split
      · rename_i r' heq
        rw [heq] at htrained hsteps
        have hle' : stepsLeft D cfg r.globalSteps ≤
            ((D.iter l).map (Prod.mk epoch)).length := by rwa [length_map]
        rw [take_append_of_le_length hle', length_append]
        exact ⟨htrained, by simp only at hsteps; omega⟩
      · rename_i r' heq
        rw [heq] at hret
        cases hret
    · rw [decide_eq_false hle] at hret
      split
      · grind
      · rename_i r' heq
        rw [heq] at htrained hsteps
        simp only at hsteps
        obtain ⟨ihtrained, ihsteps⟩ := ih (D.finish l) r'
        have hleft : stepsLeft D cfg r'.globalSteps =
            stepsLeft D cfg r.globalSteps - (D.iter l).length := by
          unfold stepsLeft at hle ⊢
          unfold stepsLeft at hsteps
          omega
        have hlen : ((D.iter l).map (Prod.mk epoch)).length = (D.iter l).length :=
          length_map _
        have hall : ((D.iter l).map (Prod.mk epoch)).take (stepsLeft D cfg r.globalSteps) =
            (D.iter l).map (Prod.mk epoch) := take_of_length_le (by omega)
        have hnext : r'.globalSteps = r.globalSteps + (D.iter l).length := by omega
        rw [ihtrained, ihsteps, htrained, D.iter_finish, hleft, hnext]
        rw [take_append, hall, number_append, hlen, length_append]
        exact ⟨append_assoc _ _ _, by omega⟩

/-! ## Checkpoints -/

/-- A checkpoint of a run from scratch: `k` batches of its epoch were done before its
step. -/
def SavedAt (c : Nat × StateDict) (epoch k : Nat) : Prop :=
  k < D.length ∧ c.1 = epoch * D.length + k + 1 ∧
    ∃ l, D.iter l = List.range D.length ∧ c.2 = D.stateDict (D.advance l (k + 1))

def CheckpointsOk (r : Run StateDict) : Prop :=
  ∀ c ∈ r.checkpoints, c.1 < r.globalSteps ∧ ∃ epoch k, SavedAt D c epoch k

theorem checkpointsOk_trainStep (batch : Nat) {l : Loader} (hl : D.iter l = range D.length)
    (hk : k < D.length) (hr : r.globalSteps = epoch * D.length + k + 1) (h : CheckpointsOk D r) :
    CheckpointsOk D (trainStep D cfg tr epoch l (k + 1) batch r) := by
  intro c hc
  have hold : ∀ c ∈ r.checkpoints, c.1 < r.globalSteps + 1 ∧ ∃ epoch k, SavedAt D c epoch k :=
    fun c hc => ⟨Nat.lt_succ_of_lt (h c hc).1, (h c hc).2⟩
  simp only [trainStep] at hc
  split at hc
  · rcases mem_append.mp hc with hc | hc
    · exact hold c hc
    · rw [mem_singleton.mp hc]
      exact ⟨Nat.lt_succ_self _, epoch, k, hk, hr, l, hl, rfl⟩
  · exact hold c hc

theorem checkpointsOk_trainEpoch {l : Loader} (hl : D.iter l = range D.length) (batches : List Nat)
    (k : Nat) (r : Run StateDict) (hk : k + batches.length ≤ D.length)
    (hr : r.globalSteps = epoch * D.length + k + 1) (h : CheckpointsOk D r) :
    CheckpointsOk D (trainEpoch D cfg tr epoch l k batches r).1 := by
  induction batches generalizing k r with
  | nil => exact h
  | cons batch rest ih =>
    rw [length_cons] at hk
    have hstep := checkpointsOk_trainStep D cfg tr batch hl (by omega) hr h
    unfold trainEpoch
    by_cases hlast : totalTrainingSteps D cfg ≤ r.globalSteps
    · grind
    · simp only [if_neg hlast]
      refine ih (k + 1) _ (by omega) ?_ hstep
      show r.globalSteps + 1 = _
      omega

theorem checkpointsOk_trainEpochs (count epoch : Nat) (l : Loader) (r : Run StateDict)
    (hl : D.iter l = range D.length) (hr : r.globalSteps = epoch * D.length + 1)
    (h : CheckpointsOk D r) :
    CheckpointsOk D (trainEpochs D cfg tr (range' epoch count) l r) := by
  induction count generalizing epoch l r with
  | zero => exact h
  | succ count ih =>
    obtain ⟨-, hsteps, hret⟩ := trainEpoch_run D cfg tr epoch l 0 (D.iter l) r
    have hepoch := checkpointsOk_trainEpoch D cfg tr hl (D.iter l) 0 r
      (by rw [hl, length_range]; omega) hr h
    rw [range'_succ]
    unfold trainEpochs
    split
    · grind
    · rename_i r' heq
      rw [heq] at hepoch hsteps hret
      refine ih (epoch + 1) (D.finish l) r' (D.iter_finish l) ?_ hepoch
      have hlt := of_decide_eq_false hret.symm
      rw [hl, length_range] at hsteps hlt
      rw [hsteps, Nat.add_one_mul]
      omega

/-- The checkpoints are those of the steps that should be saved. -/
def SavesSteps (r : Run StateDict) : Prop :=
  r.checkpoints.map Prod.fst = (r.trained.map Event.step).filter
    fun g => tr.shouldSave g (decide (totalTrainingSteps D cfg ≤ g))

theorem SavesSteps.trainStep (h : SavesSteps D cfg tr r) (epoch : Nat)
    (l : Loader) (k batch : Nat) : SavesSteps D cfg tr (trainStep D cfg tr epoch l k batch r) := by
  unfold SavesSteps at ⊢
  unfold Resume.trainStep
  rw [map_append, filter_append, ← h]
  by_cases hsave : tr.shouldSave r.globalSteps (decide (totalTrainingSteps D cfg ≤ r.globalSteps))
  · simp [hsave]
  · simp [hsave]

theorem SavesSteps.trainEpoch (epoch : Nat) (l : Loader) (batches : List Nat) (k : Nat)
    (h : SavesSteps D cfg tr r) :
    SavesSteps D cfg tr (trainEpoch D cfg tr epoch l k batches r).1 := by
  induction batches generalizing k r with
  | nil => exact h
  | cons batch rest ih =>
    have hstep := h.trainStep D cfg tr epoch l (k + 1) batch
    unfold Resume.trainEpoch
    by_cases hlast : totalTrainingSteps D cfg ≤ r.globalSteps
    · grind
    · grind

theorem SavesSteps.trainEpochs (epochs : List Nat) (l : Loader)
    (h : SavesSteps D cfg tr r) : SavesSteps D cfg tr (trainEpochs D cfg tr epochs l r) := by
  induction epochs generalizing l r with
  | nil => exact h
  | cons epoch epochs ih =>
    have hepoch := h.trainEpoch D cfg tr epoch l (D.iter l) 0
    unfold Resume.trainEpochs
    rcases hrun : Resume.trainEpoch D cfg tr epoch l 0 (D.iter l) r with ⟨r', ret⟩
    rw [hrun] at hepoch
    cases ret with
    | true => exact hepoch
    | false => exact ih (D.finish l) hepoch

theorem savesSteps_fit (checkpoint : Option (Nat × StateDict)) :
    SavesSteps D cfg tr (fit D cfg tr checkpoint) :=
  SavesSteps.trainEpochs D cfg tr _ _ rfl

/-- A run saves no step twice. -/
theorem nodup_checkpoints (checkpoint : Option (Nat × StateDict)) :
    ((fit D cfg tr checkpoint).checkpoints.map Prod.fst).Nodup := by
  rw [savesSteps_fit]
  apply Nodup.filter
  unfold fit
  dsimp only
  rw [(trainEpochs_run D cfg tr _ _ _).1, nil_append, map_step_number]
  exact nodup_range'

/-! ## The batches of a run -/

/-- The batches of all epochs. -/
def positions : List (Nat × Nat) :=
  List.range cfg.totalEpochs ×ˢ List.range D.length

theorem schedule_full (length : Nat) (epochs : List Nat) :
    schedule length epochs (range length) = epochs ×ˢ range length := by
  induction epochs with
  | nil => rfl
  | cons epoch epochs ih => rw [schedule, ih, product_cons]

theorem length_positions : (positions D cfg).length = D.length * cfg.totalEpochs := by
  rw [positions, length_product, length_range, length_range, Nat.mul_comm]

theorem schedule_drop (hk : k ≤ D.length) :
    schedule D.length (range' epoch (cfg.totalEpochs - epoch))
      ((range D.length).drop k) = (positions D cfg).drop (epoch * D.length + k) := by
  by_cases hlt : epoch < cfg.totalEpochs
  · obtain ⟨n, hn⟩ : ∃ n, cfg.totalEpochs - epoch = n + 1 := ⟨cfg.totalEpochs - epoch - 1, by omega⟩
    have hsplit : range cfg.totalEpochs =
        range epoch ++ epoch :: range' (epoch + 1) n := by
      rw [range_eq_range', range_eq_range', ← range'_succ, ← hn]
      conv_lhs => rw [show cfg.totalEpochs = epoch + (cfg.totalEpochs - epoch) by omega]
      rw [← range'_append_1, Nat.zero_add]
    have hbefore : (range epoch ×ˢ range D.length).length =
        epoch * D.length := by
      rw [length_product, length_range, length_range]
    have hfirst : k ≤ ((range D.length).map (Prod.mk epoch)).length := by
      rwa [length_map, length_range]
    have hproduct : positions D cfg = range epoch ×ˢ range D.length ++
        ((range D.length).map (Prod.mk epoch) ++
          range' (epoch + 1) n ×ˢ range D.length) := by
      rw [positions, hsplit]
      simp only [SProd.sprod, List.product, flatMap_append, flatMap_cons]
    rw [hproduct, ← hbefore, drop_length_add_append, drop_append_of_le_length hfirst,
      hn, range'_succ, schedule, schedule_full, map_drop]
  · have hnil : cfg.totalEpochs - epoch = 0 := by omega
    have hge : cfg.totalEpochs * D.length ≤ epoch * D.length :=
      Nat.mul_le_mul_right _ (by omega)
    rw [hnil, range'_zero, schedule, eq_comm, drop_eq_nil_iff, length_positions,
      Nat.mul_comm]
    omega

theorem fit_none : (fit D cfg tr none).trained =
      number 1 ((positions D cfg).take (max 1 (totalTrainingSteps D cfg))) ∧
    (fit D cfg tr none).globalSteps =
      1 + min (max 1 (totalTrainingSteps D cfg)) (positions D cfg).length ∧
    CheckpointsOk D (fit D cfg tr none) := by
  have hepoch : 0 / D.length = 0 := Nat.zero_div _
  have hleft : stepsLeft D cfg 1 = max 1 (totalTrainingSteps D cfg) := by
    unfold stepsLeft
    rw [Nat.add_sub_cancel]
  have hsched : schedule D.length (range' 0 (cfg.totalEpochs - 0)) (D.iter D.fresh) =
      positions D cfg := by
    rw [D.iter_fresh, Nat.sub_zero, ← range_eq_range', schedule_full, positions]
  unfold fit loadCheckpoint
  simp only [hepoch]
  obtain ⟨htrained, hsteps⟩ := trainEpochs_run D cfg tr
    (range' 0 (cfg.totalEpochs - 0)) D.fresh
    { globalSteps := 0 + 1, trained := [], checkpoints := [] }
  rw [hsched] at htrained hsteps
  refine ⟨by rw [htrained]; rfl, hsteps, ?_⟩
  refine checkpointsOk_trainEpochs D cfg tr _ 0 D.fresh _ D.iter_fresh (by simp) ?_
  intro c hc
  cases hc

/-- The steps of a run from scratch, and which of them are saved; a total of zero is one step. -/
theorem fit_steps :
    (fit D cfg tr none).trained.map Event.step =
        range' 1 (min (max 1 (totalTrainingSteps D cfg)) (D.length * cfg.totalEpochs)) ∧
      (fit D cfg tr none).checkpoints.map Prod.fst = ((fit D cfg tr none).trained.map Event.step).filter
        fun g => tr.shouldSave g (decide (totalTrainingSteps D cfg ≤ g)) := by
  refine ⟨?_, savesSteps_fit D cfg tr none⟩
  rw [(fit_none D cfg tr).1, map_step_number, length_take, length_positions]

theorem fit_some {step : Nat} {state : StateDict} (hk : k ≤ D.length)
    (hiter : D.iter (tr.restore step state) = (range D.length).drop k) :
    (fit D cfg tr (some (step, state))).trained =
      number (step + 1) (((positions D cfg).drop (step / D.length * D.length + k)).take
        (max 1 (totalTrainingSteps D cfg - step))) ∧
    (fit D cfg tr (some (step, state))).globalSteps = step + 1 +
      min (max 1 (totalTrainingSteps D cfg - step))
        ((positions D cfg).drop (step / D.length * D.length + k)).length := by
  have hleft : stepsLeft D cfg (step + 1) = max 1 (totalTrainingSteps D cfg - step) := by
    unfold stepsLeft
    rw [Nat.add_sub_add_right]
  obtain ⟨htrained, hsteps⟩ := trainEpochs_run D cfg tr
    (range' (step / D.length) (cfg.totalEpochs - step / D.length))
    (tr.restore step state) { globalSteps := step + 1, trained := [], checkpoints := [] }
  rw [hleft, hiter, schedule_drop D cfg hk] at htrained hsteps
  exact ⟨htrained, hsteps⟩

theorem mem_checkpoints {step : Nat} {state : StateDict}
    (h : (step, state) ∈ (fit D cfg tr none).checkpoints) :
    step ≤ max 1 (totalTrainingSteps D cfg) ∧ step ≤ (positions D cfg).length ∧
      ∃ epoch k, SavedAt D (step, state) epoch k := by
  obtain ⟨-, hsteps, hok⟩ := fit_none D cfg tr
  obtain ⟨hlt, hsaved⟩ := hok _ h
  exact ⟨by simp only at hlt; omega, by simp only at hlt; omega, hsaved⟩

section Positions

variable {step start k : Nat} {state : StateDict} (hk : k ≤ D.length)
  (hstart : step / D.length * D.length + k = start)
  (hiter : D.iter (tr.restore step state) = (List.range D.length).drop k)

include hk hstart hiter

/-- A resumed run that starts at batch `start` of the schedule trains on what it should when the
rest of the two schedules agree. -/
theorem trained_iff_positions : (fit D cfg tr (some (step, state))).trained =
        (fit D cfg tr none).trained.filter (fun e => step < e.step) ↔
      ((positions D cfg).drop start).take (max 1 (totalTrainingSteps D cfg - step)) =
        ((positions D cfg).drop step).take (max 1 (totalTrainingSteps D cfg) - step) := by
  obtain ⟨htrained, -, -⟩ := fit_none D cfg tr
  obtain ⟨htrained', -⟩ := fit_some D cfg tr hk hiter
  rw [hstart] at htrained'
  have hafter : (number 1 ((positions D cfg).take (max 1 (totalTrainingSteps D cfg)))).filter
      (fun e => step < e.step) = number (step + 1)
        (((positions D cfg).drop step).take (max 1 (totalTrainingSteps D cfg) - step)) := by
    have hfilter := filter_number ((positions D cfg).take (max 1 (totalTrainingSteps D cfg))) 0 step
    rwa [Nat.zero_add, drop_take] at hfilter
  rw [htrained, htrained', hafter]
  constructor
  · intro heq
    exact number_injective heq
  · intro heq
    rw [heq]

theorem resumes_iff_positions (hmax : step ≤ max 1 (totalTrainingSteps D cfg))
    (hlen : step ≤ (positions D cfg).length) :
    Resumes D cfg tr (step, state) ↔
      ((positions D cfg).drop start).take (max 1 (totalTrainingSteps D cfg - step)) =
        ((positions D cfg).drop step).take (max 1 (totalTrainingSteps D cfg) - step) := by
  have htrained := trained_iff_positions D cfg tr hk hstart hiter
  obtain ⟨-, hsteps, -⟩ := fit_none D cfg tr
  obtain ⟨-, hsteps'⟩ := fit_some D cfg tr hk hiter
  rw [hstart] at hsteps'
  unfold Resumes
  rw [htrained, hsteps']
  constructor
  · grind
  · intro heq
    refine ⟨heq, ?_⟩
    have hcount := congrArg length heq
    rw [length_take, length_take, length_drop, length_drop] at hcount
    rw [length_drop]
    omega

end Positions

theorem take_drop_eq_iff {α : Type} {xs : List α} (hnodup : xs.Nodup) {i j m n : Nat}
    (hij : i < j) (hm : 0 < m) (hn : 0 < n) :
    (xs.drop j).take m = (xs.drop i).take n ↔ xs.length ≤ i := by
  constructor
  · intro h
    by_contra hlt
    have hi : i < xs.length := by omega
    have hhead := congrArg (fun ys : List α => ys[0]?) h
    simp only [getElem?_take, if_pos hm, if_pos hn, getElem?_drop] at hhead
    have hinj := (getElem?_inj hi hnodup).mp hhead.symm
    omega
  · intro hle
    rw [drop_eq_nil_iff.mpr hle, drop_eq_nil_iff.mpr (Nat.le_trans hle (by omega)),
      take_nil, take_nil]

theorem nodup_positions : (positions D cfg).Nodup :=
  Nodup.product nodup_range nodup_range

theorem take_one_eq_iff {α : Type} {xs : List α} {step start total : Nat} (hpos : 0 < step)
    (hlast : total ≤ step) (hmax : step ≤ max 1 total) :
    (xs.drop start).take (max 1 (total - step)) = (xs.drop step).take (max 1 total - step) ↔
      xs.length ≤ start := by
  have hone : max 1 (total - step) = 1 := by omega
  have hzero : max 1 total - step = 0 := by omega
  rw [hzero]
  simp

theorem positions_iff {step start : Nat} (hpos : 0 < step) (hle : step ≤ start)
    (hmax : step ≤ max 1 (totalTrainingSteps D cfg)) :
    ((positions D cfg).drop start).take (max 1 (totalTrainingSteps D cfg - step)) =
        ((positions D cfg).drop step).take (max 1 (totalTrainingSteps D cfg) - step) ↔
      if step < totalTrainingSteps D cfg then start = step ∨ D.length * cfg.totalEpochs ≤ step
      else D.length * cfg.totalEpochs ≤ start := by
  rw [← length_positions]
  split
  · rename_i hlt
    rcases Nat.eq_or_lt_of_le hle with rfl | hlt'
    · grind
    · have hne : ¬start = step := by omega
      rw [take_drop_eq_iff (nodup_positions D cfg) hlt' (by omega) (by omega), or_iff_right hne]
  · rename_i hlt
    exact take_one_eq_iff hpos (by omega) hmax

/-! ## When a run is resumed -/

theorem restored_at (hrestore : ∀ step state, tr.restore step state = D.loadStateDict D.fresh state)
    {step : Nat} {state : StateDict} (h : (step, state) ∈ (fit D cfg tr none).checkpoints) :
    0 < step ∧ 0 < D.length ∧ ∃ j ≤ D.length,
      step / D.length * D.length + j = (if step % D.length = 0 then step + D.length else step) ∧
      D.iter (tr.restore step state) = (range D.length).drop j := by
  obtain ⟨-, -, epoch, k, hk, hstep, l, hl, hstate⟩ := mem_checkpoints D cfg _ h
  simp only at hstep hstate
  have hN : 0 < D.length := by omega
  refine ⟨by omega, hN, k + 1, hk, ?_, ?_⟩
  · by_cases hend : k + 1 = D.length
    · -- the last batch of an epoch
      have hmul : step = D.length * (epoch + 1) := by grind
      rw [if_pos (by rw [hmul, Nat.mul_mod_right]), hmul, Nat.mul_div_cancel_left _ hN,
        Nat.mul_comm, hend]
    · have hmod : step % D.length = k + 1 := by
        rw [hstep, Nat.add_assoc, Nat.mul_comm, Nat.mul_add_mod, Nat.mod_eq_of_lt (by omega)]
      rw [if_neg (by omega), ← hmod, Nat.mul_comm, Nat.div_add_mod]
  · rw [hrestore, hstate, D.iter_loadStateDict l (k + 1) (by rw [hl, length_range]; omega), hl]

/-- `main_ppo_sync`: not at the end of an epoch, where the restored dataloader has no batch
left and the next epoch goes by without a step, and not when training had ended before the
last batch. -/
theorem sync_resumes_iff {step : Nat} {state : StateDict}
    (h : (step, state) ∈ (fit D cfg (sync D cfg) none).checkpoints) :
    Resumes D cfg (sync D cfg) (step, state) ↔
      if step < totalTrainingSteps D cfg then
        step % D.length ≠ 0 ∨ D.length * cfg.totalEpochs ≤ step
      else D.length * cfg.totalEpochs ≤ (if step % D.length = 0 then step + D.length else step) := by
  obtain ⟨hmax, hlen, -⟩ := mem_checkpoints D cfg _ h
  obtain ⟨hpos, hN, j, hj, hstart, hiter⟩ := restored_at D cfg _ (fun _ _ => rfl) h
  rw [resumes_iff_positions D cfg _ hj hstart hiter hmax hlen,
    positions_iff D cfg hpos (by split <;> omega) hmax]
  have hmid : (if step % D.length = 0 then step + D.length else step) = step ↔
      step % D.length ≠ 0 := by
    split <;> omega
  rw [hmid]

end Spec

/-- A dataloader whose state is how many batches of the epoch it has given. -/
def countingLoader (length : Nat) : StatefulDataLoader Nat Nat where
  length := length
  fresh := 0
  iter := fun position => (List.range length).drop position
  advance := fun position k => position + k
  finish := fun _ => 0
  stateDict := fun position => position
  loadStateDict := fun _ state => state
  iter_fresh := rfl
  iter_finish := fun _ => rfl
  iter_loadStateDict := fun _ _ _ => drop_drop.symm

/-- Two epochs, a save at every step. -/
def twoEpochs : Config := ⟨2, none, 1⟩

/-- Of two batches an epoch, the run that is resumed after the first goes on as it should. -/
theorem sync_resumes_two_batches :
    Resumes (countingLoader 2) twoEpochs (sync (countingLoader 2) twoEpochs) (1, 1) :=
  (sync_resumes_iff (countingLoader 2) twoEpochs (by decide)).mpr (by decide)

/-- The run that is resumed at the end of the first epoch trains on nothing more, where the
uninterrupted one makes two steps. -/
theorem not_sync_resumes_two_batches :
    (2, 2) ∈ (fit (countingLoader 2) twoEpochs (sync (countingLoader 2) twoEpochs)
      none).checkpoints ∧
    ¬Resumes (countingLoader 2) twoEpochs (sync (countingLoader 2) twoEpochs) (2, 2) := by
  refine ⟨by decide, fun h => ?_⟩
  have hsteps := h.2
  revert hsteps
  decide

section Spec

variable (D : StatefulDataLoader Loader StateDict) (cfg : Config)
  (tr : Trainer Loader StateDict)

variable {state : StateDict} {step : Nat}

end Spec

end Verl.Resume
