import Verl.Lib.Python
import Verl.Trainer.Resume

/-! # Resuming the SFT trainer

`SFTTrainer.fit` recomputes the epoch from the step it resumes at, and leaves it to the dataloader
where in the epoch it is.

    start_epoch = global_step // steps_per_epoch
    for epoch in range(start_epoch, total_epochs):       the epoch, for the sampler
        for data in self.train_dataloader:               goes on where the saved one was

* `fit`: a run from scratch or from a checkpoint; it also ends where a step fails.
* `Follows`: a run is one of the loop in `Verl.Trainer.Resume` that ends at the first step that is
  the last one or fails. -/

namespace Verl.SftTrainer

open List

open Resume (StatefulDataLoader Event positions)

/-! ## Algorithm -/

/-- `save_freq` and `test_freq`. -/
inductive Freq
  | steps (freq : Int)
  | afterEachEpoch
  deriving DecidableEq, Repr

structure Config where
  totalEpochs : Nat
  totalTrainingSteps : Option Nat
  saveFreq : Freq
  testFreq : Freq
  /-- There are `val_files`. -/
  hasVal : Bool
  deriving DecidableEq, Repr

structure Run (StateDict : Type) where
  globalStep : Nat
  trained : List Event
  checkpoints : List (Nat × StateDict)
  error : Option PyErr

variable {Loader StateDict : Type}

section Fit

variable (D : StatefulDataLoader Loader StateDict) (cfg : Config)

/-- `self.total_training_steps`. -/
def totalTrainingSteps : Nat :=
  cfg.totalTrainingSteps.getD (D.length * cfg.totalEpochs)

/-- `self.save_freq`, `self.test_freq`. -/
def Freq.get : Freq → Int
  | .steps freq => freq
  | .afterEachEpoch => D.length

/-- `global_step % freq == 0`. -/
def isMultiple (globalStep : Nat) (freq : Int) : Except PyErr Bool :=
  if freq = 0 then .error .zeroDivisionError else .ok (decide ((globalStep : Int) % freq = 0))

/-- The validation behind a step; it returns `is_save_step`. -/
def validate (globalStep : Nat) (isLastStep : Bool) : Except PyErr Bool := do
  let isValidStep ← isMultiple globalStep (cfg.testFreq.get D)
  let isSaveStep ← isMultiple globalStep (cfg.saveFreq.get D)
  if (isLastStep && cfg.hasVal || decide (0 < cfg.testFreq.get D) && isValidStep) && !cfg.hasVal then
    .error (.typeError "'NoneType' object is not iterable")
  else .ok isSaveStep

/-- The body of the loops, for the batch after which `l` is at `k`. -/
def trainStep (epoch : Nat) (l : Loader) (k batch : Nat) (r : Run StateDict) : Run StateDict :=
  let globalStep := r.globalStep + 1
  let isLastStep := decide (totalTrainingSteps D cfg ≤ globalStep)
  match validate D cfg globalStep isLastStep with
  | .error e =>
    { r with
      globalStep := globalStep
      trained := r.trained ++ [⟨globalStep, epoch, batch⟩]
      error := some e }
  | .ok isSaveStep =>
    { r with
      globalStep := globalStep
      trained := r.trained ++ [⟨globalStep, epoch, batch⟩]
      checkpoints :=
        if isLastStep || decide (0 < cfg.saveFreq.get D) && isSaveStep then
          r.checkpoints ++ [(globalStep, D.stateDict (D.advance l k))]
        else r.checkpoints }

/-- `for step_in_epoch, data in enumerate(...)`; `true` when `fit` has ended. -/
def trainEpoch (epoch : Nat) (l : Loader) : Nat → List Nat → Run StateDict → Run StateDict × Bool
  | _, [], r => (r, false)
  | k, batch :: rest, r =>
    let r' := trainStep D cfg epoch l (k + 1) batch r
    if r'.error.isSome || decide (totalTrainingSteps D cfg ≤ r'.globalStep) then (r', true)
    else trainEpoch epoch l (k + 1) rest r'

/-- `for epoch in range(start_epoch, self.config.trainer.total_epochs)`. -/
def trainEpochs : List Nat → Loader → Run StateDict → Run StateDict
  | [], _, r => r
  | epoch :: epochs, l, r =>
    match trainEpoch D cfg epoch l 0 (D.iter l) r with
    | (r', true) => r'
    | (r', false) => trainEpochs epochs (D.finish l) r'

/-- `load_checkpoint`: the step and the dataloader. -/
def loadCheckpoint : Option (Nat × StateDict) → Nat × Loader
  | none => (0, D.fresh)
  | some (step, state) => (step, D.loadStateDict D.fresh state)

def fit (checkpoint : Option (Nat × StateDict)) : Run StateDict :=
  let (globalStep, l) := loadCheckpoint D checkpoint
  let r : Run StateDict :=
    { globalStep := globalStep, trained := [], checkpoints := [], error := none }
  if D.length = 0 then { r with error := some .zeroDivisionError }
  else
    let startEpoch := globalStep / D.length
    trainEpochs D cfg (List.range' startEpoch (cfg.totalEpochs - startEpoch)) l r

/-- The run resumed from a checkpoint trains on what the uninterrupted run trains on after its step,
makes no update behind the last step, and the last checkpoint is that of `total_training_steps`. -/
structure Meets (checkpoint : Nat × StateDict) : Prop where
  trained : (fit D cfg (some checkpoint)).trained =
    (fit D cfg none).trained.filter fun e => checkpoint.1 < e.step
  ended : totalTrainingSteps D cfg ≤ checkpoint.1 → (fit D cfg (some checkpoint)).trained = []
  last : (checkpoint.1 :: (fit D cfg (some checkpoint)).checkpoints.map Prod.fst).getLast? =
    some (totalTrainingSteps D cfg)

end Fit

/-! ## The loop of `Verl.Trainer.Resume` -/

section Spec

variable (D : StatefulDataLoader Loader StateDict) (cfg : Config)

/-- Whether step `g` fails. -/
def fails (g : Nat) : Bool :=
  match validate D cfg g (decide (totalTrainingSteps D cfg ≤ g)) with
  | .error _ => true
  | .ok _ => false

/-- Whether step `g` is saved. -/
def saves (g : Nat) : Bool :=
  match validate D cfg g (decide (totalTrainingSteps D cfg ≤ g)) with
  | .error _ => false
  | .ok isSaveStep => decide (totalTrainingSteps D cfg ≤ g) ||
      decide (0 < cfg.saveFreq.get D) && isSaveStep

/-- Whether `fit` ends with step `g`. -/
def stops (g : Nat) : Bool := fails D cfg g || decide (totalTrainingSteps D cfg ≤ g)

/-- The trainer that saves at the same steps. -/
def trainer : Resume.Trainer Loader StateDict where
  shouldSave := fun g _ => saves D cfg g
  restore := fun _ state => D.loadStateDict D.fresh state

/-- Training up to a step. -/
def Config.upTo (stop : Nat) : Resume.Config := ⟨cfg.totalEpochs, some stop, 0⟩

theorem totalTrainingSteps_upTo (stop : Nat) :
    Resume.totalTrainingSteps D (cfg.upTo stop) = stop := rfl

/-- After step `g`, `fit` ends with step `stop`, or with the next one. -/
structure StopsAt (g stop : Nat) : Prop where
  goesOn : ∀ m, g < m → m < stop → stops D cfg m = false
  stops : stops D cfg (max (g + 1) stop) = true

variable {D cfg}

theorem StopsAt.next_iff {g stop : Nat} (h : StopsAt D cfg g stop) :
    SftTrainer.stops D cfg (g + 1) = decide (stop ≤ g + 1) := by
  by_cases hle : stop ≤ g + 1
  · have hstop := h.stops
    rw [Nat.max_eq_left hle] at hstop
    rw [hstop, decide_eq_true hle]
  · rw [h.goesOn (g + 1) (Nat.lt_succ_self g) (by omega), decide_eq_false hle]

theorem StopsAt.next {g stop : Nat} (h : StopsAt D cfg g stop) (hlt : ¬stop ≤ g + 1) :
    StopsAt D cfg (g + 1) stop where
  goesOn := fun m hm => h.goesOn m (by omega)
  stops := by
    have hstop := h.stops
    rw [Nat.max_eq_right (by omega)] at hstop ⊢
    exact hstop

/-- The run does what the other one does. -/
structure Follows (r : Run StateDict) (r' : Resume.Run StateDict) : Prop where
  step : r'.globalSteps = r.globalStep + 1
  trained : r'.trained = r.trained
  checkpoints : r'.checkpoints = r.checkpoints

section TrainStep

variable (D cfg)

section

variable (epoch : Nat) (l : Loader) (k batch : Nat)
include epoch l k batch

variable (r : Run StateDict)

theorem trainStep_globalStep :
    (trainStep D cfg epoch l k batch r).globalStep = r.globalStep + 1 := by
  unfold trainStep
  dsimp only
  split <;> rfl

theorem trainStep_stops {r : Run StateDict} (herror : r.error = none) :
    ((trainStep D cfg epoch l k batch r).error.isSome ||
      decide (totalTrainingSteps D cfg ≤ (trainStep D cfg epoch l k batch r).globalStep)) =
      stops D cfg (r.globalStep + 1) := by
  rw [trainStep_globalStep]
  unfold stops fails trainStep
  dsimp only
  split
  · rfl
  · grind

theorem trainStep_trained : (trainStep D cfg epoch l k batch r).trained =
      r.trained ++ [⟨r.globalStep + 1, epoch, batch⟩] := by
  unfold trainStep
  dsimp only
  split <;> rfl

theorem trainStep_checkpoints :
    (trainStep D cfg epoch l k batch r).checkpoints =
      if saves D cfg (r.globalStep + 1) then
        r.checkpoints ++ [(r.globalStep + 1, D.stateDict (D.advance l k))]
      else r.checkpoints := by
  unfold trainStep saves
  dsimp only
  split <;> rfl

end

theorem trainStep_follows (epoch : Nat) (l : Loader) (k batch stop : Nat) {r : Run StateDict}
    {r' : Resume.Run StateDict} (h : Follows r r') :
    Follows (trainStep D cfg epoch l k batch r)
      (Resume.trainStep D (cfg.upTo stop) (trainer D cfg) epoch l k batch r') where
  step := by
    rw [trainStep_globalStep, ← h.step]
    rfl
  trained := by
    rw [trainStep_trained, ← h.trained, ← h.step]
    rfl
  checkpoints := by
    rw [trainStep_checkpoints, ← h.checkpoints, ← h.step]
    rfl

end TrainStep

variable {g stop : Nat}

theorem trainEpoch_follows (epoch : Nat) (l : Loader) (batches : List Nat) (k : Nat)
    {r : Run StateDict} {r' : Resume.Run StateDict} (h : Follows r r') (herror : r.error = none)
    (hstop : StopsAt D cfg r.globalStep stop) :
    Follows (trainEpoch D cfg epoch l k batches r).1
      (Resume.trainEpoch D (cfg.upTo stop) (trainer D cfg) epoch l k batches r').1 ∧
    (trainEpoch D cfg epoch l k batches r).2 =
      (Resume.trainEpoch D (cfg.upTo stop) (trainer D cfg) epoch l k batches r').2 ∧
    ((trainEpoch D cfg epoch l k batches r).2 = false →
      (trainEpoch D cfg epoch l k batches r).1.error = none ∧
      StopsAt D cfg (trainEpoch D cfg epoch l k batches r).1.globalStep stop) := by
  induction batches generalizing k r r' with
  | nil => exact ⟨h, rfl, fun _ => ⟨herror, hstop⟩⟩
  | cons batch batches ih =>
    have hfollows := trainStep_follows D cfg epoch l (k + 1) batch stop h
    have hstops := trainStep_stops D cfg epoch l (k + 1) batch herror
    have hstep := trainStep_globalStep D cfg epoch l (k + 1) batch r
    unfold trainEpoch Resume.trainEpoch
    dsimp only
    rw [hstops, hstop.next_iff, h.step, totalTrainingSteps_upTo]
    by_cases hle : stop ≤ r.globalStep + 1
    · grind
    · rw [if_neg (by rw [decide_eq_false hle]; decide), if_neg hle]
      refine ih (k + 1) hfollows ?_ ?_
      · rw [hstop.next_iff, decide_eq_false hle, Bool.or_eq_false_iff] at hstops
        exact Option.not_isSome_iff_eq_none.1 (Bool.eq_false_iff.1 hstops.1)
      · rw [hstep]
        exact hstop.next hle

theorem trainEpochs_follows (epochs : List Nat) (l : Loader) {r : Run StateDict}
    {r' : Resume.Run StateDict} (h : Follows r r') (herror : r.error = none)
    (hstop : StopsAt D cfg r.globalStep stop) :
    Follows (trainEpochs D cfg epochs l r)
      (Resume.trainEpochs D (cfg.upTo stop) (trainer D cfg) epochs l r') := by
  induction epochs generalizing l r r' with
  | nil => exact h
  | cons epoch epochs ih =>
    obtain ⟨hfollows, hret, hgo⟩ := trainEpoch_follows epoch l (D.iter l) 0 h herror hstop
    unfold trainEpochs Resume.trainEpochs
    rcases hrun : trainEpoch D cfg epoch l 0 (D.iter l) r with ⟨r₁, ret⟩
    rcases hrun' : Resume.trainEpoch D (cfg.upTo stop) (trainer D cfg) epoch l 0 (D.iter l) r' with
      ⟨r₁', ret'⟩
    rw [hrun, hrun'] at hfollows hret
    rw [hrun] at hgo
    obtain rfl : ret = ret' := hret
    cases ret with
    | true => exact hfollows
    | false =>
      obtain ⟨herror₁, hstop₁⟩ := hgo rfl
      exact ih (D.finish l) hfollows herror₁ hstop₁

theorem fit_follows (hN : 0 < D.length) (checkpoint : Option (Nat × StateDict))
    (hstop : StopsAt D cfg (loadCheckpoint D checkpoint).1 stop) :
    Follows (fit D cfg checkpoint)
      (Resume.fit D (cfg.upTo stop) (trainer D cfg) checkpoint) := by
  unfold fit
  dsimp only
  rw [if_neg (Nat.ne_of_gt hN)]
  exact trainEpochs_follows _ _ ⟨rfl, rfl, rfl⟩ rfl hstop

/-! ## The last step -/

/-- The first step that ends a run from scratch. -/
structure FirstStop (D : StatefulDataLoader Loader StateDict) (cfg : Config) (stop : Nat) : Prop where
  pos : 0 < stop
  le : stop ≤ max 1 (totalTrainingSteps D cfg)
  stops : stops D cfg stop = true
  goesOn : ∀ m, 0 < m → m < stop → SftTrainer.stops D cfg m = false

theorem stops_of_le (h : totalTrainingSteps D cfg ≤ g) : stops D cfg g = true := by
  unfold stops
  rw [decide_eq_true h, Bool.or_true]

variable (D cfg) in
theorem exists_firstStop : ∃ stop, FirstStop D cfg stop := by
  have hex : ∃ g, 0 < g ∧ stops D cfg g = true :=
    ⟨max 1 (totalTrainingSteps D cfg), by omega, stops_of_le (by omega)⟩
  obtain ⟨hpos, hstops⟩ := Nat.find_spec hex
  refine ⟨Nat.find hex, hpos, Nat.find_min' hex ⟨by omega, stops_of_le (by omega)⟩, hstops, ?_⟩
  intro m hm hlt
  have hmin := Nat.find_min hex hlt
  rw [not_and] at hmin
  exact Bool.eq_false_iff.2 (hmin hm)

theorem FirstStop.stopsAt (h : FirstStop D cfg stop)
    (hg : g < stop ∨ totalTrainingSteps D cfg ≤ g) : StopsAt D cfg g stop where
  goesOn := fun m hm => h.goesOn m (by omega)
  stops := by
    rcases hg with hg | hg
    · rw [Nat.max_eq_right hg]
      exact h.stops
    · exact stops_of_le (by omega)

theorem of_saves (h : saves D cfg g = true) : cfg.testFreq.get D ≠ 0 ∧
    cfg.saveFreq.get D ≠ 0 ∧ fails D cfg g = false := by
  unfold saves at h
  unfold fails
  unfold validate isMultiple at h ⊢
  by_cases htest : cfg.testFreq.get D = 0
  · rw [if_pos htest] at h
    cases h
  · by_cases hsave : cfg.saveFreq.get D = 0
    · rw [if_neg htest, if_pos hsave] at h
      cases h
    · refine ⟨htest, hsave, ?_⟩
      split at h
      · cases h
      · rfl

theorem validate_eq (htest : cfg.testFreq.get D ≠ 0) (hsave : cfg.saveFreq.get D ≠ 0) (g : Nat)
    (isLastStep : Bool) : validate D cfg g isLastStep =
      if cfg.hasVal = false ∧ 0 < cfg.testFreq.get D ∧ (g : Int) % cfg.testFreq.get D = 0 then
        .error (.typeError "'NoneType' object is not iterable")
      else .ok (decide ((g : Int) % cfg.saveFreq.get D = 0)) := by
  unfold validate isMultiple
  rw [if_neg htest, if_neg hsave]
  cases cfg.hasVal with
  | true => simp
  | false => simp

theorem fails_iff (htest : cfg.testFreq.get D ≠ 0) (hsave : cfg.saveFreq.get D ≠ 0) (g : Nat) :
    fails D cfg g = true ↔ cfg.hasVal = false ∧ 0 < cfg.testFreq.get D ∧
      (g : Int) % cfg.testFreq.get D = 0 := by
  unfold fails
  rw [validate_eq htest hsave]
  by_cases hno : cfg.hasVal = false ∧ 0 < cfg.testFreq.get D ∧ (g : Int) % cfg.testFreq.get D = 0
  · grind
  · grind

theorem saves_of_le (h : totalTrainingSteps D cfg ≤ g) (hfails : fails D cfg g = false) :
    saves D cfg g = true := by
  unfold fails at hfails
  unfold saves
  split at hfails
  · cases hfails
  · grind

theorem FirstStop.eq_total_iff (h : FirstStop D cfg stop) (htest : cfg.testFreq.get D ≠ 0)
    (hsave : cfg.saveFreq.get D ≠ 0) (htotal : 0 < totalTrainingSteps D cfg) :
    stop = totalTrainingSteps D cfg ∧ fails D cfg (totalTrainingSteps D cfg) = false ↔
      cfg.hasVal = true ∨ cfg.testFreq.get D ≤ 0 ∨
        (totalTrainingSteps D cfg : Int) < cfg.testFreq.get D := by
  constructor
  · rintro ⟨hstop, hfails⟩
    by_contra hnot
    rw [not_or, not_or, Bool.not_eq_true] at hnot
    obtain ⟨hval, hpos, hle⟩ := hnot
    -- the first validation
    obtain ⟨m, hm⟩ := Int.eq_ofNat_of_zero_le (by omega : 0 ≤ cfg.testFreq.get D)
    have hfailsm : fails D cfg m = true := by
      rw [fails_iff htest hsave, ← hm, Int.emod_self]
      exact ⟨hval, by omega, rfl⟩
    rcases Nat.lt_or_ge m stop with hlt | hge
    · have hgoes := h.goesOn m (by omega) hlt
      unfold SftTrainer.stops at hgoes
      rw [hfailsm] at hgoes
      cases hgoes
    · grind
  · intro hclean
    have hno : ∀ g, 0 < g → g ≤ totalTrainingSteps D cfg → fails D cfg g = false := by
      intro g hg hle
      rw [← Bool.not_eq_true, fails_iff htest hsave]
      rintro ⟨hval, hpos, hmod⟩
      have hdvd := Int.le_of_dvd (by omega) (Int.dvd_of_emod_eq_zero hmod)
      rcases hclean with hclean | hclean | hclean
      · grind
      · omega
      · omega
    have hle := h.le
    have hstops := h.stops
    unfold SftTrainer.stops at hstops
    rw [hno stop h.pos (by omega), Bool.false_or, decide_eq_true_eq] at hstops
    exact ⟨by omega, hno _ htotal (Nat.le_refl _)⟩

/-! ## When a run is resumed -/

variable {step : Nat} {state : StateDict}

theorem length_pos (h : (step, state) ∈ (fit D cfg none).checkpoints) : 0 < D.length := by
  apply Nat.pos_of_ne_zero
  intro hzero
  unfold fit at h
  dsimp only at h
  rw [if_pos hzero] at h
  cases h

section

variable (hstop : FirstStop D cfg stop) (h : (step, state) ∈ (fit D cfg none).checkpoints)
include hstop h

theorem FirstStop.mem_checkpoints :
    (step, state) ∈ (Resume.fit D (cfg.upTo stop) (trainer D cfg) none).checkpoints := by
  rw [(fit_follows (length_pos h) none (hstop.stopsAt (.inl hstop.pos))).checkpoints]
  exact h

theorem FirstStop.saves_step : saves D cfg step = true := by
  have hsteps := Resume.savesSteps_fit D (cfg.upTo stop) (trainer D cfg) none
  have hmem := mem_map_of_mem (f := Prod.fst) (hstop.mem_checkpoints h)
  rw [hsteps, mem_filter] at hmem
  exact hmem.2

theorem FirstStop.steps_resumed (hstops : step < stop ∨ totalTrainingSteps D cfg ≤ step) :
    ∃ n, n = min (max 1 (stop - step)) (D.length * cfg.totalEpochs -
          if step % D.length = 0 then step + D.length else step) ∧
      (fit D cfg (some (step, state))).trained.map Event.step = range' (step + 1) n ∧
      (fit D cfg (some (step, state))).checkpoints.map Prod.fst =
        (range' (step + 1) n).filter (saves D cfg) := by
  obtain ⟨-, -, j, hj, hstart, hiter⟩ :=
    Resume.restored_at D _ _ (fun _ _ => rfl) (hstop.mem_checkpoints h)
  have hfollows := fit_follows (length_pos h) (some (step, state)) (hstop.stopsAt hstops)
  have hsteps := Resume.savesSteps_fit D (cfg.upTo stop) (trainer D cfg) (some (step, state))
  obtain ⟨htrained, -⟩ := Resume.fit_some D (cfg.upTo stop) (trainer D cfg) hj hiter
  have htrained := congrArg (List.map Event.step) htrained
  rw [hfollows.trained, Resume.map_step_number, length_take, length_drop, hstart,
    Resume.length_positions] at htrained
  unfold Resume.SavesSteps at hsteps
  rw [hfollows.checkpoints, hfollows.trained, htrained] at hsteps
  exact ⟨_, rfl, htrained, hsteps⟩

theorem FirstStop.trained_iff (hstops : step < stop ∨ totalTrainingSteps D cfg ≤ step) :
    (fit D cfg (some (step, state))).trained =
        (fit D cfg none).trained.filter (fun e => step < e.step) ↔
      if step < stop then step % D.length ≠ 0 ∨ D.length * cfg.totalEpochs ≤ step
      else D.length * cfg.totalEpochs ≤ if step % D.length = 0 then step + D.length else step := by
  have hmem := hstop.mem_checkpoints h
  obtain ⟨hmax, -, -⟩ := Resume.mem_checkpoints D _ _ hmem
  obtain ⟨hpos, hN, j, hj, hstart, hiter⟩ := Resume.restored_at D _ _ (fun _ _ => rfl) hmem
  have hscratch := fit_follows hN none (hstop.stopsAt (.inl hstop.pos))
  have hresumed := fit_follows hN (some (step, state)) (hstop.stopsAt hstops)
  have hmid : (if step % D.length = 0 then step + D.length else step) = step ↔
      step % D.length ≠ 0 := by
    split <;> omega
  rw [← hscratch.trained, ← hresumed.trained,
    Resume.trained_iff_positions D _ _ hj hstart hiter,
    Resume.positions_iff D _ hpos (by split <;> omega) hmax, hmid]
  rfl

end

/-- The resumed run does what it should inside of an epoch, before the last step, if there are
enough batches and every validation has its data; and behind the last step, if it was the last one
of an epoch and no epoch but the next one is left. -/
theorem meets_iff (h : (step, state) ∈ (fit D cfg none).checkpoints) : Meets D cfg (step, state) ↔
      step < totalTrainingSteps D cfg ∧ step % D.length ≠ 0 ∧
        totalTrainingSteps D cfg ≤ D.length * cfg.totalEpochs ∧
        (cfg.hasVal = true ∨ cfg.testFreq.get D ≤ 0 ∨
          (totalTrainingSteps D cfg : Int) < cfg.testFreq.get D) ∨
      step = totalTrainingSteps D cfg ∧ step % D.length = 0 ∧
        D.length * cfg.totalEpochs ≤ step + D.length := by
  obtain ⟨stop, hstop⟩ := exists_firstStop D cfg
  have hmem := hstop.mem_checkpoints h
  obtain ⟨hmax, hlen, -⟩ := Resume.mem_checkpoints D _ _ hmem
  obtain ⟨hpos, hN, -⟩ := Resume.restored_at D _ _ (fun _ _ => rfl) hmem
  rw [totalTrainingSteps_upTo] at hmax
  rw [Resume.length_positions] at hlen
  have hlen : step ≤ D.length * cfg.totalEpochs := hlen
  have hle := hstop.le
  have hfirst := hstop.pos
  have hsaves := hstop.saves_step h
  obtain ⟨htest, hsave, hfails⟩ := of_saves hsaves
  -- a step that is saved ends the run only as the last one
  have hwhere : step < stop ∨ totalTrainingSteps D cfg ≤ step := by
    rcases Nat.lt_or_ge step stop with hlt | hge
    · exact .inl hlt
    · have heq : step = stop := by omega
      have hstops := hstop.stops
      unfold stops at hstops
      rw [← heq, hfails, Bool.false_or, decide_eq_true_eq] at hstops
      exact .inr hstops
  have htrained := hstop.trained_iff h hwhere
  obtain ⟨n, hn, hsteps, hcheckpoints⟩ := hstop.steps_resumed h hwhere
  by_cases hlt : step < totalTrainingSteps D cfg
  · have hbefore : step < stop := hwhere.resolve_right (by omega)
    rw [if_pos hbefore] at htrained
    have hclean := hstop.eq_total_iff htest hsave (by omega)
    constructor
    · rintro ⟨hall, -, hlast⟩
      -- the last step is one of the resumed run
      have hmem := mem_of_getLast? hlast
      rw [hcheckpoints] at hmem
      rcases mem_cons.1 hmem with heq | hmem
      · exact absurd hlt (by omega)
      rw [mem_filter, mem_range'_1] at hmem
      obtain ⟨⟨-, hlt'⟩, hsaved⟩ := hmem
      have hstart : step ≤ if step % D.length = 0 then step + D.length else step := by
        split <;> omega
      have hmid := (htrained.1 hall).resolve_right (by omega)
      exact .inl ⟨hlt, hmid, by omega, hclean.1 ⟨by omega, (of_saves hsaved).2.2⟩⟩
    · rintro (⟨-, hmid, htotal, hno⟩ | ⟨heq, -⟩)
      · obtain ⟨heq, hfails'⟩ := hclean.2 hno
        refine ⟨htrained.2 (.inl hmid), fun hle => absurd hlt (by omega), ?_⟩
        rw [if_neg hmid] at hn
        obtain ⟨m, hm⟩ : ∃ m, n = m + 1 := ⟨n - 1, by omega⟩
        have hend : step + 1 + 1 * m = totalTrainingSteps D cfg := by omega
        rw [hcheckpoints, hm, range'_concat, hend, filter_append,
          filter_cons_of_pos (saves_of_le (Nat.le_refl _) hfails'), filter_nil,
          ← cons_append, getLast?_concat]
      · exact absurd hlt (by omega)
  · have hend : ¬step < stop := by omega
    rw [if_neg hend] at htrained
    constructor
    · rintro ⟨hall, hended, hlast⟩
      have hrest := htrained.1 hall
      by_cases hmod : step % D.length = 0
      · grind
      · rw [if_neg hmod] at hrest
        have hall : step = D.length * cfg.totalEpochs := by omega
        rw [hall, Nat.mul_mod_right] at hmod
        exact absurd rfl hmod
    · rintro (⟨hlt', -⟩ | ⟨heq, hmod, hrest⟩)
      · exact absurd hlt' hlt
      · rw [if_pos hmod] at htrained hn
        have hzero : n = 0 := by omega
        rw [hzero] at hsteps hcheckpoints
        have hnil := map_eq_nil_iff.1 hsteps
        refine ⟨htrained.2 hrest, fun _ => hnil, ?_⟩
        rw [hcheckpoints, heq]
        rfl

end Spec

/-- Two epochs, a save at every step and no validation. -/
def twoEpochs : Config where
  totalEpochs := 2
  totalTrainingSteps := none
  saveFreq := .steps 1
  testFreq := .steps (-1)
  hasVal := false

/-- Of two batches an epoch, the run that is resumed after the first goes on as it should. -/
theorem meets_two_batches : Meets (Resume.countingLoader 2) twoEpochs (1, 1) :=
  (meets_iff (by decide)).mpr (by decide)

/-- The run that is resumed at the end of the first epoch makes no step and saves no checkpoint; one
that is resumed behind the last step, inside of an epoch, makes one more. -/
theorem not_meets_two_batches :
    ((2, 2) ∈ (fit (Resume.countingLoader 2) twoEpochs none).checkpoints ∧
      (fit (Resume.countingLoader 2) twoEpochs (some (2, 2))).trained = [] ∧
      ¬Meets (Resume.countingLoader 2) twoEpochs (2, 2)) ∧
    ((3, 1) ∈ (fit (Resume.countingLoader 2)
        { twoEpochs with totalTrainingSteps := some 3 } none).checkpoints ∧
      ¬Meets (Resume.countingLoader 2) { twoEpochs with totalTrainingSteps := some 3 } (3, 1)) := by
  refine ⟨⟨by decide, by decide, fun h => ?_⟩, by decide, fun h => ?_⟩
  · have hlast := h.last
    revert hlast
    decide
  · have hended := h.ended
    revert hended
    decide

end Verl.SftTrainer
