import Verl.Lib.Python

/-! # The training loop of fully asynchronous training

`FullyAsyncTrainer` counts the steps of a cycle; after `trigger_parameter_sync_step` of them the
version goes up and the rollouter gets the weights.  A checkpoint is saved once for a version.

* `fitStep` and `fit`: the loop, until the queue is shut down, and the flush after it.
* `fit_flushes_iff`: the flush loses nothing exactly if the loop ends with a cycle, or makes no
  actor update and saves nothing in the last cycle. -/

namespace Verl.AsyncTrainer

open List

/-! ## Algorithm -/

/-- The settings the loop reads. -/
structure Config where
  triggerParameterSyncStep : Nat
  saveFreq : Int
  testFreq : Int
  useCritic : Bool
  criticWarmup : Nat

/-- An optimizer update and the step it was made in. -/
inductive Update
  | critic (globalStep : Nat)
  | actor (globalStep : Nat)
  deriving DecidableEq, Repr

def Update.isActor : Update → Bool
  | critic _ => false
  | actor _ => true

structure State where
  globalSteps : Nat
  localTriggerStep : Nat
  currentParamVersion : Nat
  lastCkptVersion : Nat
  /-- The updates that the loop has made. -/
  applied : List Update
  /-- Those that the last checkpoint contains. -/
  saved : List Update
  /-- Those that the weights of the rollouter contain. -/
  received : List Update

/-- A new job, or one that `load_checkpoint` has set to a version; the rollouter has the weights
of the trainer. -/
def start (cfg : Config) : Option Nat → State
  | none => ⟨0, 1, 0, 0, [], [], []⟩
  | some version => ⟨version * cfg.triggerParameterSyncStep + 1, 1, version, version, [], [], []⟩

section Algorithm

variable (cfg : Config) (esi : Nat → Bool)

def fitUpdateCritic (s : State) : State :=
  if cfg.useCritic then { s with applied := s.applied ++ [.critic s.globalSteps] } else s

def fitUpdateActor (s : State) : State :=
  if cfg.criticWarmup ≤ s.globalSteps then
    { s with applied := s.applied ++ [.actor s.globalSteps] }
  else s

def fitUpdateLocalStep (s : State) : State :=
  if s.localTriggerStep < cfg.triggerParameterSyncStep then
    { s with localTriggerStep := s.localTriggerStep + 1 }
  else { s with currentParamVersion := s.currentParamVersion + 1, localTriggerStep := 1 }

/-- The rollouter gets the actor. -/
def fitUpdateWeights (s : State) : State :=
  if s.localTriggerStep ≠ 1 then s else { s with received := s.applied.filter Update.isActor }

/-- `esi` says in which steps the capacity block is close to its end. -/
def fitSaveCheckpoint (s : State) (force : Bool) : State :=
  if s.currentParamVersion = s.lastCkptVersion then s
  else if 0 < cfg.saveFreq ∧
      (force ∨ (s.currentParamVersion : Int) % cfg.saveFreq = 0 ∨ esi s.globalSteps) then
    { s with saved := s.applied, lastCkptVersion := s.currentParamVersion }
  else s

def fitStep (s : State) : State :=
  let s := fitUpdateCritic cfg s
  let s := fitUpdateActor cfg s
  let s := fitUpdateLocalStep cfg s
  let s := fitUpdateWeights s
  let s := fitSaveCheckpoint cfg esi s false
  { s with globalSteps := s.globalSteps + 1 }

/-- `steps` batches come before the queue is shut down. -/
def fitLoop : Nat → State → State
  | 0, s => s
  | steps + 1, s => fitStep cfg esi (fitLoop steps s)

def fit (steps : Nat) (s : State) : Except PyErr State :=
  let s := fitLoop cfg esi steps { s with globalSteps := s.globalSteps + 1 }
  if cfg.testFreq = 0 then .error .zeroDivisionError
  else
    let s :=
      if (s.currentParamVersion : Int) % cfg.testFreq ≠ 0 ∨ 1 < s.localTriggerStep then
        fitUpdateWeights s
      else s
    .ok (fitSaveCheckpoint cfg esi s true)

end Algorithm

/-! ## Where the loop is -/

section Progress

variable (cfg : Config) (esi : Nat → Bool)

/-- The steps of a cycle. -/
def period : Nat := max cfg.triggerParameterSyncStep 1

/-- The updates of one step. -/
def stepUpdates (globalStep : Nat) : List Update :=
  (if cfg.useCritic then [.critic globalStep] else []) ++
    if cfg.criticWarmup ≤ globalStep then [.actor globalStep] else []

/-- The updates of the first `steps` steps, the first of which is `first`. -/
def updates (first steps : Nat) : List Update :=
  (List.range steps).flatMap fun i => stepUpdates cfg (first + i)

/-- A checkpoint is due after `steps` steps, if the version has none; the starting version has. -/
def SaveDue (version first steps : Nat) : Prop :=
  steps = 0 ∨ ((version + steps / period cfg : Nat) : Int) % cfg.saveFreq = 0 ∨
    esi (first + steps - 1) = true

/-- The last checkpoint is of step `k`: the first one of its cycle at which one was due. -/
structure CheckpointAt (version first steps k : Nat) (s : State) : Prop where
  le : k ≤ steps
  lastCkptVersion : s.lastCkptVersion = version + k / period cfg
  saved : s.saved = updates cfg first k
  due : k / period cfg = steps / period cfg → SaveDue cfg esi version first k
  not_due : ∀ i, steps / period cfg * period cfg ≤ i → i ≤ steps →
    (k / period cfg = steps / period cfg → i < k) → ¬SaveDue cfg esi version first i

/-- The state after `steps` steps. -/
structure Progress (version first steps : Nat) (s : State) : Prop where
  globalSteps : s.globalSteps = first + steps
  localTriggerStep : s.localTriggerStep = steps % period cfg + 1
  currentParamVersion : s.currentParamVersion = version + steps / period cfg
  applied : s.applied = updates cfg first steps
  received : s.received =
    (updates cfg first (steps / period cfg * period cfg)).filter Update.isActor
  checkpoint : ∃ k, CheckpointAt cfg esi version first steps k s

variable {cfg esi}

variable {s : State} {steps first version : Nat}

theorem period_pos : 0 < period cfg := Nat.lt_of_lt_of_le Nat.one_pos (le_max_right _ _)

theorem updates_succ (first steps : Nat) :
    updates cfg first (steps + 1) = updates cfg first steps ++ stepUpdates cfg (first + steps) := by
  unfold updates
  rw [range_succ, flatMap_append, flatMap_singleton]

theorem fitUpdates_eq (s : State) : fitUpdateActor cfg (fitUpdateCritic cfg s) =
      { s with applied := s.applied ++ stepUpdates cfg s.globalSteps } := by
  unfold fitUpdateActor fitUpdateCritic stepUpdates
  cases cfg.useCritic with
  | true =>
    simp only [if_true]
    split
    · rw [append_assoc]
    · rw [append_nil]
  | false =>
    simp only [Bool.false_eq_true, if_false, nil_append]
    split
    · rfl
    · rw [append_nil]

theorem succ_of_lt {p n : Nat} (h : n % p + 1 < p) :
    (n + 1) / p = n / p ∧ (n + 1) % p = n % p + 1 := by
  have hn : n + 1 = p * (n / p) + (n % p + 1) := by rw [← Nat.add_assoc, Nat.div_add_mod]
  have hp : 0 < p := by omega
  rw [hn, Nat.mul_add_div hp, Nat.div_eq_of_lt h, Nat.mul_add_mod, Nat.mod_eq_of_lt h]
  exact ⟨Nat.add_zero _, rfl⟩

theorem succ_of_eq {p n : Nat} (h : n % p + 1 = p) : (n + 1) / p = n / p + 1 ∧ (n + 1) % p = 0 := by
  have hn : n + 1 = p * (n / p) + p := by
    calc n + 1 = p * (n / p) + (n % p + 1) := by rw [← Nat.add_assoc, Nat.div_add_mod]
      _ = p * (n / p) + p := by rw [h]
  have hp : 0 < p := by omega
  rw [hn, Nat.mul_add_div hp, Nat.div_self hp, Nat.mul_add_mod, Nat.mod_self]
  exact ⟨rfl, rfl⟩

theorem cycle_spec (h : Progress cfg esi version first steps s) :
    let s' := fitUpdateWeights (fitUpdateLocalStep cfg
      { s with applied := updates cfg first (steps + 1) })
    s'.globalSteps = s.globalSteps ∧ s'.localTriggerStep = (steps + 1) % period cfg + 1 ∧
      s'.currentParamVersion = version + (steps + 1) / period cfg ∧
      s'.lastCkptVersion = s.lastCkptVersion ∧ s'.saved = s.saved ∧
      s'.applied = updates cfg first (steps + 1) ∧
      s'.received =
        (updates cfg first ((steps + 1) / period cfg * period cfg)).filter Update.isActor := by
  have hlt := Nat.mod_lt steps (@period_pos cfg)
  have hperiod : period cfg = max cfg.triggerParameterSyncStep 1 := rfl
  unfold fitUpdateLocalStep
  by_cases hcycle : steps % period cfg + 1 < period cfg
  · obtain ⟨hdiv, hmod⟩ := succ_of_lt hcycle
    have hif : s.localTriggerStep < cfg.triggerParameterSyncStep := by
      rw [h.localTriggerStep]
      omega
    have hlocal : s.localTriggerStep + 1 ≠ 1 := by
      rw [h.localTriggerStep]
      omega
    rw [if_pos hif]
    unfold fitUpdateWeights
    rw [if_pos hlocal, hdiv, hmod]
    exact ⟨rfl, by rw [h.localTriggerStep], h.currentParamVersion, rfl, rfl, rfl, h.received⟩
  · have hend : steps % period cfg + 1 = period cfg := by omega
    obtain ⟨hdiv, hmod⟩ := succ_of_eq hend
    have hall : (steps + 1) / period cfg * period cfg = steps + 1 :=
      Nat.div_mul_cancel (Nat.dvd_of_mod_eq_zero hmod)
    have hif : ¬s.localTriggerStep < cfg.triggerParameterSyncStep := by
      rw [h.localTriggerStep]
      omega
    rw [if_neg hif]
    unfold fitUpdateWeights
    dsimp only
    rw [hall, hmod, hdiv]
    exact ⟨rfl, rfl, by rw [h.currentParamVersion]; rfl, rfl, rfl, rfl, rfl⟩

theorem checkpointAt_step {k : Nat} (hsave : 0 < cfg.saveFreq)
    (hglobal : s.globalSteps = first + steps)
    (hversion : s.currentParamVersion = version + (steps + 1) / period cfg)
    (happlied : s.applied = updates cfg first (steps + 1))
    (h : CheckpointAt cfg esi version first steps k s) :
    ∃ k', CheckpointAt cfg esi version first (steps + 1) k'
      (fitSaveCheckpoint cfg esi s false) := by
  have hmono : k / period cfg ≤ steps / period cfg := Nat.div_le_div_right h.le
  have hnext : steps / period cfg ≤ (steps + 1) / period cfg :=
    Nat.div_le_div_right (Nat.le_succ steps)
  unfold fitSaveCheckpoint
  by_cases hlast : s.currentParamVersion = s.lastCkptVersion
  · -- this cycle has its checkpoint
    have hsame : k / period cfg = (steps + 1) / period cfg := by
      rw [h.lastCkptVersion] at hlast
      omega
    have hcycle : steps / period cfg = (steps + 1) / period cfg := by omega
    rw [if_pos hlast]
    refine ⟨k, Nat.le_succ_of_le h.le, h.lastCkptVersion, h.saved, ?_, ?_⟩
    · intro _
      exact h.due (hsame.trans hcycle.symm)
    · intro i hi _ hik
      have hlt := hik hsame
      exact h.not_due i (hcycle ▸ hi) (by have := h.le; omega) fun _ => hlt
  · have hother : k / period cfg ≠ (steps + 1) / period cfg := by
      rw [h.lastCkptVersion] at hlast
      omega
    have hbefore : ∀ i, (steps + 1) / period cfg * period cfg ≤ i → i ≤ steps →
        ¬SaveDue cfg esi version first i := by
      intro i hi hle
      have hfrom := (Nat.le_div_iff_mul_le period_pos).mpr hi
      have hto : i / period cfg ≤ steps / period cfg := Nat.div_le_div_right hle
      have hcycle : steps / period cfg = (steps + 1) / period cfg := by omega
      exact h.not_due i (hcycle ▸ hi) hle fun hk => absurd (hk.trans hcycle) hother
    have hdue : (0 < cfg.saveFreq ∧ (false = true ∨
        (s.currentParamVersion : Int) % cfg.saveFreq = 0 ∨ esi s.globalSteps = true)) ↔
        SaveDue cfg esi version first (steps + 1) := by
      rw [and_iff_right hsave, or_iff_right Bool.false_ne_true, hversion, hglobal]
      unfold SaveDue
      rw [or_iff_right (Nat.succ_ne_zero steps)]
      rfl
    rw [if_neg hlast]
    by_cases hnow : SaveDue cfg esi version first (steps + 1)
    · rw [if_pos (hdue.mpr hnow)]
      refine ⟨steps + 1, le_rfl, hversion, happlied, fun _ => hnow, ?_⟩
      intro i hi _ hik
      exact hbefore i hi (Nat.le_of_lt_succ (hik rfl))
    · rw [if_neg (hdue.not.mpr hnow)]
      refine ⟨k, Nat.le_succ_of_le h.le, h.lastCkptVersion, h.saved,
        fun hk => absurd hk hother, ?_⟩
      intro i hi hle _
      obtain hlt | heq := Nat.lt_or_eq_of_le hle
      · exact hbefore i hi (Nat.le_of_lt_succ hlt)
      · rw [heq]
        exact hnow

theorem fitSaveCheckpoint_frame (cfg : Config) (esi : Nat → Bool) (s : State) (force : Bool) :
    (fitSaveCheckpoint cfg esi s force).globalSteps = s.globalSteps ∧
      (fitSaveCheckpoint cfg esi s force).localTriggerStep = s.localTriggerStep ∧
      (fitSaveCheckpoint cfg esi s force).currentParamVersion = s.currentParamVersion ∧
      (fitSaveCheckpoint cfg esi s force).applied = s.applied ∧
      (fitSaveCheckpoint cfg esi s force).received = s.received := by
  unfold fitSaveCheckpoint
  split
  · exact ⟨rfl, rfl, rfl, rfl, rfl⟩
  · grind

theorem fitStep_eq (s : State) : fitStep cfg esi s =
      { fitSaveCheckpoint cfg esi (fitUpdateWeights (fitUpdateLocalStep cfg
          { s with applied := s.applied ++ stepUpdates cfg s.globalSteps })) false with
        globalSteps := (fitSaveCheckpoint cfg esi (fitUpdateWeights (fitUpdateLocalStep cfg
          { s with applied := s.applied ++ stepUpdates cfg s.globalSteps })) false).globalSteps
            + 1 } := by
  rw [← fitUpdates_eq]
  rfl

theorem progress_step (hsave : 0 < cfg.saveFreq) (h : Progress cfg esi version first steps s) :
    Progress cfg esi version first (steps + 1) (fitStep cfg esi s) := by
  have happlied : { s with applied := s.applied ++ stepUpdates cfg s.globalSteps } =
      { s with applied := updates cfg first (steps + 1) } := by
    rw [h.applied, h.globalSteps, ← updates_succ]
  obtain ⟨hglobal, hlocal, hversion, hlast, hsaved, happ, hreceived⟩ := cycle_spec h
  obtain ⟨k, hk⟩ := h.checkpoint
  rw [fitStep_eq, happlied]
  generalize fitUpdateWeights (fitUpdateLocalStep cfg
    { s with applied := updates cfg first (steps + 1) }) = s' at *
  obtain ⟨hglobal', hlocal', hversion', happ', hreceived'⟩ :=
    fitSaveCheckpoint_frame cfg esi s' false
  obtain ⟨k', hk'⟩ := checkpointAt_step hsave (hglobal.trans h.globalSteps) hversion happ
    (⟨hk.le, hlast.trans hk.lastCkptVersion, hsaved.trans hk.saved, hk.due, hk.not_due⟩ :
      CheckpointAt cfg esi version first steps k s')
  constructor
  case globalSteps => rw [hglobal', hglobal, h.globalSteps, Nat.add_assoc]
  case localTriggerStep => exact hlocal'.trans hlocal
  case currentParamVersion => exact hversion'.trans hversion
  case applied => exact happ'.trans happ
  case received => exact hreceived'.trans hreceived
  case checkpoint => exact ⟨k', hk'.le, hk'.lastCkptVersion, hk'.saved, hk'.due, hk'.not_due⟩

theorem progress_loop (hsave : 0 < cfg.saveFreq)
    (h : Progress cfg esi version first 0 s) (steps : Nat) :
    Progress cfg esi version first steps (fitLoop cfg esi steps s) := by
  induction steps with
  | zero => exact h
  | succ steps ih => exact progress_step hsave ih

theorem progress_start (version : Option Nat) :
    Progress cfg esi (start cfg version).currentParamVersion ((start cfg version).globalSteps + 1) 0
      { start cfg version with globalSteps := (start cfg version).globalSteps + 1 } := by
  have hzero : 0 / period cfg = 0 := Nat.zero_div _
  have hcheckpoint : ∀ (version first : Nat) (s : State), s.lastCkptVersion = version →
      s.saved = [] → CheckpointAt cfg esi version first 0 0 s := by
    intro version first s hlast hsaved
    refine ⟨le_rfl, ?_, hsaved, fun _ => Or.inl rfl, ?_⟩
    · rw [hlast, hzero, Nat.add_zero]
    · omega
  cases version with
  | none =>
    refine ⟨rfl, ?_, ?_, rfl, ?_, 0, hcheckpoint _ _ _ rfl rfl⟩
    · rw [Nat.zero_mod]
      rfl
    · rw [hzero]
      rfl
    · rw [hzero, Nat.zero_mul]
      rfl
  | some version =>
    refine ⟨rfl, ?_, ?_, rfl, ?_, 0, hcheckpoint _ _ _ rfl rfl⟩
    · rw [Nat.zero_mod]
      rfl
    · rw [hzero]
      rfl
    · rw [hzero, Nat.zero_mul]
      rfl

end Progress

/-! ## The flush after the loop -/

section Flush

variable {cfg : Config} {esi : Nat → Bool}

variable {steps version k first : Nat} {s : State}

theorem flatMap_range_eq_iff {α : Type} (g : Nat → List α) (h : k ≤ steps) :
    (range k).flatMap g = (range steps).flatMap g ↔
      ∀ i, k ≤ i → i < steps → g i = [] := by
  obtain ⟨m, rfl⟩ := Nat.exists_eq_add_of_le h
  rw [range_add, flatMap_append, self_eq_append_right, flatMap_eq_nil_iff]
  constructor
  · intro hnil i hk hi
    have hmem : i ∈ (range m).map (k + ·) :=
      mem_map.mpr ⟨i - k, mem_range.mpr (by omega), by omega⟩
    exact hnil i hmem
  · grind

theorem updates_eq_iff (first : Nat) (h : k ≤ steps) :
    updates cfg first k = updates cfg first steps ↔
      ∀ i, k ≤ i → i < steps → cfg.useCritic = false ∧ first + i < cfg.criticWarmup := by
  have hstep : ∀ g, stepUpdates cfg g = [] ↔ cfg.useCritic = false ∧ g < cfg.criticWarmup := by
    simp [stepUpdates]
  unfold updates
  simp only [flatMap_range_eq_iff _ h, hstep]

theorem actorUpdates_eq_iff (first : Nat) (h : k ≤ steps) :
    (updates cfg first k).filter Update.isActor = (updates cfg first steps).filter Update.isActor ↔
      ∀ i, k ≤ i → i < steps → first + i < cfg.criticWarmup := by
  have hstep : ∀ g, (stepUpdates cfg g).filter Update.isActor = [] ↔ g < cfg.criticWarmup := by
    intro g
    unfold stepUpdates
    cases cfg.useCritic <;> by_cases hg : cfg.criticWarmup ≤ g <;> simp [hg, Update.isActor] <;>
      omega
  unfold updates
  simp only [filter_flatMap, flatMap_range_eq_iff _ h, hstep]

theorem fitUpdateWeights_progress
    (h : Progress cfg esi version first steps s) : fitUpdateWeights s = s := by
  unfold fitUpdateWeights
  split
  · rfl
  case isFalse hlocal =>
    have hmod : steps % period cfg = 0 := by
      have := h.localTriggerStep
      omega
    have hall : steps / period cfg * period cfg = steps :=
      Nat.div_mul_cancel (Nat.dvd_of_mod_eq_zero hmod)
    have hreceived : s.applied.filter Update.isActor = s.received := by
      rw [h.received, hall, h.applied]
    rw [hreceived]

theorem fit_eq {s' : State}
    (hloop : Progress cfg esi version first steps (fitLoop cfg esi steps { s with globalSteps := s.globalSteps + 1 }))
    (h : fit cfg esi steps s = .ok s') :
    s' = fitSaveCheckpoint cfg esi
      (fitLoop cfg esi steps { s with globalSteps := s.globalSteps + 1 }) true := by
  unfold fit at h
  dsimp only at h
  rw [fitUpdateWeights_progress hloop, ite_self] at h
  split at h
  · cases h
  · exact (Except.ok.inj h).symm

theorem saved_flush_iff (hsave : 0 < cfg.saveFreq)
    (h : Progress cfg esi version first steps s) (hk : CheckpointAt cfg esi version first steps k s) :
    (fitSaveCheckpoint cfg esi s true).saved = s.applied ↔
      (k / period cfg = steps / period cfg → updates cfg first k = updates cfg first steps) := by
  have hlast : s.currentParamVersion = s.lastCkptVersion ↔ k / period cfg = steps / period cfg := by
    rw [h.currentParamVersion, hk.lastCkptVersion]
    omega
  unfold fitSaveCheckpoint
  by_cases hsame : k / period cfg = steps / period cfg
  · rw [if_pos (hlast.mpr hsame), hk.saved, h.applied]
    exact ⟨fun heq _ => heq, fun heq => heq hsame⟩
  · grind

theorem not_due_iff (hk : CheckpointAt cfg esi version first steps k s) :
    (k / period cfg = steps / period cfg → k = steps) ↔
      ∀ i, steps / period cfg * period cfg ≤ i → i < steps →
        ¬SaveDue cfg esi version first i := by
  constructor
  · intro hsame i hi hlt
    refine hk.not_due i hi (Nat.le_of_lt hlt) fun heq => ?_
    rw [hsame heq]
    exact hlt
  · intro hnot hsame
    have hfrom : steps / period cfg * period cfg ≤ k :=
      (Nat.le_div_iff_mul_le period_pos).mp hsame.ge
    by_contra hne
    exact hnot k hfrom (by have := hk.le; omega) (hk.due hsame)

/-- **The flush.** -/
theorem fit_flushes_iff (cfg : Config) (esi : Nat → Bool) (version : Option Nat) (steps : Nat)
    (s : State) (hsave : 0 < cfg.saveFreq) (h : fit cfg esi steps (start cfg version) = .ok s) :
    (s.saved = s.applied ∧ s.received = s.applied.filter Update.isActor) ↔
      period cfg ∣ steps ∨
        ((start cfg version).globalSteps + steps < cfg.criticWarmup ∧
          (cfg.useCritic = true → ∀ i, steps / period cfg * period cfg ≤ i → i < steps →
            ¬SaveDue cfg esi (start cfg version).currentParamVersion
              ((start cfg version).globalSteps + 1) i)) := by
  have hloop : Progress cfg esi _ _ steps _ := progress_loop hsave (progress_start version) steps
  obtain ⟨k, hk⟩ := hloop.checkpoint
  have hs := fit_eq hloop h
  obtain ⟨-, -, -, happlied, hreceived⟩ := fitSaveCheckpoint_frame cfg esi
    (fitLoop cfg esi steps
      { start cfg version with globalSteps := (start cfg version).globalSteps + 1 }) true
  rw [hs, happlied, hreceived, saved_flush_iff hsave hloop hk, hloop.received, hloop.applied,
    actorUpdates_eq_iff _ (Nat.div_mul_le_self _ _), updates_eq_iff _ hk.le, ← not_due_iff hk]
  by_cases hdvd : period cfg ∣ steps
  · have hall : steps / period cfg * period cfg = steps := Nat.div_mul_cancel hdvd
    refine ⟨fun _ => Or.inl hdvd, fun _ => ⟨fun hsame i hi hlt => ?_, fun i hi hlt => ?_⟩⟩
    · have hfrom : steps / period cfg * period cfg ≤ k :=
        (Nat.le_div_iff_mul_le period_pos).mp hsame.ge
      omega
    · omega
  · have hrest : steps / period cfg * period cfg < steps :=
      Nat.lt_of_le_of_ne (Nat.div_mul_le_self _ _) fun hall =>
        hdvd (Dvd.intro_left _ hall)
    rw [or_iff_right hdvd]
    constructor
    · rintro ⟨hsaved, hactor⟩
      refine ⟨?_, fun hcritic hsame => ?_⟩
      · have hlast := hactor (steps - 1) (by omega) (by omega)
        omega
      · by_contra hne
        obtain ⟨hnone, -⟩ := hsaved hsame k le_rfl (by have := hk.le; omega)
        rw [hnone] at hcritic
        cases hcritic
    · grind

/-- Two cycles of two steps. -/
theorem fit_flushes_twoCycles :
    ∃ s, fit ⟨2, 1, 1, false, 0⟩ (fun _ => false) 4 (start ⟨2, 1, 1, false, 0⟩ none) = .ok s ∧
      s.saved = s.applied ∧ s.received = s.applied.filter Update.isActor :=
  ⟨_, rfl, (fit_flushes_iff ⟨2, 1, 1, false, 0⟩ (fun _ => false) none 4 _ (by decide) rfl).mpr
    (Or.inl (by decide))⟩

/-- The job ends one step into the second cycle: neither the checkpoint nor the rollouter has the
update of the last step. -/
theorem not_fit_flushes_midCycle :
    ∃ s, fit ⟨2, 1, 1, false, 0⟩ (fun _ => false) 3 (start ⟨2, 1, 1, false, 0⟩ none) = .ok s ∧
      .actor 3 ∈ s.applied ∧ .actor 3 ∉ s.saved ∧ .actor 3 ∉ s.received :=
  ⟨_, rfl, by decide, by decide, by decide⟩

end Flush

end Verl.AsyncTrainer
