import Verl.Trainer.AsyncSave

/-! # What the tracker names in runs with asynchronous saves

Every finalize function writes the tracker when its own files are written.  In a careful run they
run in the order of the steps, that of rank 0 first, and when nothing of the step is left to be
written: then the step in the tracker only gets larger, and `register_checkpoint` removes older
steps only.

* `Careful`: the condition on a call of `finalize_save_fn`.
* `Inv`: what careful runs keep; `inv_step` is its step lemma. -/

namespace Verl.AsyncSave

open StepSystem Checkpoint List

/-! ## Careful runs -/

/-- The condition on a call of `finalize_save_fn`: the rank has registered no later save; rank 0
finds the tracker closed, with no later step in it, and nothing of its own step still to be written;
on another rank the tracker has got to the step. -/
def Careful (s : State) : Action → Prop
  | .finalize part rank step =>
    (∀ m ∈ (s.manager part rank).previousSavedPaths, m < step) ∧
      if rank = 0 then
        s.fs.tracker ≠ some none ∧ (∀ n ∈ s.fs.named, n ≤ step) ∧ ∀ op ∈ s.pending, op.step ≠ step
      else ∃ n ∈ s.fs.named, step ≤ n
  | _ => True

instance (s : State) : DecidablePred (Careful s)
  | .finalize part rank step =>
    inferInstanceAs (Decidable ((∀ m ∈ (s.manager part rank).previousSavedPaths, m < step) ∧
      if rank = 0 then
        s.fs.tracker ≠ some none ∧ (∀ n ∈ s.fs.named, n ≤ step) ∧ ∀ op ∈ s.pending, op.step ≠ step
      else ∃ n ∈ s.fs.named, step ≤ n))
  | .save _ | .rank _ | .barrier | .write _ | .call _ _ | .unlink _ _ _ | .restart =>
    inferInstanceAs (Decidable True)

/-! ## The invariant -/

/-- The step in the tracker, or the one that a rank 0 is writing into it. -/
def Names (s : State) (n : Nat) : Prop :=
  s.fs.tracker = some (some n) ∨
    ∃ part rank, (s.manager part rank).finalizing = some (n, .tracker)

def Below (s : State) (m : Nat) : Prop := ∃ n, Names s n ∧ m < n

/-- The file is written, or about to be, or of a step that may be removed. -/
def Written (cfg : Config) (s : State) (step : Nat) (file : CkptFile) : Prop :=
  .openFile step file ∈ s.pending ∨ .closeFile step file ∈ s.pending ∨
    (∃ part rank, .schedule step part rank ∈ s.pending ∧
      .openFile step file ∈ asyncWrites cfg step part rank) ∨
    s.fs.file step file = .full ∨ Below s step

/-- The step is one that the job has saved and may still finalize. -/
def Started (s : State) (step : Nat) : Prop :=
  (s.plan ≠ [] ∧ step = s.globalSteps) ∨ ∃ part rank, step ∈ (s.manager part rank).requests

/-- What is known of a `finalize_save_fn`. -/
def PhaseOk (s : State) (paths : List Nat) (step : Nat) : Phase → Prop
  | .tracker => s.fs.tracker = some none ∧ ∀ m ∈ paths, m < step
  | .register => (∃ n, Names s n ∧ step ≤ n) ∧ ∀ m ∈ paths, m < step
  | .removing steps => ∀ m ∈ steps, Below s m

structure Inv (cfg : Config) (s : State) : Prop where
  plan_step : ∀ op ∈ Stages.ops s.plan, op.step = s.globalSteps
  pending_le : ∀ op ∈ s.pending, op.step ≤ s.globalSteps
  writers : ∀ op ∈ s.writers, ∀ step part rank, op ≠ .schedule step part rank
  requests_le : ∀ part rank, ∀ step ∈ (s.manager part rank).requests, step ≤ s.globalSteps
  named_le : ∀ n, Names s n → n ≤ s.globalSteps
  complete : ∀ n, Names s n → Complete cfg s.fs n
  quiet : ∀ n, Names s n → ∀ op ∈ s.pending, op.step ≠ n
  /-- One rank at a time writes the tracker. -/
  single : ∀ part rank part' rank' n n', (s.manager part rank).finalizing = some (n, .tracker) →
    (s.manager part' rank').finalizing = some (n', .tracker) → part = part' ∧ rank = rank'
  phase : ∀ part rank step phase, (s.manager part rank).finalizing = some (step, phase) →
    PhaseOk s (s.manager part rank).previousSavedPaths step phase
  written : ∀ step, Started s step → ∀ file ∈ cfg.files, Written cfg s step file

theorem Inv.names_unique {cfg : Config} {s : State} (h : Inv cfg s) {n n' : Nat}
    (hn : Names s n) (hn' : Names s n') : n = n' := by
  rcases hn with hn | ⟨part, rank, hn⟩ <;> rcases hn' with hn' | ⟨part', rank', hn'⟩
  · grind
  · rw [(h.phase _ _ _ _ hn').1] at hn
    cases hn
  · rw [(h.phase _ _ _ _ hn).1] at hn'
    cases hn'
  · obtain ⟨rfl, rfl⟩ := h.single _ _ _ _ _ _ hn hn'
    rw [hn] at hn'
    exact congrArg Prod.fst (Option.some.inj hn')

theorem inv_start {cfg : Config} {fs : FileSystem}
    (h : ∀ n, fs.tracker = some (some n) → Complete cfg fs n) :
    Inv cfg (.start fs (fs.named.getD 0)) := by
  have hnames : ∀ n, Names (.start fs (fs.named.getD 0)) n → fs.tracker = some (some n) := by
    rintro n (hn | ⟨part, rank, hn⟩)
    · exact hn
    · cases hn
  exact {
    plan_step := fun _ hop => absurd hop not_mem_nil
    pending_le := fun _ hop => absurd hop not_mem_nil
    writers := fun _ hop => absurd hop not_mem_nil
    requests_le := fun _ _ _ hstep => absurd hstep not_mem_nil
    named_le := fun n hn => by
      unfold FileSystem.named
      rw [hnames n hn]
      exact Nat.le_refl n
    complete := fun n hn => h n (hnames n hn)
    quiet := fun _ _ _ hop => absurd hop not_mem_nil
    single := fun _ _ _ _ _ _ hn => by cases hn
    phase := fun _ _ _ _ hn => by cases hn
    written := fun step hstarted => by
      rcases hstarted with ⟨hne, -⟩ | ⟨_, _, hmem⟩
      · exact absurd rfl hne
      · cases hmem }

theorem inv_initial (cfg : Config) : Inv cfg initial :=
  inv_start fun n hn => by cases hn

/-! ### Steps that leave the tracker alone -/

/-- The steps that are named, and all that is known of them, are the same. -/
structure SameNames (s s' : State) : Prop where
  names : ∀ n, Names s' n ↔ Names s n
  tracker : s'.fs.tracker = s.fs.tracker

theorem SameNames.below {s s' : State} (h : SameNames s s') {m : Nat} (hm : Below s m) :
    Below s' m := by
  obtain ⟨n, hn, hlt⟩ := hm
  exact ⟨n, (h.names n).2 hn, hlt⟩

theorem SameNames.phaseOk {s s' : State} (h : SameNames s s') {paths : List Nat} {step : Nat}
    {phase : Phase} (hok : PhaseOk s paths step phase) : PhaseOk s' paths step phase := by
  cases phase with
  | tracker => exact ⟨h.tracker.trans hok.1, hok.2⟩
  | register =>
    obtain ⟨⟨n, hn, hle⟩, hpaths⟩ := hok
    exact ⟨⟨n, (h.names n).2 hn, hle⟩, hpaths⟩
  | removing steps => exact fun m hm => h.below (hok m hm)

/-- All but the requests of the managers is as it was. -/
structure SameManagers (s s' : State) : Prop where
  finalizing : ∀ part rank, (s'.manager part rank).finalizing = (s.manager part rank).finalizing
  paths : ∀ part rank,
    (s'.manager part rank).previousSavedPaths = (s.manager part rank).previousSavedPaths
  tracker : s'.fs.tracker = s.fs.tracker

theorem SameManagers.sameNames {s s' : State} (h : SameManagers s s') : SameNames s s' where
  names n := by
    unfold Names
    simp only [h.finalizing, h.tracker]
  tracker := h.tracker

theorem Inv.of_managers {cfg : Config} {s s' : State} (h : Inv cfg s) (hsame : SameManagers s s')
    (hsteps : s.globalSteps ≤ s'.globalSteps)
    (hrequests : ∀ part rank, ∀ step ∈ (s'.manager part rank).requests, step ≤ s'.globalSteps)
    (hfile : ∀ n, Names s n → s'.fs.file n = s.fs.file n)
    (hplan : ∀ op ∈ Stages.ops s'.plan, op.step = s'.globalSteps)
    (hpending : ∀ op ∈ s'.pending, op.step ≤ s'.globalSteps ∧ ∀ n, Names s n → op.step ≠ n)
    (hwriters : ∀ op ∈ s'.writers, ∀ step part rank, op ≠ .schedule step part rank)
    (hwritten : ∀ step, Started s' step → ∀ file ∈ cfg.files, Written cfg s' step file) :
    Inv cfg s' := by
  have hnames := hsame.sameNames
  exact {
    plan_step := hplan
    pending_le := fun op hop => (hpending op hop).1
    writers := hwriters
    requests_le := hrequests
    named_le := fun n hn => (h.named_le n ((hnames.names n).1 hn)).trans hsteps
    complete := fun n hn file hmem => by
      rw [hfile n ((hnames.names n).1 hn)]
      exact h.complete n ((hnames.names n).1 hn) file hmem
    quiet := fun n hn op hop => (hpending op hop).2 n ((hnames.names n).1 hn)
    single := by
      simp only [hsame.finalizing]
      exact h.single
    phase := fun part rank step phase hphase => by
      rw [hsame.finalizing] at hphase
      rw [hsame.paths]
      exact hnames.phaseOk (h.phase part rank step phase hphase)
    written := hwritten }

/-! ### Operations on files -/

theorem Op.effect_tracker (op : Op) (fs : FileSystem) : (op.effect fs).tracker = fs.tracker := by
  cases op <;> rfl

theorem Op.effect_file {op : Op} {n : Nat} (hn : op.step ≠ n) (fs : FileSystem) :
    (op.effect fs).file n = fs.file n := by
  funext file
  cases op with
  | openFile step file' => exact if_neg fun h => hn h.1.symm
  | closeFile step file' => exact if_neg fun h => hn h.1.symm
  | schedule step part rank => rfl

theorem Op.more_step {op : Op} : ∀ x ∈ op.more, x.step = op.step := by
  intro x hx
  cases op with
  | openFile step file =>
    rw [mem_singleton.1 hx]
    rfl
  | closeFile | schedule => cases hx

theorem Op.more_ne_schedule {op : Op} : ∀ x ∈ op.more, ∀ step part rank,
    x ≠ .schedule step part rank := by
  intro x hx step part rank heq
  cases op with
  | openFile =>
    rw [mem_singleton.1 hx] at heq
    cases heq
  | closeFile | schedule => cases hx

/-- A file stays written, unless it is opened again. -/
theorem Op.effect_full (op : Op) {fs : FileSystem} {step : Nat} {file : CkptFile}
    (h : fs.file step file = .full) :
    (op.effect fs).file step file = .full ∨ .closeFile step file ∈ op.more := by
  cases op with
  | openFile step' file' =>
    by_cases hsame : step = step' ∧ file = file'
    · obtain ⟨rfl, rfl⟩ := hsame
      exact .inr (mem_singleton_self _)
    · exact .inl ((if_neg hsame).trans h)
  | closeFile step' file' =>
    refine .inl ?_
    by_cases hsame : step = step' ∧ file = file'
    · exact if_pos hsame
    · exact (if_neg hsame).trans h
  | schedule => exact .inl h

/-- An operation leaves what has to be written written. -/
theorem Written.op {cfg : Config} {s s' : State} (op : Op) (hfs : s'.fs = op.effect s.fs)
    (hbelow : ∀ m, Below s m → Below s' m) (hothers : ∀ x ∈ s.pending, x = op ∨ x ∈ s'.pending)
    (hmore : ∀ x ∈ op.more, x ∈ s'.pending)
    (hwriters : ∀ step part rank, op = .schedule step part rank → ∀ x ∈ asyncWrites cfg step part rank, x ∈ s'.pending)
    {step : Nat} {file : CkptFile} (h : Written cfg s step file) : Written cfg s' step file := by
  rcases h with hopen | hclose | ⟨part, rank, hschedule, hwrite⟩ | hfull | hold
  · rcases hothers _ hopen with rfl | hopen
    · exact .inr (.inl (hmore _ (mem_singleton_self _)))
    · exact .inl hopen
  · rcases hothers _ hclose with rfl | hclose
    · refine .inr (.inr (.inr (.inl ?_)))
      rw [hfs]
      exact if_pos ⟨rfl, rfl⟩
    · exact .inr (.inl hclose)
  · rcases hothers _ hschedule with rfl | hschedule
    · exact .inl (hwriters step part rank rfl _ hwrite)
    · exact .inr (.inr (.inl ⟨part, rank, hschedule, hwrite⟩))
  · rcases op.effect_full hfull with hfull | hclose
    · refine .inr (.inr (.inr (.inl ?_)))
      rw [hfs]
      exact hfull
    · exact .inr (.inl (hmore _ hclose))
  · exact .inr (.inr (.inr (.inr (hbelow _ hold))))

theorem SameNames.written {cfg : Config} {s s' : State} (h : SameNames s s')
    (hpending : s'.pending = s.pending) (hfs : s'.fs = s.fs) {step : Nat} {file : CkptFile}
    (hw : Written cfg s step file) : Written cfg s' step file := by
  unfold Written at ⊢
  rw [hpending, hfs]
  rcases hw with hw | hw | hw | hw | hw
  · exact .inl hw
  · exact .inr (.inl hw)
  · exact .inr (.inr (.inl hw))
  · exact .inr (.inr (.inr (.inl hw)))
  · exact .inr (.inr (.inr (.inr (h.below hw))))

/-! ### The steps of a save -/

theorem mem_ops_savePlan {cfg : Config} {step : Nat} {op : Op} :
    op ∈ Stages.ops (savePlan cfg step) ↔
      (∃ part ∈ cfg.parts, ∃ rank < (cfg.group part).worldSize,
        (∃ name ∈ (cfg.group part).callFiles rank, op = .openFile step (.saved part name)) ∨
          op = .schedule step part rank) ∨ op = .openFile step .data := by
  unfold savePlan managerStage
  simp only [Stages.mem_ops, mem_append, mem_map, mem_singleton]
  constructor
  · grind
  · rintro (⟨part, hpart, rank, hrank, hop⟩ | rfl)
    · refine ⟨_, .inl ⟨part, hpart, rfl⟩, _, mem_map_of_mem (mem_range.2 hrank), ?_⟩
      rcases hop with ⟨name, hname, rfl⟩ | rfl
      · exact mem_append_left _ (mem_map_of_mem hname)
      · exact mem_append_right _ (mem_singleton_self _)
    · exact ⟨_, .inr rfl, _, mem_singleton_self _, mem_singleton_self _⟩

/-- All files of a step are in its plan. -/
theorem written_savePlan {cfg : Config} {s : State} {step : Nat}
    (hplan : s.plan = savePlan cfg step) {file : CkptFile} (hfile : file ∈ cfg.files) :
    Written cfg s step file := by
  have hpending : ∀ op ∈ Stages.ops (savePlan cfg step), op ∈ s.pending := fun op hop => by
    unfold State.pending
    rw [hplan]
    exact mem_append_left _ hop
  rcases mem_append.1 hfile with hsaved | hdata
  · obtain ⟨part, hpart, hranks⟩ := mem_flatMap.1 hsaved
    obtain ⟨rank, hrank, hname⟩ := mem_flatMap.1 hranks
    obtain ⟨name, hwritten, rfl⟩ := mem_map.1 hname
    rcases mem_append.1 hwritten with hcall | hasync
    · exact .inl (hpending _ (mem_ops_savePlan.2 (.inl ⟨part, hpart, rank, mem_range.1 hrank,
        .inl ⟨name, hcall, rfl⟩⟩)))
    · exact .inr (.inr (.inl ⟨part, rank, hpending _ (mem_ops_savePlan.2 (.inl ⟨part, hpart, rank,
        mem_range.1 hrank, .inr rfl⟩)), mem_map_of_mem hasync⟩))
  · rw [mem_singleton.1 hdata]
    exact .inl (hpending _ (mem_ops_savePlan.2 (.inr rfl)))

theorem inv_save {cfg : Config} {s : State} (h : Inv cfg s) {step : Nat} (hidle : s.plan = [])
    (hlt : s.globalSteps < step) :
    Inv cfg { s with plan := savePlan cfg step, globalSteps := step } := by
  have hstep : ∀ op ∈ Stages.ops (savePlan cfg step), op.step = step := by
    intro op hop
    rcases mem_ops_savePlan.1 hop with ⟨part, -, rank, -, ⟨name, -, rfl⟩ | rfl⟩ | rfl
    · rfl
    · rfl
    · rfl
  have hold : ∀ op ∈ s.writers, op ∈ s.pending := fun op hop => mem_append_right _ hop
  refine h.of_managers ⟨fun _ _ => rfl, fun _ _ => rfl, rfl⟩ hlt.le
    (fun part rank n hn => (h.requests_le part rank n hn).trans hlt.le) (fun _ _ => rfl) hstep
    (fun op hop => ?_) h.writers fun n hn file hfile => ?_
  · rcases mem_append.1 hop with hop | hop
    · refine ⟨(hstep op hop).le, fun n hn heq => ?_⟩
      have hle := h.named_le n hn
      rw [hstep op hop] at heq
      omega
    · exact ⟨(h.pending_le op (hold op hop)).trans hlt.le, fun n hn =>
        h.quiet n hn op (hold op hop)⟩
  · rcases hn with ⟨-, rfl⟩ | hrequest
    · exact written_savePlan rfl hfile
    · have hw := h.written n (.inr hrequest) file hfile
      have hmem : ∀ op ∈ s.pending, op ∈ Stages.ops (savePlan cfg step) ++ s.writers := by
        intro op hop
        unfold State.pending at hop
        rw [hidle] at hop
        exact mem_append_right _ hop
      rcases hw with hw | hw | ⟨part, rank, hschedule, hwrite⟩ | hw | hw
      · exact .inl (hmem _ hw)
      · exact .inr (.inl (hmem _ hw))
      · exact .inr (.inr (.inl ⟨part, rank, hmem _ hschedule, hwrite⟩))
      · exact .inr (.inr (.inr (.inl hw)))
      · exact .inr (.inr (.inr (.inr hw)))

theorem inv_barrier {cfg : Config} {s : State} (h : Inv cfg s) (hat : Stages.AtBarrier s.plan) :
    Inv cfg { s with plan := s.plan.tail } := by
  have hops := Stages.ops_tail hat
  have hpending : ({ s with plan := s.plan.tail } : State).pending = s.pending :=
    congrArg (· ++ s.writers) hops
  have hsame : SameManagers s { s with plan := s.plan.tail } :=
    ⟨fun _ _ => rfl, fun _ _ => rfl, rfl⟩
  refine h.of_managers hsame (Nat.le_refl _) h.requests_le (fun _ _ => rfl) ?_ ?_ h.writers
    fun step hstep file hfile => ?_
  · rw [show Stages.ops s.plan.tail = _ from hops]
    exact h.plan_step
  · rw [hpending]
    exact fun op hop => ⟨h.pending_le op hop, fun n hn => h.quiet n hn op hop⟩
  · refine hsame.sameNames.written hpending rfl (h.written step ?_ file hfile)
    rcases hstep with ⟨hne, rfl⟩ | hrequest
    · refine .inl ⟨fun hnil => hne ?_, rfl⟩
      rw [hnil]
      rfl
    · exact .inr hrequest

theorem inv_write {cfg : Config} {s : State} (h : Inv cfg s) {op : Op} (hop : op ∈ s.writers) :
    Inv cfg { s with fs := op.effect s.fs, writers := s.writers.erase op ++ op.more } := by
  have hmem : op ∈ s.pending := mem_append_right _ hop
  have hsame : SameManagers s
      { s with fs := op.effect s.fs, writers := s.writers.erase op ++ op.more } :=
    ⟨fun _ _ => rfl, fun _ _ => rfl, op.effect_tracker s.fs⟩
  refine h.of_managers hsame (Nat.le_refl _) h.requests_le
    (fun n hn => Op.effect_file (h.quiet n hn op hmem) s.fs) h.plan_step (fun x hx => ?_)
    (fun x hx => ?_) fun step hstep file hfile => ?_
  · have hold : x ∈ s.pending ∨ x ∈ op.more := by
      rcases mem_append.1 hx with hx | hx
      · exact .inl (mem_append_left _ hx)
      · rcases mem_append.1 hx with hx | hx
        · exact .inl (mem_append_right _ (mem_of_mem_erase hx))
        · exact .inr hx
    rcases hold with hold | hmore
    · exact ⟨h.pending_le x hold, fun n hn => h.quiet n hn x hold⟩
    · rw [Op.more_step x hmore]
      exact ⟨h.pending_le op hmem, fun n hn => h.quiet n hn op hmem⟩
  · rcases mem_append.1 hx with hx | hx
    · exact h.writers x (mem_of_mem_erase hx)
    · exact Op.more_ne_schedule x hx
  · refine (h.written step hstep file hfile).op op rfl (fun m hm => hsame.sameNames.below hm)
      (fun x hx => ?_) (fun x hx => ?_) fun n part rank heq => absurd heq (h.writers op hop n part rank)
    · rcases mem_append.1 hx with hx | hx
      · exact .inr (mem_append_left _ hx)
      · by_cases heq : x = op
        · exact .inl heq
        · exact .inr (mem_append_right _ (mem_append_left _
            ((mem_erase_of_ne heq).2 hx)))
    · exact mem_append_right _ (mem_append_right _ hx)

/-- What a rank of a worker group leaves as it is. -/
theorem callOp_sameManagers (cfg : Config) (s : State) (i : Nat) (op : Op) :
    SameManagers s (callOp cfg s i op) := by
  cases op with
  | openFile | closeFile => exact ⟨fun _ _ => rfl, fun _ _ => rfl, rfl⟩
  | schedule step part rank =>
    have hself : ∀ p r, (callOp cfg s i (.schedule step part rank)).manager p r =
        if p = part ∧ r = rank then
          { s.manager part rank with requests := (s.manager part rank).requests ++ [step] }
        else s.manager p r := fun _ _ => rfl
    refine ⟨fun p r => ?_, fun p r => ?_, rfl⟩
    · grind
    · grind

/-- The writes that an operation adds. -/
def newWrites (cfg : Config) : Op → List Op
  | .schedule step part rank => asyncWrites cfg step part rank
  | _ => []

theorem callOp_writers (cfg : Config) (s : State) (i : Nat) (op : Op) :
    (callOp cfg s i op).writers = s.writers ++ newWrites cfg op := by
  cases op with
  | openFile | closeFile => exact (append_nil _).symm
  | schedule => rfl

theorem callOp_plan (cfg : Config) (s : State) (i : Nat) (op : Op) :
    (callOp cfg s i op).plan = Stages.advance Op.more s.plan i ∧
      (callOp cfg s i op).fs = op.effect s.fs ∧
      (callOp cfg s i op).globalSteps = s.globalSteps := by
  cases op with
  | openFile | closeFile | schedule => exact ⟨rfl, rfl, rfl⟩

theorem of_mem_newWrites {cfg : Config} {op : Op} : ∀ x ∈ newWrites cfg op,
    x.step = op.step ∧ ∀ step part rank, x ≠ .schedule step part rank := by
  intro x hx
  cases op with
  | openFile | closeFile => cases hx
  | schedule step part rank =>
    obtain ⟨name, -, rfl⟩ := mem_map.1 hx
    exact ⟨rfl, fun _ _ _ heq => by cases heq⟩

theorem of_mem_requests_callOp {cfg : Config} {s : State} {i : Nat} {op : Op} {part : Part}
    {rank step : Nat} (h : step ∈ ((callOp cfg s i op).manager part rank).requests) :
    step ∈ (s.manager part rank).requests ∨ step = op.step := by
  cases op with
  | openFile | closeFile => exact .inl h
  | schedule step' part' rank' =>
    have hself : (callOp cfg s i (.schedule step' part' rank')).manager part rank =
        if part = part' ∧ rank = rank' then
          { s.manager part' rank' with requests := (s.manager part' rank').requests ++ [step'] }
        else s.manager part rank := rfl
    rw [hself] at h
    split at h
    · next hpr =>
      rcases mem_append.1 h with h | h
      · grind
      · exact .inr (mem_singleton.1 h)
    · exact .inl h

theorem inv_rank {cfg : Config} {s : State} (h : Inv cfg s) {i : Nat} {op : Op}
    (hop : Stages.next? s.plan i = some op) : Inv cfg (callOp cfg s i op) := by
  have hops := Stages.mem_of_next? hop
  have hmem : op ∈ s.pending := mem_append_left _ hops
  have hsame := callOp_sameManagers cfg s i op
  obtain ⟨hplan, hfs, hsteps⟩ := callOp_plan cfg s i op
  have hwriters := callOp_writers cfg s i op
  have hpending : (callOp cfg s i op).pending =
      Stages.ops (Stages.advance Op.more s.plan i) ++ (s.writers ++ newWrites cfg op) := by
    unfold State.pending
    rw [hplan, hwriters]
  refine h.of_managers hsame hsteps.ge (fun part rank step hstep => ?_) (fun n hn => ?_)
    (fun x hx => ?_) (fun x hx => ?_) (fun x hx => ?_) fun step hstep file hfile => ?_
  · rw [hsteps]
    rcases of_mem_requests_callOp hstep with hstep | rfl
    · exact h.requests_le part rank step hstep
    · exact h.pending_le op hmem
  · rw [hfs]
    exact Op.effect_file (h.quiet n hn op hmem) s.fs
  · rw [hplan] at hx
    rw [hsteps]
    rcases Stages.mem_of_mem_advance hop hx with hx | hx
    · rw [Op.more_step x hx]
      exact h.plan_step op hops
    · exact h.plan_step x hx
  · rw [hpending] at hx
    rw [hsteps]
    have hold : x ∈ s.pending ∨ x.step = op.step := by
      rcases mem_append.1 hx with hx | hx
      · rcases Stages.mem_of_mem_advance hop hx with hx | hx
        · exact .inr (Op.more_step x hx)
        · exact .inl (mem_append_left _ hx)
      · rcases mem_append.1 hx with hx | hx
        · exact .inl (mem_append_right _ hx)
        · exact .inr (of_mem_newWrites x hx).1
    rcases hold with hold | hself
    · exact ⟨h.pending_le x hold, fun n hn => h.quiet n hn x hold⟩
    · rw [hself]
      exact ⟨h.pending_le op hmem, fun n hn => h.quiet n hn op hmem⟩
  · rw [hwriters] at hx
    rcases mem_append.1 hx with hx | hx
    · exact h.writers x hx
    · exact (of_mem_newWrites x hx).2
  · have hstarted : Started s step := by
      rcases hstep with ⟨-, rfl⟩ | ⟨part, rank, hrequest⟩
      · exact .inl ⟨Stages.ne_nil_of_next? hop, hsteps⟩
      · rcases of_mem_requests_callOp hrequest with hrequest | rfl
        · exact .inr ⟨part, rank, hrequest⟩
        · exact .inl ⟨Stages.ne_nil_of_next? hop, h.plan_step op hops⟩
    refine (h.written step hstarted file hfile).op op hfs
      (fun m hm => hsame.sameNames.below hm) (fun x hx => ?_) (fun x hx => ?_)
      fun n part rank heq x hx => ?_
    · rw [hpending]
      rcases mem_append.1 hx with hx | hx
      · rcases Stages.mem_advance_of_mem Op.more hop hx with rfl | hx
        · exact .inl rfl
        · exact .inr (mem_append_left _ hx)
      · exact .inr (mem_append_right _ (mem_append_left _ hx))
    · rw [hpending]
      exact mem_append_left _ (Stages.mem_advance_of_mem_more hop hx)
    · rw [heq]
      exact mem_append_right _ (mem_append_right _ hx)

/-! ### The steps of a finalize function -/

@[simp] theorem setManager_self (s : State) (part : Part) (rank : Nat) (m : Manager) :
    (s.setManager part rank m).manager part rank = m := if_pos ⟨rfl, rfl⟩

/-- What is known of a finalize function when the named step gets larger. -/
theorem PhaseOk.up {s s' : State} (hup : ∀ n, Names s n → ∃ n', Names s' n' ∧ n ≤ n')
    {paths : List Nat} {step : Nat} {phase : Phase}
    (htracker : phase = .tracker → s'.fs.tracker = s.fs.tracker)
    (h : PhaseOk s paths step phase) : PhaseOk s' paths step phase := by
  cases phase with
  | tracker => exact ⟨(htracker rfl).trans h.1, h.2⟩
  | register =>
    obtain ⟨⟨n, hn, hle⟩, hpaths⟩ := h
    obtain ⟨n', hn', hle'⟩ := hup n hn
    exact ⟨⟨n', hn', hle.trans hle'⟩, hpaths⟩
  | removing steps =>
    intro m hm
    obtain ⟨n, hn, hlt⟩ := h m hm
    obtain ⟨n', hn', hle⟩ := hup n hn
    exact ⟨n', hn', hlt.trans_le hle⟩

/-- A step of a finalize function: the manager of the rank, and the tracker. -/
def State.finalizeStep (s : State) (part : Part) (rank : Nat) (m : Manager)
    (tracker : Option (Option Nat)) : State :=
  { s.setManager part rank m with fs := { s.fs with tracker := tracker } }

theorem finalizeStep_manager (s : State) (part : Part) (rank : Nat) (m : Manager)
    (tracker : Option (Option Nat)) (p : Part) (r : Nat) :
    (s.finalizeStep part rank m tracker).manager p r =
      if p = part ∧ r = rank then m else s.manager p r := rfl

/-- It may make the named step larger. -/
theorem Inv.finalizeStep {cfg : Config} {s : State} (h : Inv cfg s) {part : Part} {rank : Nat}
    {m : Manager} {tracker : Option (Option Nat)}
    (hrequests : m.requests ⊆ (s.manager part rank).requests)
    (hup : ∀ n, Names s n → ∃ n', Names (s.finalizeStep part rank m tracker) n' ∧ n ≤ n')
    (hnames : ∀ n, Names (s.finalizeStep part rank m tracker) n →
      n ≤ s.globalSteps ∧ Complete cfg s.fs n ∧ ∀ op ∈ s.pending, op.step ≠ n)
    (hself : ∀ step phase, m.finalizing = some (step, phase) →
      PhaseOk (s.finalizeStep part rank m tracker) m.previousSavedPaths step phase)
    (hothers : (tracker = s.fs.tracker ∧ ∀ n, m.finalizing ≠ some (n, .tracker)) ∨
      ∀ p r n, ¬(p = part ∧ r = rank) → (s.manager p r).finalizing ≠ some (n, .tracker)) :
    Inv cfg (s.finalizeStep part rank m tracker) where
  plan_step := h.plan_step
  pending_le := h.pending_le
  writers := h.writers
  requests_le p r step hstep := by
    rw [finalizeStep_manager] at hstep
    split at hstep
    · exact h.requests_le part rank step (hrequests hstep)
    · exact h.requests_le p r step hstep
  named_le n hn := (hnames n hn).1
  complete n hn := (hnames n hn).2.1
  quiet n hn := (hnames n hn).2.2
  single p r p' r' n n' hp hp' := by
    rw [finalizeStep_manager] at hp hp'
    split at hp
    · grind
    · next hne =>
      split at hp'
      · grind
      · exact h.single p r p' r' n n' hp hp'
  phase p r step phase hphase := by
    rw [finalizeStep_manager] at hphase ⊢
    split at hphase
    · grind
    · next hne =>
      rw [if_neg hne]
      refine (h.phase p r step phase hphase).up hup fun hwriter => ?_
      rcases hothers with ⟨htracker, -⟩ | hno
      · exact htracker
      · grind
  written step hstep file hmem := by
    have hstarted : Started s step := by
      rcases hstep with hlast | ⟨p, r, hrequest⟩
      · exact .inl hlast
      · rw [finalizeStep_manager] at hrequest
        split at hrequest
        · exact .inr ⟨part, rank, hrequests hrequest⟩
        · exact .inr ⟨p, r, hrequest⟩
    rcases h.written step hstarted file hmem with hw | hw | hw | hw | ⟨n, hn, hlt⟩
    · exact .inl hw
    · exact .inr (.inl hw)
    · exact .inr (.inr (.inl hw))
    · exact .inr (.inr (.inr (.inl hw)))
    · obtain ⟨n', hn', hle⟩ := hup n hn
      exact .inr (.inr (.inr (.inr ⟨n', hn', hlt.trans_le hle⟩)))

/-- A step that neither opens nor closes the tracker names the same. -/
theorem names_finalizeStep {s : State} {part : Part} {rank : Nat} {m : Manager}
    (hbefore : ∀ n, (s.manager part rank).finalizing ≠ some (n, .tracker))
    (hafter : ∀ n, m.finalizing ≠ some (n, .tracker)) (n : Nat) :
    Names (s.finalizeStep part rank m s.fs.tracker) n ↔ Names s n := by
  have hwriter : ∀ p r, ((s.finalizeStep part rank m s.fs.tracker).manager p r).finalizing =
      some (n, .tracker) ↔ (s.manager p r).finalizing = some (n, .tracker) := by
    intro p r
    rw [finalizeStep_manager]
    split
    · grind
    · exact Iff.rfl
  unfold Names
  simp only [hwriter]
  exact Iff.rfl

/-- As `Inv.finalizeStep`, for such a step. -/
theorem Inv.finalizeStep_same {cfg : Config} {s : State} (h : Inv cfg s) {part : Part} {rank : Nat}
    {m : Manager} (hrequests : m.requests ⊆ (s.manager part rank).requests)
    (hbefore : ∀ n, (s.manager part rank).finalizing ≠ some (n, .tracker))
    (hafter : ∀ n, m.finalizing ≠ some (n, .tracker))
    (hself : ∀ step phase, m.finalizing = some (step, phase) →
      PhaseOk s m.previousSavedPaths step phase) :
    Inv cfg (s.finalizeStep part rank m s.fs.tracker) := by
  have hnames := names_finalizeStep hbefore hafter
  have hup : ∀ n, Names s n → ∃ n', Names (s.finalizeStep part rank m s.fs.tracker) n' ∧ n ≤ n' :=
    fun n hn => ⟨n, (hnames n).2 hn, Nat.le_refl n⟩
  refine h.finalizeStep hrequests hup (fun n hn => ?_) (fun step phase hphase => ?_)
    (.inl ⟨rfl, hafter⟩)
  · rw [hnames] at hn
    exact ⟨h.named_le n hn, h.complete n hn, h.quiet n hn⟩
  · exact (hself step phase hphase).up hup fun _ => rfl

/-- When nothing of a step is left to be written and no later step is named, it is complete. -/
theorem Inv.complete_of_request {cfg : Config} {s : State} (h : Inv cfg s) {part : Part}
    {rank step : Nat} (hrequest : step ∈ (s.manager part rank).requests)
    (hclosed : s.fs.tracker ≠ some none) (hlast : ∀ n ∈ s.fs.named, n ≤ step)
    (hdone : ∀ op ∈ s.pending, op.step ≠ step) : Complete cfg s.fs step := by
  intro file hfile
  rcases h.written step (.inr ⟨part, rank, hrequest⟩) file hfile with hw | hw | hw | hw | hw
  · exact absurd rfl (hdone _ hw)
  · exact absurd rfl (hdone _ hw)
  · obtain ⟨p, r, hw, -⟩ := hw
    exact absurd rfl (hdone _ hw)
  · exact hw
  · obtain ⟨n, hn | ⟨p, r, hn⟩, hlt⟩ := hw
    · have hle := hlast n (by
        unfold FileSystem.named
        rw [hn]
        rfl)
      omega
    · exact absurd (h.phase _ _ _ _ hn).1 hclosed

theorem named_of_tracker {fs : FileSystem} {n : Nat} (h : fs.tracker = some (some n)) :
    n ∈ fs.named := by
  unfold FileSystem.named
  rw [h]
  rfl

theorem inv_finalize {cfg : Config} {s : State} (h : Inv cfg s) {part : Part} {rank step : Nat}
    (hrequest : step ∈ (s.manager part rank).requests)
    (hidle : (s.manager part rank).finalizing = none)
    (hcareful : Careful s (.finalize part rank step)) :
    Inv cfg (finalizeSaveFn s part rank step) := by
  obtain ⟨hpaths, hcareful⟩ := hcareful
  have hbefore : ∀ n, (s.manager part rank).finalizing ≠ some (n, .tracker) := fun n hn => by
    rw [hidle] at hn
    cases hn
  unfold finalizeSaveFn
  split at hcareful
  · next hzero =>
    subst hzero
    obtain ⟨hclosed, hlast, hdone⟩ := hcareful
    have hno : ∀ p r n, (s.manager p r).finalizing ≠ some (n, .tracker) := fun p r n hn =>
      hclosed (h.phase p r n _ hn).1
    refine h.finalizeStep erase_subset (fun n hn => ?_) (fun n hn => ?_)
      (fun n phase hphase => ?_) (.inr fun p r n _ => hno p r n)
    · refine ⟨step, .inr ⟨part, 0, ?_⟩, ?_⟩
      · rw [finalizeStep_manager, if_pos ⟨rfl, rfl⟩]
      · rcases hn with hn | ⟨p, r, hn⟩
        · exact hlast n (named_of_tracker hn)
        · exact absurd hn (hno p r n)
    · have heq : n = step := by
        rcases hn with hn | ⟨p, r, hn⟩
        · cases hn
        · rw [finalizeStep_manager] at hn
          split at hn
          · cases hn
            rfl
          · exact absurd hn (hno p r n)
      subst heq
      exact ⟨h.requests_le part 0 n hrequest, h.complete_of_request hrequest hclosed hlast hdone,
        hdone⟩
    · cases hphase
      exact ⟨rfl, hpaths⟩
  · next hrank =>
    obtain ⟨n, hn, hle⟩ := hcareful
    rw [if_neg hrank]
    refine h.finalizeStep_same erase_subset hbefore (fun n hn => by cases hn)
      fun n phase hphase => ?_
    cases hphase
    refine ⟨⟨n, .inl ?_, hle⟩, hpaths⟩
    exact Option.join_eq_some_iff.1 hn

theorem inv_call {cfg : Config} (job : JobConfig) {s : State} (h : Inv cfg s) (part : Part)
    (rank : Nat) : Inv cfg (finalizeOp job s part rank) := by
  have hself := h.phase part rank
  unfold finalizeOp
  dsimp only
  split
  · next step hphase =>
    have hwriter : ∀ p r n, (s.manager p r).finalizing = some (n, .tracker) →
        p = part ∧ r = rank := fun p r n hn => h.single p r part rank n step hn hphase
    have hname : Names s step := .inr ⟨part, rank, hphase⟩
    refine h.finalizeStep (fun _ hx => hx) (fun n hn => ⟨step, .inl rfl, ?_⟩) (fun n hn => ?_)
      (fun n phase hn => ?_) (.inr fun p r n hne hn => hne (hwriter p r n hn))
    · rw [h.names_unique hn hname]
    · have heq : n = step := by
        rcases hn with hn | ⟨p, r, hn⟩
        · cases hn
          rfl
        · rw [finalizeStep_manager] at hn
          split at hn
          · cases hn
          · next hne => exact absurd (hwriter p r n hn) hne
      subst heq
      exact ⟨h.named_le n hname, h.complete n hname, h.quiet n hname⟩
    · cases hn
      exact ⟨⟨step, .inl rfl, Nat.le_refl step⟩, (hself _ _ hphase).2⟩
  · next step hphase =>
    obtain ⟨⟨n, hn, hle⟩, hpaths⟩ := hself _ _ hphase
    obtain ⟨kept, -, hsplit, -⟩ := registerCheckpoint_kept step (job.maxCkptToKeep part)
      (s.manager part rank).previousSavedPaths
    refine h.finalizeStep_same (fun _ hx => hx) (fun n hn => ?_) (fun n hn => by cases hn)
      fun step' phase hphase' => ?_
    · grind
    · cases hphase'
      intro m hm
      have hmem : m ∈ (s.manager part rank).previousSavedPaths := by grind
      exact ⟨n, hn, (hpaths m hmem).trans_le hle⟩
  · next step m steps hphase =>
    refine h.finalizeStep_same (fun _ hx => hx) (fun n hn => ?_) (fun n hn => by cases hn)
      fun step' phase hphase' => ?_
    · grind
    · cases hphase'
      exact fun m' hm' => hself _ _ hphase m' (mem_cons_of_mem _ hm')
  · next step hphase =>
    refine h.finalizeStep_same (fun _ hx => hx) (fun n hn => ?_) (fun n hn => by cases hn)
      fun step' phase hphase' => by cases hphase'
    rw [hphase] at hn
    cases hn
  · exact h

/-- What a finalize function removes is before the named step. -/
theorem inv_unlink {cfg : Config} {s : State} (h : Inv cfg s) {part : Part} {rank step : Nat}
    (hrm : s.removing? part rank = some step) (file : CkptFile) :
    Inv cfg { s with fs := s.fs.setFile step file .absent } := by
  have hbelow : Below s step := by
    unfold State.removing? at hrm
    split at hrm
    · next steps hphase =>
      cases hrm
      exact h.phase part rank _ _ hphase step mem_cons_self
    · cases hrm
  have hsame : SameManagers s { s with fs := s.fs.setFile step file .absent } :=
    ⟨fun _ _ => rfl, fun _ _ => rfl, rfl⟩
  refine h.of_managers hsame (Nat.le_refl _) h.requests_le (fun n hn => ?_) h.plan_step
    (fun op hop => ⟨h.pending_le op hop, fun n hn => h.quiet n hn op hop⟩) h.writers
    fun m hm file' hfile => ?_
  · obtain ⟨n', hn', hlt⟩ := hbelow
    have heq := h.names_unique hn hn'
    funext file'
    exact if_neg fun hself => by omega
  · by_cases heq : m = step
    · rw [heq]
      exact .inr (.inr (.inr (.inr (hsame.sameNames.below hbelow))))
    · have hfull : (s.fs.setFile step file .absent).file m file' = s.fs.file m file' :=
        if_neg fun hself => heq hself.1
      rcases h.written m hm file' hfile with hw | hw | hw | hw | hw
      · exact .inl hw
      · exact .inr (.inl hw)
      · exact .inr (.inr (.inl hw))
      · exact .inr (.inr (.inr (.inl (hfull.trans hw))))
      · exact .inr (.inr (.inr (.inr (hsame.sameNames.below hw))))

theorem inv_step {cfg : Config} {job : JobConfig} (s : State) (a : Action) (h : Inv cfg s)
    (hg : (trainer cfg job a).guard s) (hc : Careful s a) :
    Inv cfg ((trainer cfg job a).effect s) := by
  cases a with
  | save step => exact inv_save h hg.1 hg.2
  | rank i =>
    obtain ⟨op, hop⟩ := Option.isSome_iff_exists.mp hg
    have heq : (trainer cfg job (.rank i)).effect s = callOp cfg s i op := by
      simp only [trainer, hop]
    rw [heq]
    exact inv_rank h hop
  | barrier => exact inv_barrier h hg
  | write op => exact inv_write h hg
  | finalize part rank step => exact inv_finalize h hg.1 hg.2.1 hc
  | call part rank => exact inv_call job h part rank
  | unlink part rank name =>
    obtain ⟨step, hstep⟩ := Option.isSome_iff_exists.mp hg
    have heq : (trainer cfg job (.unlink part rank name)).effect s =
        { s with fs := s.fs.setFile step (.saved part name) .absent } := by
      simp only [trainer, hstep]
    rw [heq]
    exact inv_unlink h hstep _
  | restart => exact inv_start fun n hn => h.complete n (.inl hn)

/-! ## The step in the tracker -/

/-- The tracker does not fall back behind a step. -/
def AtLeast (s : State) (n : Nat) : Prop := ∃ n', Names s n' ∧ n ≤ n'

theorem SameNames.atLeast {s s' : State} (h : SameNames s s') {n : Nat} (hn : AtLeast s n) :
    AtLeast s' n := by
  obtain ⟨n', hn', hle⟩ := hn
  exact ⟨n', (h.names n').2 hn', hle⟩

theorem atLeast_finalize {cfg : Config} {s : State} (h : Inv cfg s) {part : Part} {rank step : Nat}
    (hidle : (s.manager part rank).finalizing = none)
    (hcareful : Careful s (.finalize part rank step)) {n : Nat} (hn : AtLeast s n) :
    AtLeast (finalizeSaveFn s part rank step) n := by
  obtain ⟨n', hn', hle⟩ := hn
  obtain ⟨-, hcareful⟩ := hcareful
  unfold finalizeSaveFn
  split at hcareful
  · next hzero =>
    subst hzero
    obtain ⟨hclosed, hlast, -⟩ := hcareful
    refine ⟨step, .inr ⟨part, 0, ?_⟩, ?_⟩
    · simp
    · rcases hn' with hn' | ⟨p, r, hn'⟩
      · exact hle.trans (hlast n' (named_of_tracker hn'))
      · exact absurd (h.phase p r _ _ hn').1 hclosed
  · next hrank =>
    rw [if_neg hrank]
    refine ⟨n', (names_finalizeStep (fun m hm => ?_) (fun m hm => by cases hm) n').2 hn', hle⟩
    rw [hidle] at hm
    cases hm

theorem atLeast_call {cfg : Config} (job : JobConfig) {s : State} (h : Inv cfg s) (part : Part)
    (rank : Nat) {n : Nat} (hn : AtLeast s n) : AtLeast (finalizeOp job s part rank) n := by
  obtain ⟨n', hn', hle⟩ := hn
  unfold finalizeOp
  dsimp only
  split
  · next step hphase =>
    have heq := h.names_unique hn' (.inr ⟨part, rank, hphase⟩)
    exact ⟨step, .inl rfl, by omega⟩
  · next step hphase =>
    refine ⟨n', (names_finalizeStep (fun m hm => ?_) (fun m hm => by cases hm) n').2 hn', hle⟩
    rw [hphase] at hm
    cases hm
  · next step m steps hphase =>
    refine ⟨n', (names_finalizeStep (fun m hm => ?_) (fun m hm => by cases hm) n').2 hn', hle⟩
    rw [hphase] at hm
    cases hm
  · next step hphase =>
    refine ⟨n', (names_finalizeStep (fun m hm => ?_) (fun m hm => by cases hm) n').2 hn', hle⟩
    rw [hphase] at hm
    cases hm
  · exact ⟨n', hn', hle⟩

theorem atLeast_step {cfg : Config} {job : JobConfig} {n : Nat} (s : State) (a : Action)
    (h : Inv cfg s) (hg : (trainer cfg job a).guard s) (hc : Careful s a) (hn : AtLeast s n) :
    AtLeast ((trainer cfg job a).effect s) n := by
  cases a with
  | save | barrier => exact hn
  | rank i =>
    obtain ⟨op, hop⟩ := Option.isSome_iff_exists.mp hg
    have heq : (trainer cfg job (.rank i)).effect s = callOp cfg s i op := by
      simp only [trainer, hop]
    rw [heq]
    exact (callOp_sameManagers cfg s i op).sameNames.atLeast hn
  | write op =>
    have hsame : SameManagers s ((trainer cfg job (.write op)).effect s) :=
      ⟨fun _ _ => rfl, fun _ _ => rfl, op.effect_tracker s.fs⟩
    exact hsame.sameNames.atLeast hn
  | finalize part rank step => exact atLeast_finalize h hg.2.1 hc hn
  | call part rank => exact atLeast_call job h part rank hn
  | unlink part rank name =>
    obtain ⟨step, hstep⟩ := Option.isSome_iff_exists.mp hg
    have heq : (trainer cfg job (.unlink part rank name)).effect s =
        { s with fs := s.fs.setFile step (.saved part name) .absent } := by
      simp only [trainer, hstep]
    rw [heq]
    exact hn
  | restart =>
    obtain ⟨n', hn' | ⟨p, r, hn'⟩, hle⟩ := hn
    · exact ⟨n', .inl hn', hle⟩
    · exact absurd (h.phase p r _ _ hn').1 hg

/-- In runs whose finalize functions run in the order of the steps, that of rank 0 first and when
nothing of the step is left to be written, whatever the tracker names is complete and stays so, and
the step in the tracker never decreases. -/
theorem safe_of_reachable {cfg : Config} {job : JobConfig} {s s' : State}
    (h : Reachable (trainer cfg job) Careful initial s)
    (h' : Reachable (trainer cfg job) Careful s s') {n : Nat} (hn : s.fs.tracker = some (some n)) :
    Complete cfg s.fs n ∧ ∀ n', s'.fs.tracker = some (some n') → n ≤ n' := by
  have hinv := h.invariant (inv_initial cfg) inv_step
  refine ⟨hinv.complete n (.inl hn), fun n' hn' => ?_⟩
  have hlater : Inv cfg s' ∧ AtLeast s' n :=
    h'.invariant (I := fun t => Inv cfg t ∧ AtLeast t n) ⟨hinv, n, .inl hn, Nat.le_refl n⟩
      fun t a ht hg hc => ⟨inv_step t a ht.1 hg hc, atLeast_step t a ht.1 hg hc ht.2⟩
  obtain ⟨hinv', n'', hn'', hle⟩ := hlater
  rw [hinv'.names_unique (.inl hn') hn'']
  exact hle

/-! ## Runs of an actor and a critic -/

/-- One rank each, with one file that is written asynchronously. -/
def oneRank : Config where
  group := fun _ => { worldSize := 1, callFiles := fun _ => [], asyncFiles := fun _ => ["common.pt"] }
  useCritic := true

def keepAll : JobConfig := ⟨none, none, false, true⟩

/-- The trainer's part of a save. -/
def saveCalls (step : Nat) : List Action :=
  [.save step, .rank 0, .barrier, .rank 0, .barrier, .rank 0, .rank 0, .barrier]

/-- The asynchronous writes of a part. -/
def writes (step : Nat) (part : Part) : List Action :=
  [.write (.openFile step (.saved part "common.pt")),
    .write (.closeFile step (.saved part "common.pt"))]

/-- The finalize function of a part, up to the tracker. -/
def finalizes (step : Nat) (part : Part) : List Action :=
  [.finalize part 0 step, .call part 0]

/-- The rest of it. -/
def registers (part : Part) : List Action := [.call part 0, .call part 0]

/-- The actor is finalized before the critic is saved. -/
def actorOnly : List Action := [.save 1, .rank 0] ++ writes 1 .actor ++ finalizes 1 .actor

/-- Two saves are written, and the second one is finalized first. -/
def newestFirst : List Action :=
  saveCalls 1 ++ writes 1 .actor ++ writes 1 .critic ++ saveCalls 2 ++ writes 2 .actor ++
    writes 2 .critic ++ finalizes 2 .actor ++ registers .actor

/-- The tracker names a step without critic and data, and it falls back from step 2 to step 1. -/
theorem not_safe : (Admits (trainer oneRank keepAll) anyStep initial actorOnly ∧
      (run (trainer oneRank keepAll) initial actorOnly).fs.tracker = some (some 1) ∧
      ¬Complete oneRank (run (trainer oneRank keepAll) initial actorOnly).fs 1) ∧
    Admits (trainer oneRank keepAll) anyStep initial (newestFirst ++ finalizes 1 .actor) ∧
      (run (trainer oneRank keepAll) initial newestFirst).fs.tracker = some (some 2) ∧
      (run (trainer oneRank keepAll) initial (newestFirst ++ finalizes 1 .actor)).fs.tracker =
        some (some 1) := by
  refine ⟨⟨by decide, rfl, fun h => ?_⟩, by decide, rfl, rfl⟩
  have hdata := h .data (by decide)
  revert hdata
  decide

def keepOne : JobConfig := ⟨some 1, some 1, false, true⟩

/-- A save whose parts are both written when they are finalized. -/
def orderly (step : Nat) : List Action :=
  saveCalls step ++ writes step .actor ++ writes step .critic ++ finalizes step .actor ++
    registers .actor

/-- With limit 1 a second save removes the actor of the first when the tracker has got to it. -/
theorem safe_orderly : Complete oneRank (run (trainer oneRank keepOne) initial (orderly 1)).fs 1 ∧
      ∀ n', (run (trainer oneRank keepOne)
        (run (trainer oneRank keepOne) initial (orderly 1)) (orderly 2)).fs.tracker =
          some (some n') → 1 ≤ n' :=
  safe_of_reachable (reachable_run (by decide)) (reachable_run (by decide)) rfl

end Verl.AsyncSave
