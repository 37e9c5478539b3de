import Verl.Trainer.Checkpoint

/-! # What a killed job leaves behind

The tracker is the commit point of a save: whatever it names has to be complete at every
moment.  A save keeps to that (`KeepsNamed`) when it does not write into the folder that is
named, and when no manager with limit 1 has the named step among its previous paths:
`register_checkpoint` removes that step before the tracker is written.  The tracker itself
is empty between its opening and its closing.

* `Inv`: the invariant of jobs whose saves keep to that; `inv_step` its step lemma.
* `recoverable_of_reachable`: what any of these jobs leaves behind can be resumed.
* `auto_recoverable`: so it is for jobs without limit 1 that resume automatically. -/

namespace Verl.Checkpoint

open StepSystem List Option

/-- The checkpoint that the tracker names is complete, and the next job resumes from it. -/
def Recoverable (cfg : Config) (fs : FileSystem) : Prop :=
  match fs.tracker with
  | none => loadCheckpoint cfg fs .auto = .ok 0
  | some none => False
  | some (some step) => Complete cfg fs step ∧ loadCheckpoint cfg fs .auto = .ok step

/-- The condition on a save: it leaves the named step alone. -/
def KeepsNamed (cfg : Config) (s : State) : Action → Prop
  | .save step => s.fs.tracker ≠ some (some step) ∧
      ∀ part ∈ cfg.parts, s.job.maxCkptToKeep part = some 1 →
        ∀ m ∈ s.paths part, s.fs.tracker ≠ some (some m)
  | _ => True

instance (cfg : Config) (s : State) : DecidablePred (KeepsNamed cfg s)
  | .save step => inferInstanceAs (Decidable (s.fs.tracker ≠ some (some step) ∧
      ∀ part ∈ cfg.parts, s.job.maxCkptToKeep part = some 1 →
        ∀ m ∈ s.paths part, s.fs.tracker ≠ some (some m)))
  | .rank _ | .unlink _ _ | .barrier | .restart _ _ => inferInstanceAs (Decidable True)

/-! ## The invariant -/

/-- What an operation of the plan may touch. -/
def OpKeeps (s : State) : Op → Prop
  | .rmtree step _ => step < s.globalSteps ∧ s.fs.tracker ≠ some (some step)
  | .mkdir step | .openTracker step | .closeTracker step => step = s.globalSteps
  | .openFile step _ | .closeFile step _ =>
    step = s.globalSteps ∧ s.fs.tracker ≠ some (some s.globalSteps)

/-- A file of the step is written, or about to be. -/
def Written (plan : Stages Op) (fs : FileSystem) (step : Nat) (file : CkptFile) : Prop :=
  .openFile step file ∈ Stages.ops plan ∨ .closeFile step file ∈ Stages.ops plan ∨
    fs.file step file = .full

structure Inv (cfg : Config) (s : State) : Prop where
  named : ∀ step, s.fs.tracker = some (some step) →
    Complete cfg s.fs step ∧ s.fs.folder step = true
  keeps : ∀ op ∈ Stages.ops s.plan, OpKeeps s op
  written : s.plan ≠ [] → ∀ file ∈ cfg.files, Written s.plan s.fs s.globalSteps file
  folder : s.plan ≠ [] →
    .mkdir s.globalSteps ∈ Stages.ops s.plan ∨ s.fs.folder s.globalSteps = true
  ends : Stages.EndsWith Op.IsTracker s.plan
  sorted : ∀ part, (s.paths part).Pairwise (· < ·)
  bounded : ∀ part, ∀ m ∈ s.paths part, m ≤ s.globalSteps
  /-- A path of the job that is named is the newest one, unless a newer one is about to be
  named. -/
  newest : ∀ m, s.fs.tracker = some (some m) → ∀ part, m ∈ s.paths part →
    m = s.globalSteps ∨ ∃ op ∈ Stages.ops s.plan, op.IsTracker
  async : s.job.asyncSave = true → (∀ op ∈ Stages.ops s.plan, ¬op.IsTracker) ∧
    ∀ m, s.fs.tracker = some (some m) → ∀ part, m ∉ s.paths part

variable {file : CkptFile} {m step i : Nat} {state : FileState} {fs : FileSystem} {part : Part}
  {s : State} {job : JobConfig} {cfg : Config} {paths : Part → List Nat} {op : Op}

theorem inv_start (job : JobConfig) (globalSteps : Nat)
    (h : ∀ step, fs.tracker = some (some step) → Complete cfg fs step ∧ fs.folder step = true) :
    Inv cfg (.start fs job globalSteps) where
  named := h
  keeps := fun _ hop => absurd hop not_mem_nil
  written := fun hne => absurd rfl hne
  folder := fun hne => absurd rfl hne
  ends := trivial
  sorted := fun _ => .nil
  bounded := fun _ _ hm => absurd hm not_mem_nil
  newest := fun _ _ _ hm => absurd hm not_mem_nil
  async := fun _ => ⟨fun _ hop => absurd hop not_mem_nil,
    fun _ _ _ => not_mem_nil⟩

theorem inv_initial (cfg : Config) (job : JobConfig) : Inv cfg (initial job) :=
  inv_start job 0 fun step h => by cases h

/-- A step that leaves the tracker and the named step as they are. -/
theorem Inv.of_files (h : Inv cfg s) {plan : Stages Op} (htracker : fs.tracker = s.fs.tracker)
    (hnamed : ∀ step, s.fs.tracker = some (some step) → fs.file step = s.fs.file step)
    (hfolder : ∀ step, s.fs.folder step = true → fs.folder step = true)
    (hkeeps : ∀ op ∈ Stages.ops plan, OpKeeps s op)
    (hops : ∀ op : Op, op.IsTracker → (op ∈ Stages.ops plan ↔ op ∈ Stages.ops s.plan))
    (hends : Stages.EndsWith Op.IsTracker plan)
    (hwritten : plan ≠ [] → ∀ file ∈ cfg.files, Written plan fs s.globalSteps file)
    (hmade : plan ≠ [] → .mkdir s.globalSteps ∈ Stages.ops plan ∨ fs.folder s.globalSteps = true) :
    Inv cfg { s with fs := fs, plan := plan } where
  named := by
    intro step hstep
    rw [show fs.tracker = _ from htracker] at hstep
    obtain ⟨hfull, hdir⟩ := h.named step hstep
    refine ⟨fun file hf => ?_, hfolder step hdir⟩
    rw [hnamed step hstep]
    exact hfull file hf
  keeps := by
    intro op hop
    have hk := hkeeps op hop
    cases op <;> simpa only [OpKeeps, htracker] using hk
  written := hwritten
  folder := hmade
  ends := hends
  sorted := h.sorted
  bounded := h.bounded
  newest := by
    intro m hm part hmem
    rw [show fs.tracker = _ from htracker] at hm
    rcases h.newest m hm part hmem with heq | ⟨op, hop, htr⟩
    · exact .inl heq
    · exact .inr ⟨op, (hops op htr).mpr hop, htr⟩
  async := by
    intro ha
    obtain ⟨hno, hpaths⟩ := h.async ha
    refine ⟨fun op hop htr => hno op ((hops op htr).mp hop) htr, fun m hm => ?_⟩
    rw [show fs.tracker = _ from htracker] at hm
    exact hpaths m hm

/-! ## Steps of a save -/

/-- The operation that a rank makes keeps all of `Inv` but what is about its own file. -/
theorem Inv.more_keeps (h : Inv cfg s) (hop : Stages.next? s.plan i = some op) :
    ∀ x ∈ Stages.ops (Stages.advance Op.more s.plan i), OpKeeps s x := by
  intro x hx
  rcases Stages.mem_of_mem_advance hop hx with hx | hx
  · have hk := h.keeps op (Stages.mem_of_next? hop)
    cases op <;> simp only [Op.more, mem_singleton, not_mem_nil] at hx <;>
      (subst hx; exact hk)
  · exact h.keeps x hx

theorem isTracker_more : ∀ x ∈ op.more, x.IsTracker ↔ op.IsTracker := by
  intro x hx
  cases op <;> simp only [Op.more, mem_singleton, not_mem_nil] at hx <;>
    (subst hx; exact Iff.rfl)

theorem Inv.advance (h : Inv cfg s)
    (hop : Stages.next? s.plan i = some op) (hnot : ¬op.IsTracker)
    (htracker : (op.effect s.fs).tracker = s.fs.tracker)
    (hnamed : ∀ step, s.fs.tracker = some (some step) →
      (op.effect s.fs).file step = s.fs.file step)
    (hfolder : ∀ step, s.fs.folder step = true → (op.effect s.fs).folder step = true)
    (hwritten : ∀ file ∈ cfg.files, Written (Stages.advance Op.more s.plan i)
      (op.effect s.fs) s.globalSteps file)
    (hmade : .mkdir s.globalSteps ∈ Stages.ops (Stages.advance Op.more s.plan i) ∨
      (op.effect s.fs).folder s.globalSteps = true) :
    Inv cfg { s with fs := op.effect s.fs, plan := Stages.advance Op.more s.plan i } := by
  refine h.of_files htracker hnamed hfolder (h.more_keeps hop) (fun x hx => ?_)
    (h.ends.advance hop isTracker_more) (fun _ => hwritten) (fun _ => hmade)
  constructor
  · intro hmem
    rcases Stages.mem_of_mem_advance hop hmem with hmem | hmem
    · exact absurd ((isTracker_more x hmem).mp hx) hnot
    · exact hmem
  · intro hmem
    rcases Stages.mem_advance_of_mem Op.more hop hmem with rfl | hmem
    · exact absurd hx hnot
    · exact hmem

theorem Written.advance {plan : Stages Op} {fs' : FileSystem} (h : Written plan fs step file)
    (hop : Stages.next? plan i = some op) (hopen : op ≠ .openFile step file)
    (hclose : op ≠ .closeFile step file) (hfile : fs'.file step file = fs.file step file) :
    Written (Stages.advance Op.more plan i) fs' step file := by
  rcases h with h | h | h
  · exact .inl ((Stages.mem_advance_of_mem Op.more hop h).resolve_left hopen.symm)
  · exact .inr (.inl ((Stages.mem_advance_of_mem Op.more hop h).resolve_left hclose.symm))
  · exact .inr (.inr (hfile.trans h))

theorem Inv.complete_of_tracker (h : Inv cfg s)
    (hop : Stages.next? s.plan i = some op) (htr : op.IsTracker) :
    Complete cfg s.fs s.globalSteps ∧ s.fs.folder s.globalSteps = true := by
  have hall := h.ends.all hop htr
  have hne := Stages.ne_nil_of_next? hop
  constructor
  · intro file hfile
    rcases h.written hne file hfile with hw | hw | hw
    · exact (hall _ hw).elim
    · exact (hall _ hw).elim
    · exact hw
  · rcases h.folder hne with hmk | hmk
    · exact (hall _ hmk).elim
    · exact hmk

theorem setFile_file {n : Nat}
    (h : n ≠ step) : (fs.setFile step file state).file n = fs.file n := by
  funext f
  exact if_neg fun hc => h hc.1

theorem setFile_self {f : CkptFile} :
    (fs.setFile step file state).file step f = if f = file then state else fs.file step f := by
  simp only [FileSystem.setFile, true_and]

theorem Inv.setFile (h : Inv cfg s) (hop : Stages.next? s.plan i = some op) (hnot : ¬op.IsTracker)
    (hcase : (op = .openFile s.globalSteps file ∧ state = .torn) ∨ (op = .closeFile s.globalSteps file ∧ state = .full))
    (htracker : s.fs.tracker ≠ some (some s.globalSteps))
    (heffect : op.effect s.fs = s.fs.setFile s.globalSteps file state) :
    Inv cfg { s with fs := op.effect s.fs, plan := Stages.advance Op.more s.plan i } := by
  have hne := Stages.ne_nil_of_next? hop
  refine h.advance hop hnot (by rw [heffect]; rfl) (fun step hstep => ?_)
    (fun step hdir => by rw [heffect]; exact hdir) (fun f hf => ?_) ?_
  · rw [heffect]
    refine setFile_file fun heq => htracker ?_
    rw [← heq]
    exact hstep
  · by_cases hff : f = file
    · subst hff
      rcases hcase with ⟨rfl, rfl⟩ | ⟨rfl, rfl⟩
      · exact .inr (.inl (Stages.mem_advance_of_mem_more hop mem_cons_self))
      · refine .inr (.inr ?_)
        rw [heffect, setFile_self, if_pos rfl]
    · refine (h.written hne f hf).advance hop ?_ ?_ ?_
      · grind
      · grind
      · rw [heffect, setFile_self, if_neg hff]
  · rcases h.folder hne with hmk | hmk
    · rcases Stages.mem_advance_of_mem Op.more hop hmk with heq | hmk
      · rcases hcase with ⟨rfl, -⟩ | ⟨rfl, -⟩ <;> cases heq
      · exact .inl hmk
    · right
      rw [heffect]
      exact hmk

theorem Inv.openTracker (h : Inv cfg s) (hop : Stages.next? s.plan i = some (.openTracker step)) :
    Inv cfg { s with
      fs := (Op.openTracker step).effect s.fs
      plan := Stages.advance Op.more s.plan i } where
  named := by intro n hn; cases hn
  keeps := by
    intro x hx
    have hk := h.more_keeps hop x hx
    cases x with
    | rmtree m part => exact ⟨hk.1, by simp [Op.effect]⟩
    | openFile m file => exact ⟨hk.1, by simp [Op.effect]⟩
    | closeFile m file => exact ⟨hk.1, by simp [Op.effect]⟩
    | mkdir m => exact hk
    | openTracker m => exact hk
    | closeTracker m => exact hk
  written := fun _ file hf =>
    .inr (.inr ((h.complete_of_tracker hop trivial).1 file hf))
  folder := fun _ => .inr (h.complete_of_tracker hop trivial).2
  ends := h.ends.advance hop isTracker_more
  sorted := h.sorted
  bounded := h.bounded
  newest := by intro m hm; cases hm
  async := fun ha => absurd trivial ((h.async ha).1 _ (Stages.mem_of_next? hop))

theorem Inv.closeTracker (h : Inv cfg s) (hop : Stages.next? s.plan i = some (.closeTracker step)) :
    Inv cfg { s with
      fs := (Op.closeTracker step).effect s.fs
      plan := Stages.advance Op.more s.plan i } := by
  have hstep : step = s.globalSteps := h.keeps _ (Stages.mem_of_next? hop)
  have hcomplete := h.complete_of_tracker hop trivial
  refine {
    named := fun n hn => ?_
    keeps := fun x hx => ?_
    written := fun _ file hf => .inr (.inr (hcomplete.1 file hf))
    folder := fun _ => .inr hcomplete.2
    ends := h.ends.advance hop isTracker_more
    sorted := h.sorted
    bounded := h.bounded
    newest := fun m hm part _ => .inl ?_
    async := fun ha => absurd trivial ((h.async ha).1 _ (Stages.mem_of_next? hop)) }
  · obtain rfl : step = n := some.inj (some.inj hn)
    rw [hstep]
    exact hcomplete
  · -- only operations on the tracker are left
    have htr : x.IsTracker := by
      rcases Stages.mem_of_mem_advance hop hx with hx | hx
      · exact (isTracker_more x hx).mpr trivial
      · exact h.ends.all hop trivial x hx
    have hk := h.more_keeps hop x hx
    cases x with
    | openTracker m => exact hk
    | closeTracker m => exact hk
    | rmtree m part => exact htr.elim
    | mkdir m => exact htr.elim
    | openFile m file => exact htr.elim
    | closeFile m file => exact htr.elim
  · have hm' : step = m := some.inj (some.inj hm)
    exact hm'.symm.trans hstep

theorem Inv.advance_frame (h : Inv cfg s)
    (hop : Stages.next? s.plan i = some op) (hnot : ¬op.IsTracker)
    (hopen : ∀ file, op ≠ .openFile s.globalSteps file)
    (hclose : ∀ file, op ≠ .closeFile s.globalSteps file)
    (htracker : (op.effect s.fs).tracker = s.fs.tracker)
    (hfile : (op.effect s.fs).file = s.fs.file)
    (hfolder : ∀ step, s.fs.folder step = true ∨ op = .mkdir step →
      (op.effect s.fs).folder step = true) :
    Inv cfg { s with fs := op.effect s.fs, plan := Stages.advance Op.more s.plan i } := by
  have hne := Stages.ne_nil_of_next? hop
  refine h.advance hop hnot htracker (fun step _ => by rw [hfile])
    (fun step hdir => hfolder step (.inl hdir)) (fun f hf => ?_) ?_
  · exact (h.written hne f hf).advance hop (hopen f) (hclose f) (by rw [hfile])
  · rcases h.folder hne with hmk | hmk
    · rcases Stages.mem_advance_of_mem Op.more hop hmk with heq | hmk
      · exact .inr (hfolder _ (.inr heq.symm))
      · exact .inl hmk
    · exact .inr (hfolder _ (.inl hmk))

theorem inv_rank (h : Inv cfg s) (hop : Stages.next? s.plan i = some op) :
    Inv cfg { s with fs := op.effect s.fs, plan := Stages.advance Op.more s.plan i } := by
  have hk := h.keeps op (Stages.mem_of_next? hop)
  cases op with
  | rmtree m part =>
    refine h.advance_frame hop id (fun _ heq => by cases heq) (fun _ heq => by cases heq)
      rfl rfl (fun step hdir => ?_)
    rcases hdir with hdir | heq
    · exact hdir
    · cases heq
  | mkdir m =>
    refine h.advance_frame hop id (fun _ heq => by cases heq) (fun _ heq => by cases heq)
      rfl rfl (fun step hdir => ?_)
    rcases hdir with hdir | heq
    · simp [Op.effect, hdir]
    · cases heq
      simp [Op.effect]
  | openFile m file =>
    obtain ⟨rfl, htracker⟩ := hk
    exact h.setFile hop id (.inl ⟨rfl, rfl⟩) htracker rfl
  | closeFile m file =>
    obtain ⟨rfl, htracker⟩ := hk
    exact h.setFile hop id (.inr ⟨rfl, rfl⟩) htracker rfl
  | openTracker m => exact h.openTracker hop
  | closeTracker m => exact h.closeTracker hop

/-- A file of a step that is neither named nor saved is unlinked. -/
theorem inv_unlink (h : Inv cfg s)
    (hop : Stages.next? s.plan i = some (.rmtree m part)) (file : ShardFile) :
    Inv cfg { s with fs := s.fs.setFile m (.shard part file) .absent } := by
  obtain ⟨hlt, htracker⟩ := h.keeps _ (Stages.mem_of_next? hop)
  refine h.of_files rfl (fun step hstep => setFile_file ?_) (fun _ hdir => hdir) h.keeps
    (fun _ _ => Iff.rfl) h.ends (fun hne f hf => ?_) h.folder
  · grind
  · rcases h.written hne f hf with hw | hw | hw
    · exact .inl hw
    · exact .inr (.inl hw)
    · refine .inr (.inr ?_)
      rw [setFile_file (Nat.ne_of_gt hlt)]
      exact hw

theorem inv_barrier (h : Inv cfg s)
    (hbar : Stages.AtBarrier s.plan) : Inv cfg { s with plan := s.plan.tail } := by
  have hops := Stages.ops_tail hbar
  have hne : s.plan ≠ [] := by
    intro hnil
    rw [hnil] at hbar
    exact hbar
  refine h.of_files rfl (fun _ _ => rfl) (fun _ hdir => hdir) (by rw [hops]; exact h.keeps)
    (fun _ _ => by rw [hops]) h.ends.tail (fun _ f hf => ?_) (fun _ => ?_)
  · unfold Written
    rw [hops]
    exact h.written hne f hf
  · rw [hops]
    exact h.folder hne

/-! ## The start of a save -/

/-- The paths a save keeps are newer than those it removes. -/
theorem removed_lt_kept (hsorted : (paths part).Pairwise (· < ·))
    (hm : m ∈ (ensured job paths part).1 ++ (registered job paths step part).1) :
    m ∈ paths part ∧ (job.maxCkptToKeep part ≠ some 1 → ∃ x ∈ paths part, m < x) := by
  obtain ⟨kept, -, hsplit, hkept⟩ := registered_kept job paths step part
  have hmem : m ∈ paths part := by grind
  refine ⟨hmem, fun hlimit => ?_⟩
  obtain ⟨x, hx⟩ := exists_mem_of_ne_nil _ (hkept hlimit (ne_nil_of_mem hmem))
  rw [← hsplit] at hsorted
  refine ⟨x, ?_, (pairwise_append.mp hsorted).2.2 m hm x hx⟩
  rw [← hsplit]
  exact mem_append_right _ hx

theorem mem_savedPaths (h : m ∈ savedPaths cfg job paths step part) :
    m = step ∨ m ∈ paths part := by
  unfold savedPaths at h
  split at h
  · obtain ⟨kept, hreg, hsplit, -⟩ := registered_kept job paths step part
    rw [hreg, mem_append, mem_singleton] at h
    rcases h with h | h
    · grind
    · exact .inl h
  · exact .inr h

theorem sorted_savedPaths (hsorted : (paths part).Pairwise (· < ·))
    (hlt : ∀ m ∈ paths part, m < step) :
    (savedPaths cfg job paths step part).Pairwise (· < ·) := by
  unfold savedPaths
  split
  · obtain ⟨kept, hreg, hsplit, -⟩ := registered_kept job paths step part
    rw [hreg, pairwise_append]
    rw [← hsplit] at hsorted
    refine ⟨(pairwise_append.mp hsorted).2.1, pairwise_singleton _ _, ?_⟩
    intro a ha b hb
    rw [mem_singleton.mp hb]
    refine hlt a ?_
    rw [← hsplit]
    exact mem_append_right _ ha
  · exact hsorted

theorem inv_save (h : Inv cfg s) (hidle : s.plan = [])
    (hlt : s.globalSteps < step) (hkeep : KeepsNamed cfg s (.save step)) :
    Inv cfg { s with
      paths := savedPaths cfg s.job s.paths step
      globalSteps := step
      plan := savePlan cfg s.job s.paths step } := by
  obtain ⟨hnamed, hlimit⟩ := hkeep
  have hold : ∀ part, ∀ m ∈ s.paths part, m < step := fun part m hm =>
    lt_of_le_of_lt (h.bounded part m hm) hlt
  have hnone : ¬∃ op ∈ Stages.ops s.plan, op.IsTracker := by simp [hidle]
  -- what the retention removes is not the named step
  have hremoved : ∀ part ∈ cfg.parts,
      ∀ m ∈ (ensured s.job s.paths part).1 ++ (registered s.job s.paths step part).1,
        m < step ∧ s.fs.tracker ≠ some (some m) := by
    intro part hpart m hm
    obtain ⟨hmem, hnewer⟩ := removed_lt_kept (h.sorted part) hm
    refine ⟨hold part m hmem, fun htr => ?_⟩
    by_cases hone : s.job.maxCkptToKeep part = some 1
    · exact hlimit part hpart hone m hmem htr
    · obtain ⟨x, hx, hmx⟩ := hnewer hone
      have hnewest : m = s.globalSteps := (h.newest m htr part hmem).resolve_right hnone
      have hle := h.bounded part x hx
      omega
  refine {
    named := h.named
    keeps := fun op hop => ?_
    written := fun _ file hf => .inl (openFile_mem_savePlan s.job s.paths step hf)
    folder := fun _ => .inl (mem_ops_savePlan.mpr (.inr (.inl (.inl rfl))))
    ends := endsWith_savePlan cfg s.job s.paths step
    sorted := fun part => sorted_savedPaths (h.sorted part) (hold part)
    bounded := fun part m hm => ?_
    newest := fun m hm part hmem => ?_
    async := fun ha => ?_ }
  · rcases mem_ops_savePlan.mp hop with ⟨part, hpart, hop⟩ | (rfl | rfl) | ⟨rfl, -⟩
    · rcases mem_ops_managerStages hop with ⟨m, hm, rfl⟩ | rfl | ⟨file, rfl⟩
      · exact hremoved part hpart m hm
      · exact rfl
      · exact ⟨rfl, hnamed⟩
    · exact rfl
    · exact ⟨rfl, hnamed⟩
    · exact rfl
  · rcases mem_savedPaths hm with rfl | hm
    · exact Nat.le_refl _
    · exact Nat.le_of_lt (hold part m hm)
  · cases ha : s.job.asyncSave with
    | false => exact .inr ⟨_, mem_ops_savePlan.mpr (.inr (.inr ⟨rfl, ha⟩)), trivial⟩
    | true =>
      rcases mem_savedPaths hmem with rfl | hmem
      · exact .inl rfl
      · exact absurd hmem ((h.async ha).2 m hm part)
  · refine ⟨fun op hop => ?_, fun m hm part hmem => ?_⟩
    · rcases mem_ops_savePlan.mp hop with ⟨part, -, hop⟩ | (rfl | rfl) | ⟨-, hsync⟩
      · rcases mem_ops_managerStages hop with ⟨m, -, rfl⟩ | rfl | ⟨file, rfl⟩ <;> exact id
      · exact id
      · exact id
      · grind
    · rcases mem_savedPaths hmem with rfl | hmem
      · exact hnamed hm
      · exact (h.async ha).2 m hm part hmem

/-! ## Runs -/

theorem next?_of_removing?
    (h : s.removing? i = some (m, part)) : Stages.next? s.plan i = some (.rmtree m part) := by
  unfold State.removing? at h
  split at h
  · grind
  · cases h

theorem inv_step (s : State) (a : Action) (h : Inv cfg s)
    (hg : (trainer cfg a).guard s) (hc : KeepsNamed cfg s a) :
    Inv cfg ((trainer cfg a).effect s) := by
  cases a with
  | save step => exact inv_save h hg.1 hg.2 hc
  | rank i =>
    obtain ⟨op, hop⟩ := isSome_iff_exists.mp hg
    have heq : (trainer cfg (.rank i)).effect s =
        { s with fs := op.effect s.fs, plan := Stages.advance Op.more s.plan i } := by
      simp only [trainer, hop]
    rw [heq]
    exact inv_rank h hop
  | unlink i file =>
    obtain ⟨⟨m, part⟩, hrm, -⟩ := (any_eq_true _ _).mp hg
    have heq : (trainer cfg (.unlink i file)).effect s =
        { s with fs := s.fs.setFile m (.shard part file) .absent } := by
      simp only [trainer, hrm]
    rw [heq]
    exact inv_unlink h (next?_of_removing? hrm) file
  | barrier => exact inv_barrier h hg
  | restart job mode =>
    cases hload : loadCheckpoint cfg s.fs mode with
    | error e =>
      have heq : (trainer cfg (.restart job mode)).effect s = s := by
        simp only [trainer, hload]
      rw [heq]
      exact h
    | ok step =>
      have heq : (trainer cfg (.restart job mode)).effect s = .start s.fs job step := by
        simp only [trainer, hload]
      rw [heq]
      exact inv_start job step h.named

/-- In a run whose saves all leave the named step alone, whatever a job that is killed
leaves behind can be resumed, unless it is killed while it writes the tracker. -/
theorem recoverable_of_reachable {cfg : Config} {job : JobConfig} {s : State}
    (h : Reachable (trainer cfg) (KeepsNamed cfg) (initial job) s)
    (hcrash : s.fs.tracker ≠ some none) : Recoverable cfg s.fs := by
  have hinv : Inv cfg s := h.invariant (inv_initial cfg job) inv_step
  unfold Recoverable
  cases htr : s.fs.tracker with
  | none =>
    unfold loadCheckpoint
    simp only [globalStepFolder, findLatestCkptPath, htr]
    rfl
  | some content =>
    cases content with
    | none => exact absurd htr hcrash
    | some step =>
      obtain ⟨hfull, hdir⟩ := hinv.named step htr
      exact ⟨hfull, loadCheckpoint_auto htr hdir hfull⟩

/-! ### Two saves with limit 1 -/

/-- A single rank that saves the model. -/
def oneRank : Config where
  group := fun _ => {
    worldSize := 1
    saveContents := [.model]
    loadContents := [.model]
    hfConfigFiles := []
    hfModelFiles := []
    load_saved := fun _ h => h }
  useCritic := false
  stepsPerEpoch := 10

def keep (limit : Nat) : JobConfig where
  maxActorCkptToKeep := some limit
  maxCriticCkptToKeep := some limit
  removePreviousCkptInSave := false
  asyncSave := false

/-- The actor is saved, and the first path removed if there is one. -/
def actorSave : List Action :=
  [.rank 0, .barrier, .rank 0, .rank 0, .rank 0, .rank 0, .barrier, .barrier]

/-- A first save, with its barrier after the tracker. -/
def firstSave : List Action :=
  .save 1 :: actorSave ++
    [.barrier, .rank 0, .rank 0, .rank 0, .barrier, .rank 0, .rank 0, .barrier]

/-- With limit 1 the second save has removed the first actor when it is killed. -/
def killedRun : List Action := firstSave ++ .save 2 :: actorSave ++ [.unlink 0 (.model 0)]

/-- The job is killed between two operations: the tracker names step 1, and the model of
step 1 is gone. -/
theorem not_recoverable_keep_one : Admits (trainer oneRank) anyStep (initial (keep 1)) killedRun ∧
      (run (trainer oneRank) (initial (keep 1)) killedRun).fs.tracker = some (some 1) ∧
      ¬Recoverable oneRank (run (trainer oneRank) (initial (keep 1)) killedRun).fs := by
  refine ⟨by decide, rfl, fun h => ?_⟩
  have hfull := h.1 (.shard .actor (.model 0)) (by decide)
  revert hfull
  decide

/-- With limit 2 a job that is killed at the same point is resumed at step 1. -/
theorem recoverable_keep_two : Recoverable oneRank
      (run (trainer oneRank) (initial (keep 2)) (firstSave ++ .save 2 :: actorSave)).fs :=
  recoverable_of_reachable (reachable_run (by decide)) (by decide)

/-! ### Jobs that resume automatically -/

/-- The jobs resume from the tracker, and no limit is 1. -/
def ResumesAuto (_ : State) : Action → Prop
  | .restart job mode => mode = .auto ∧ ∀ part, job.maxCkptToKeep part ≠ some 1
  | _ => True

instance (s : State) : DecidablePred (ResumesAuto s)
  | .restart job mode =>
    decidable_of_iff (mode = .auto ∧ job.maxCkptToKeep .actor ≠ some 1 ∧
        job.maxCkptToKeep .critic ≠ some 1)
      ⟨fun h => ⟨h.1, fun part => by cases part with | actor => exact h.2.1 | critic => exact h.2.2⟩,
        fun h => ⟨h.1, h.2 _, h.2 _⟩⟩
  | .save _ | .rank _ | .unlink _ _ | .barrier => inferInstanceAs (Decidable True)

/-- The named step is never ahead of the job. -/
structure AutoInv (cfg : Config) (s : State) : Prop where
  inv : Inv cfg s
  limit : ∀ part, s.job.maxCkptToKeep part ≠ some 1
  named_le : ∀ m, s.fs.tracker = some (some m) → m ≤ s.globalSteps

theorem AutoInv.keepsNamed (h : AutoInv cfg s) {a : Action}
    (hg : (trainer cfg a).guard s) : KeepsNamed cfg s a := by
  cases a with
  | save step =>
    refine ⟨fun htr => ?_, fun part _ hone => absurd hone (h.limit part)⟩
    have hle := h.named_le step htr
    have hlt : s.globalSteps < step := hg.2
    omega
  | rank | unlink | barrier | restart => trivial

theorem autoInv_step (s : State) (a : Action) (h : AutoInv cfg s)
    (hg : (trainer cfg a).guard s) (hc : ResumesAuto s a) :
    AutoInv cfg ((trainer cfg a).effect s) := by
  have hinv := inv_step s a h.inv hg (h.keepsNamed hg)
  cases a with
  | save step =>
    refine ⟨hinv, h.limit, fun m hm => ?_⟩
    have hle := h.named_le m hm
    have hlt : s.globalSteps < step := hg.2
    exact Nat.le_of_lt (lt_of_le_of_lt hle hlt)
  | rank i =>
    obtain ⟨op, hop⟩ := isSome_iff_exists.mp hg
    have heq : (trainer cfg (.rank i)).effect s =
        { s with fs := op.effect s.fs, plan := Stages.advance Op.more s.plan i } := by
      simp only [trainer, hop]
    rw [heq] at hinv ⊢
    refine ⟨hinv, h.limit, fun m hm => ?_⟩
    have hk := h.inv.keeps op (Stages.mem_of_next? hop)
    cases op with
    | openTracker step => cases hm
    | closeTracker step =>
      obtain rfl : step = m := some.inj (some.inj hm)
      exact Nat.le_of_eq hk
    | rmtree | mkdir | openFile | closeFile => exact h.named_le m hm
  | unlink i file =>
    obtain ⟨⟨m, part⟩, hrm, -⟩ := (any_eq_true _ _).mp hg
    have heq : (trainer cfg (.unlink i file)).effect s =
        { s with fs := s.fs.setFile m (.shard part file) .absent } := by
      simp only [trainer, hrm]
    rw [heq] at hinv ⊢
    exact ⟨hinv, h.limit, h.named_le⟩
  | barrier => exact ⟨hinv, h.limit, h.named_le⟩
  | restart job mode =>
    obtain ⟨rfl, hlimit⟩ := hc
    cases hload : loadCheckpoint cfg s.fs .auto with
    | error e =>
      simp only [trainer, hload] at ⊢
      exact h
    | ok step =>
      simp only [trainer, hload] at hinv ⊢
      refine ⟨hinv, hlimit, fun m hm => ?_⟩
      have htr : s.fs.tracker = some (some m) := hm
      obtain ⟨hfull, hdir⟩ := h.inv.named m htr
      rw [loadCheckpoint_auto htr hdir hfull] at hload
      exact Nat.le_of_eq (Except.ok.inj hload)

theorem Inv.recoverable (h : Inv cfg s) (hcrash : s.fs.tracker ≠ some none) :
    Recoverable cfg s.fs := by
  unfold Recoverable
  split
  · rename_i htr
    simp only [loadCheckpoint, globalStepFolder, findLatestCkptPath, htr]
    rfl
  · rename_i htr
    exact hcrash htr
  · rename_i step htr
    obtain ⟨hfull, hdir⟩ := h.named step htr
    exact ⟨hfull, loadCheckpoint_auto htr hdir hfull⟩

/-- With no limit 1 and automatic resumption no other condition is left. -/
theorem auto_recoverable (hjob : ∀ part, job.maxCkptToKeep part ≠ some 1)
    (h : Reachable (trainer cfg) ResumesAuto (initial job) s)
    (hcrash : s.fs.tracker ≠ some none) : Recoverable cfg s.fs := by
  have hinit : AutoInv cfg (initial job) :=
    ⟨inv_initial cfg job, hjob, fun m hm => by cases hm⟩
  have hauto : AutoInv cfg s := h.invariant hinit autoInv_step
  exact hauto.inv.recoverable hcrash

/-- The job that resumes is killed at the same point again. -/
theorem auto_recoverable_twice : Recoverable oneRank
      (run (trainer oneRank) (initial (keep 2)) (firstSave ++ .save 2 :: actorSave ++
        .restart (keep 2) .auto :: .save 2 :: actorSave)).fs := by
  refine auto_recoverable (fun part => ?_) (reachable_run (by decide)) (by decide)
  cases part <;> decide

end Verl.Checkpoint
