import Verl.TransferQueue.Trainer

/-! # What a sample of the replay buffer contains

* `Inv`: how the TransferQueue, the listing the poll thread holds and the replay buffer
  agree with the prompt tasks and with the rows put and sampled so far.
* `sample_exact`: as long as no prompt is declared failed while one of its sessions is
  running and no listing is added with a row of the current step that was cleared and
  removed since, every sample is exactly the rows of its step that were not sampled
  before, all of them live, and no row is put after the sample. -/

namespace Verl.TransferQueue

open StepSystem List Function

/-! ## One pass of `sample` -/

variable {t s : State} {session outputs g uid : Nat} {part : Partition} {keys : List Key}
  {m : Store} {k : Key} {uids : List (Nat × Nat)} {p new : Prompt}

/-- When `sample` returns, no entry of the step is running and the keys are the
successful entries of the step. -/
theorem sampleLoop_eq_some {entries : List (Sigma fun _ : Key => Tag)}
    {acc : List Key} (h : sampleLoop g entries acc = .ok (some keys)) :
    (∀ e ∈ entries, e.2 ≠ ⟨some g, .running⟩) ∧
    keys = acc ++ (entries.filter fun e => e.2 = ⟨some g, .success⟩).map Sigma.fst := by
  induction entries generalizing acc with
  | nil =>
    cases h
    simp
  | cons e rest ih =>
    obtain ⟨k, ⟨steps, status⟩⟩ := e
    unfold sampleLoop at h
    cases steps with
    | none => cases h
    | some g' =>
      dsimp only at h
      by_cases hg : g' = g
      · subst hg
        rw [if_pos rfl] at h
        cases status with
        | running => cases h
        | success =>
          obtain ⟨hrun, rfl⟩ := ih h
          refine ⟨?_, by simp⟩
          intro e he
          rcases mem_cons.mp he with rfl | he
          · simp
          · exact hrun e he
        | finished | failure =>
          obtain ⟨hrun, rfl⟩ := ih h
          refine ⟨?_, by simp⟩
          intro e he
          rcases mem_cons.mp he with rfl | he
          · simp
          · exact hrun e he
      · grind

theorem sample_eq_some (h : sample m g = .ok (some keys)) :
    (∀ k, m.lookup k ≠ some ⟨some g, .running⟩) ∧ keys.Nodup ∧
    ∀ k, k ∈ keys ↔ m.lookup k = some ⟨some g, .success⟩ := by
  obtain ⟨hrun, hkeys⟩ := sampleLoop_eq_some h
  have hkeys : keys = m.keysWith fun t => t = ⟨some g, .success⟩ := hkeys
  refine ⟨?_, ?_, ?_⟩
  · intro k hk
    exact hrun _ (KVMap.mem_entries_iff.mpr hk) rfl
  · rw [hkeys]
    exact KVMap.nodup_keysWith _ m
  · intro k
    rw [hkeys, KVMap.mem_keysWith]
    constructor
    · simp
    · simp

/-! ## The invariant -/

/-- The rows of a store are rows that were put, with the tag of their prompt's step. -/
def RowsListed (s : State) (part : Partition) (m : Store) : Prop :=
  ∀ uid session index tag, m.lookup (.row uid session index) = some tag →
    .row uid session index ∈ s.produced ∧
    ∃ p, s.prompts uid = some p ∧ p.partition = part ∧ tag = ⟨some p.globalSteps, .success⟩

/-- The prompts of the TransferQueue or of a listing of it have put their status. -/
def StatusListed (s : State) (part : Partition) (m : Store) : Prop :=
  ∀ uid tag, m.lookup (.prompt uid) = some tag →
    ∃ p, s.prompts uid = some p ∧ p.partition = part ∧ p.status ≠ .running ∧
      tag = ⟨none, p.status⟩

/-- A prompt task, at a step of the main thread that waits for a sample of `awaiting`. -/
structure Prompt.Ok (globalSteps : Nat) (awaiting : Option Partition) (p : Prompt) : Prop where
  step_le : p.globalSteps ≤ globalSteps
  unsampled : p.sampled = false → awaiting = some p.partition ∧ p.globalSteps = globalSteps
  sampled_done : p.sampled = true → p.status ≠ .running
  done_quiet : p.status ≠ .running → p.running = []
  running_nodup : p.running.Nodup
  not_success : p.status ≠ .success

/-- What the stores say of the prompts. -/
structure StoresInv (s : State) : Prop where
  tq_rows : ∀ part, RowsListed s part (s.tq part)
  tq_status : ∀ part, StatusListed s part (s.tq part)
  listing_rows : ∀ part m, s.listing part = some m → RowsListed s part m
  listing_status : ∀ part m, s.listing part = some m → StatusListed s part m
  buffer_rows : ∀ part, RowsListed s part (s.replayBuffer part)
  buffer_known : ∀ part uid tag, (s.replayBuffer part).lookup (.prompt uid) = some tag →
    ∃ p, s.prompts uid = some p ∧ p.partition = part
  buffer_status : ∀ uid p, s.prompts uid = some p →
    ∃ status, (s.replayBuffer p.partition).lookup (.prompt uid) = some ⟨some p.globalSteps, status⟩ ∧
      (status = .running ∨ p.status ≠ .running ∧ status = p.status)

/-- Where the rows are. -/
structure RowsInv (s : State) : Prop where
  produced_row : ∀ k ∈ s.produced, ∃ uid session index p, k = .row uid session index ∧
    s.prompts uid = some p ∧ session ∉ p.running
  returned_produced : ∀ k ∈ s.returned, k ∈ s.produced
  live : ∀ k ∈ s.produced, k ∉ s.returned → ∀ p, s.prompts k.uid = some p →
    k ∈ s.tq p.partition
  returned_tq : ∀ part, ∀ k ∈ s.returned, k ∈ s.tq part →
    ∃ b, s.batch part = some b ∧ b.cleared = false ∧ k ∈ b.keys
  returned_buffer : ∀ part, ∀ k ∈ s.returned,
    (s.replayBuffer part).lookup k = some ⟨some s.globalSteps, .success⟩ →
    ∃ b, s.batch part = some b ∧ k ∈ b.keys
  listing_complete : ∀ part m, s.listing part = some m → ∀ k ∈ s.produced,
    Key.prompt k.uid ∈ m → k ∈ m ∨ k ∈ s.returned
  buffer_complete : ∀ part tag, ∀ k ∈ s.produced,
    (s.replayBuffer part).lookup (.prompt k.uid) = some tag → tag.status ≠ .running →
    k ∈ s.replayBuffer part ∨ k ∈ s.returned
  awaiting_batch : ∀ part, s.awaiting = some part → s.batch part = none
  batch_returned : ∀ part b, s.batch part = some b → ∀ k ∈ b.keys, k ∈ s.returned

structure Inv (s : State) : Prop where
  prompts : ∀ uid p, s.prompts uid = some p → p.Ok s.globalSteps s.awaiting
  stores : StoresInv s
  rows : RowsInv s

theorem inv_initial (g : Nat) : Inv (.initial g) := by
  refine ⟨?_, ?_, ?_⟩
  · rintro uid p ⟨⟩
  · constructor
    case tq_rows => rintro part uid session index tag ⟨⟩
    case tq_status => rintro part uid tag ⟨⟩
    case listing_rows => rintro part m ⟨⟩
    case listing_status => rintro part m ⟨⟩
    case buffer_rows => rintro part uid session index tag ⟨⟩
    case buffer_known => rintro part uid tag ⟨⟩
    case buffer_status => rintro uid p ⟨⟩
  · constructor
    case produced_row => rintro k ⟨⟩
    case returned_produced => rintro k ⟨⟩
    case live => rintro k ⟨⟩
    case returned_tq => rintro part k ⟨⟩
    case returned_buffer => rintro part k ⟨⟩
    case listing_complete => rintro part m ⟨⟩
    case buffer_complete => rintro part tag k ⟨⟩
    case awaiting_batch => exact fun _ _ => rfl
    case batch_returned => rintro part b ⟨⟩

/-! ## Prompts only evolve -/

/-- Nothing put is taken back, and a prompt that has put its status keeps it. -/
structure Extends (s t : State) : Prop where
  produced : ∀ k ∈ s.produced, k ∈ t.produced
  prompts : ∀ uid p, s.prompts uid = some p → ∃ q, t.prompts uid = some q ∧
    q.partition = p.partition ∧ q.globalSteps = p.globalSteps ∧
    (p.status ≠ .running → q.status = p.status)

theorem RowsListed.mono (h : RowsListed s part m) (hext : Extends s t) : RowsListed t part m := by
  intro uid session index tag htag
  obtain ⟨hprod, p, hp, hpart, rfl⟩ := h uid session index tag htag
  obtain ⟨q, hq, hqpart, hqstep, -⟩ := hext.prompts uid p hp
  exact ⟨hext.produced _ hprod, q, hq, hqpart.trans hpart, by rw [hqstep]⟩

theorem StatusListed.mono
    (h : StatusListed s part m) (hext : Extends s t) : StatusListed t part m := by
  intro uid tag htag
  obtain ⟨p, hp, hpart, hdone, rfl⟩ := h uid tag htag
  obtain ⟨q, hq, hqpart, -, hqstatus⟩ := hext.prompts uid p hp
  have hstatus := hqstatus hdone
  exact ⟨q, hq, hqpart.trans hpart, by rwa [hstatus], by rw [hstatus]⟩

theorem RowsListed.key (h : RowsListed s part m) (hk : k ∈ m) (hprod : k ∈ s.produced)
    (hinv : RowsInv s) (hp : s.prompts k.uid = some p) :
    p.partition = part ∧ m.lookup k = some ⟨some p.globalSteps, .success⟩ := by
  obtain ⟨uid, session, index, q, rfl, hq, -⟩ := hinv.produced_row k hprod
  obtain ⟨tag, htag⟩ := Option.isSome_iff_exists.mp (AList.lookup_isSome.mpr hk)
  obtain ⟨-, q', hq', hpart, rfl⟩ := h uid session index tag htag
  have heq : q' = p := by
    have : some q' = some p := hq'.symm.trans hp
    exact Option.some.inj this
  rw [← heq]
  exact ⟨hpart, htag⟩

/-! ## The main thread -/

/-- A prompt after a dispatch is an old one, or a new one without a past. -/
theorem prompts_generateSequences (part : Partition)
    (hfresh : ∀ u ∈ uids, s.prompts u.1 = none) (uid : Nat) :
    (∃ n, (uid, n) ∈ uids ∧ s.prompts uid = none ∧
      (s.generateSequences part uids).prompts uid = some {
        partition := part
        globalSteps := s.globalSteps
        running := range n
        failed := false
        status := .running
        sampled := false }) ∨
    ((∀ n, (uid, n) ∉ uids) ∧ (s.generateSequences part uids).prompts uid = s.prompts uid) := by
  unfold State.generateSequences
  dsimp only
  cases hlook : uids.lookup uid with
  | some n =>
    have hmem : (uid, n) ∈ uids := by
      obtain ⟨before, after, heq, -⟩ := lookup_eq_some_iff.mp hlook
      rw [heq]
      exact mem_append_right _ mem_cons_self
    exact .inl ⟨n, hmem, hfresh _ hmem, rfl⟩
  | none =>
    refine .inr ⟨?_, rfl⟩
    grind

theorem lookup_generateSequences (s : State) (part : Partition) (uids : List (Nat × Nat))
    (part' : Partition) (k : Key) :
    ((s.generateSequences part uids).replayBuffer part').lookup k =
      if part' = part ∧ k ∈ uids.map (fun u => Key.prompt u.1) then
        some ⟨some s.globalSteps, .running⟩
      else (s.replayBuffer part').lookup k := by
  have hdef : (s.generateSequences part uids).replayBuffer = update s.replayBuffer part
      (add (KVMap.ofKeys (uids.map fun u => .prompt u.1) ⟨some s.globalSteps, .running⟩)
        (s.replayBuffer part)) := rfl
  rw [hdef]
  by_cases hpart : part' = part
  · subst hpart
    rw [update_self, add, KVMap.lookup_mergeAll, KVMap.lookup_ofKeys]
    by_cases hk : k ∈ uids.map fun u => Key.prompt u.1
    · rw [if_pos hk, if_pos ⟨rfl, hk⟩]
      rfl
    · rw [if_neg hk, if_neg (fun h => hk h.2)]
  · grind

theorem prompts_of_generateSequences (part : Partition) (hfresh : ∀ u ∈ uids, s.prompts u.1 = none)
    (hp : s.prompts uid = some p) : (s.generateSequences part uids).prompts uid = some p := by
  rcases prompts_generateSequences part hfresh uid with ⟨n, -, hnone, -⟩ | ⟨-, heq⟩
  · grind
  · rw [heq, hp]

theorem lookup_prompt_generateSequences (part : Partition)
    (hfresh : ∀ u ∈ uids, s.prompts u.1 = none) (part' : Partition) (hp : s.prompts uid = some p) :
    ((s.generateSequences part uids).replayBuffer part').lookup (.prompt uid)
      = (s.replayBuffer part').lookup (.prompt uid) := by
  rw [lookup_generateSequences, if_neg]
  rintro ⟨-, hmem⟩
  obtain ⟨u, hu, heq⟩ := mem_map.mp hmem
  cases heq
  rw [hfresh u hu] at hp
  cases hp

theorem lookup_row_generateSequences (s : State) (part : Partition) (uids : List (Nat × Nat))
    (part' : Partition) (uid session index : Nat) :
    ((s.generateSequences part uids).replayBuffer part').lookup (.row uid session index)
      = (s.replayBuffer part').lookup (.row uid session index) := by
  rw [lookup_generateSequences, if_neg]
  rintro ⟨-, hmem⟩
  obtain ⟨u, -, heq⟩ := mem_map.mp hmem
  cases heq

theorem StoresInv.of_generateSequences
    (h : StoresInv s) (hfresh : ∀ u ∈ uids, s.prompts u.1 = none) :
    StoresInv (s.generateSequences part uids) := by
  have hcases := prompts_generateSequences part hfresh
  have hext : Extends s (s.generateSequences part uids) := ⟨fun k hk => hk, fun uid p hp =>
    ⟨p, prompts_of_generateSequences part hfresh hp, rfl, rfl, fun _ => rfl⟩⟩
  constructor
  case tq_rows => exact fun part' => (h.tq_rows part').mono hext
  case tq_status => exact fun part' => (h.tq_status part').mono hext
  case listing_rows => exact fun part' m hm => (h.listing_rows part' m hm).mono hext
  case listing_status => exact fun part' m hm => (h.listing_status part' m hm).mono hext
  case buffer_rows =>
    intro part' uid session index tag htag
    rw [lookup_row_generateSequences] at htag
    exact (h.buffer_rows part').mono hext uid session index tag htag
  case buffer_known =>
    intro part' uid tag htag
    rw [lookup_generateSequences] at htag
    split at htag
    · grind
    · obtain ⟨p, hp, hpart⟩ := h.buffer_known part' uid tag htag
      exact ⟨p, prompts_of_generateSequences part hfresh hp, hpart⟩
  case buffer_status =>
    intro uid p hp
    rcases hcases uid with ⟨n, hmem, -, heq⟩ | ⟨-, heq⟩
    · rw [heq] at hp
      cases hp
      refine ⟨.running, ?_, .inl rfl⟩
      rw [lookup_generateSequences, if_pos]
      exact ⟨rfl, mem_map.mpr ⟨_, hmem, rfl⟩⟩
    · rw [heq] at hp
      obtain ⟨status, hlook, hstatus⟩ := h.buffer_status uid p hp
      exact ⟨status, by
        rw [lookup_prompt_generateSequences part hfresh _ hp, hlook], hstatus⟩

theorem RowsInv.of_generateSequences
    (h : RowsInv s) (hbatch : s.batch part = none) (hfresh : ∀ u ∈ uids, s.prompts u.1 = none) :
    RowsInv (s.generateSequences part uids) := by
  refine { h with
    produced_row := ?produced_row, live := ?live, returned_buffer := ?returned_buffer,
    buffer_complete := ?buffer_complete, awaiting_batch := ?awaiting_batch }
  case produced_row =>
    intro k hk
    obtain ⟨uid, session, index, p, rfl, hp, hnot⟩ := h.produced_row k hk
    exact ⟨uid, session, index, p, rfl, prompts_of_generateSequences part hfresh hp, hnot⟩
  case live =>
    intro k hk hret p hp
    obtain ⟨uid, session, index, q, rfl, hq, -⟩ := h.produced_row k hk
    have heq : some q = some p := (prompts_of_generateSequences part hfresh hq).symm.trans hp
    cases heq
    exact h.live _ hk hret p hq
  case returned_buffer =>
    intro part' k hk hlook
    obtain ⟨uid, session, index, q, rfl, -, -⟩ :=
      h.produced_row k (h.returned_produced k hk)
    rw [lookup_row_generateSequences] at hlook
    exact h.returned_buffer part' _ hk hlook
  case buffer_complete =>
    intro part' tag k hk hlook hstatus
    obtain ⟨uid, session, index, q, rfl, hq, -⟩ := h.produced_row k hk
    have hlook : ((s.generateSequences part uids).replayBuffer part').lookup (.prompt uid)
        = some tag := hlook
    rw [lookup_prompt_generateSequences part hfresh part' hq] at hlook
    rcases h.buffer_complete part' tag _ hk hlook hstatus with hin | hret
    · left
      rw [← AList.lookup_isSome, lookup_row_generateSequences, AList.lookup_isSome]
      exact hin
    · exact .inr hret
  case awaiting_batch =>
    rintro part' ⟨⟩
    exact hbatch

theorem inv_generateSequences (h : Inv s) (hidle : s.awaiting = none) (hbatch : s.batch part = none)
    (hfresh : ∀ u ∈ uids, s.prompts u.1 = none) : Inv (s.generateSequences part uids) := by
  have hsampled : ∀ uid p, s.prompts uid = some p → p.sampled = true := by
    intro uid p hp
    by_contra hne
    have := ((h.prompts uid p hp).unsampled (by simpa using hne)).1
    rw [hidle] at this
    cases this
  refine ⟨fun uid p hp => ?_, h.stores.of_generateSequences hfresh,
    h.rows.of_generateSequences hbatch hfresh⟩
  rcases prompts_generateSequences part hfresh uid with ⟨n, -, -, heq⟩ | ⟨-, heq⟩
  · rw [heq] at hp
    cases hp
    exact ⟨Nat.le_refl _, fun _ => ⟨rfl, rfl⟩, by rintro ⟨⟩, fun hne => absurd rfl hne,
      nodup_range, by rintro ⟨⟩⟩
  · rw [heq] at hp
    have hok := h.prompts uid p hp
    have hs := hsampled uid p hp
    exact ⟨hok.step_le, fun hun => by simp [hs] at hun, hok.sampled_done, hok.done_quiet,
      hok.running_nodup, hok.not_success⟩

/-! ## The session and prompt tasks -/

theorem prompts_updatePrompt (hp : s.prompts uid = some p) (f : Prompt → Prompt) (u : Nat) :
    (u = uid ∧ (s.updatePrompt uid f).prompts u = some (f p)) ∨
    (u ≠ uid ∧ (s.updatePrompt uid f).prompts u = s.prompts u) := by
  have hdef : (s.updatePrompt uid f).prompts u
      = if u = uid then (s.prompts u).map f else s.prompts u := rfl
  by_cases hu : u = uid
  · grind
  · exact .inr ⟨hu, by rw [hdef, if_neg hu]⟩

/-- A task that changes only its own prompt, and there neither the partition nor the step. -/
theorem extends_updatePrompt {f : Prompt → Prompt} (hp : s.prompts uid = some p)
    (ht : t.prompts = (s.updatePrompt uid f).prompts) (hprod : ∀ k ∈ s.produced, k ∈ t.produced)
    (hpart : (f p).partition = p.partition) (hstep : (f p).globalSteps = p.globalSteps)
    (hstatus : p.status ≠ .running → (f p).status = p.status) : Extends s t := by
  refine ⟨hprod, fun u q hq => ?_⟩
  rcases prompts_updatePrompt hp f u with ⟨rfl, heq⟩ | ⟨-, heq⟩
  · grind
  · exact ⟨q, by rw [ht, heq, hq], rfl, rfl, fun _ => rfl⟩

/-- A prompt whose session is still running has not put its status. -/
theorem Prompt.Ok.status_of_mem {aw : Option Partition}
    (h : p.Ok g aw) (hrun : session ∈ p.running) : p.status = .running := by
  by_contra hne
  rw [h.done_quiet hne] at hrun
  cases hrun

/-- The stores after a task that leaves the listing and the buffer alone. -/
theorem StoresInv.of_task (h : StoresInv s) (hp : s.prompts uid = some p) (hext : Extends s t)
    (hprompts : ∀ u, (u = uid ∧ t.prompts u = some new) ∨ (u ≠ uid ∧ t.prompts u = s.prompts u))
    (hlisting : t.listing = s.listing) (hbuffer : t.replayBuffer = s.replayBuffer)
    (hrows : ∀ part, RowsListed t part (t.tq part))
    (hstatus : ∀ part, StatusListed t part (t.tq part)) : StoresInv t := by
  constructor
  case tq_rows => exact hrows
  case tq_status => exact hstatus
  case listing_rows =>
    intro part m hm
    rw [hlisting] at hm
    exact (h.listing_rows part m hm).mono hext
  case listing_status =>
    intro part m hm
    rw [hlisting] at hm
    exact (h.listing_status part m hm).mono hext
  case buffer_rows =>
    intro part
    rw [hbuffer]
    exact (h.buffer_rows part).mono hext
  case buffer_known =>
    intro part u tag htag
    rw [hbuffer] at htag
    obtain ⟨q, hq, hpart⟩ := h.buffer_known part u tag htag
    obtain ⟨q', hq', hpart', -⟩ := hext.prompts u q hq
    exact ⟨q', hq', hpart'.trans hpart⟩
  case buffer_status =>
    intro u q hq
    rw [hbuffer]
    have hold : ∃ q', s.prompts u = some q' := by grind
    obtain ⟨q', hq'⟩ := hold
    obtain ⟨q'', hq'', hpart, hstep, hkeep⟩ := hext.prompts u q' hq'
    have hqq : q'' = q := Option.some.inj (hq''.symm.trans hq)
    subst hqq
    obtain ⟨status, hlook, hor⟩ := h.buffer_status u q' hq'
    rw [hpart, hstep]
    refine ⟨status, hlook, ?_⟩
    rcases hor with hrun | ⟨hne, heq⟩
    · exact .inl hrun
    · grind

section

variable (h : RowsInv s) (hp : s.prompts uid = some p)
  (hprompts : ∀ u, (u = uid ∧ t.prompts u = some new) ∨ (u ≠ uid ∧ t.prompts u = s.prompts u))
include h hp hprompts

/-- A row put earlier, after a task that ends no session but its own. -/
theorem produced_row_of_task (hrunning : ∀ session, session ∈ new.running → session ∈ p.running) :
    ∀ k ∈ s.produced, ∃ u session index q, k = .row u session index ∧
      t.prompts u = some q ∧ session ∉ q.running := by
  intro k hk
  obtain ⟨u, session, index, q, rfl, hq, hnot⟩ := h.produced_row k hk
  rcases hprompts u with ⟨rfl, heq⟩ | ⟨-, heq⟩
  · grind
  · exact ⟨u, session, index, q, rfl, by rw [heq, hq], hnot⟩

/-- A live row is live under the prompt's new record. -/
theorem live_of_task (hpart : new.partition = p.partition) :
    ∀ k ∈ s.produced, k ∉ s.returned → ∀ q, t.prompts k.uid = some q → k ∈ s.tq q.partition := by
  intro k hk hret q hq
  rcases hprompts k.uid with ⟨hu, heq⟩ | ⟨-, heq⟩
  · rw [heq] at hq
    cases hq
    rw [hpart]
    exact h.live k hk hret p (hu ▸ hp)
  · rw [heq] at hq
    exact h.live k hk hret q hq

end

/-- The buffer lists a prompt as running as long as the prompt task has put nothing. -/
theorem buffer_status_of_running (h : Inv s)
    {tag : Tag} (hp : s.prompts uid = some p) (hrun : p.status = .running)
    (hlook : (s.replayBuffer part).lookup (.prompt uid) = some tag) : tag.status = .running := by
  obtain ⟨q, hq, hpart⟩ := h.stores.buffer_known part uid tag hlook
  have hqp : q = p := Option.some.inj (hq.symm.trans hp)
  subst hqp hpart
  obtain ⟨status, hlook', hstatus⟩ := h.stores.buffer_status uid q hp
  rw [hlook'] at hlook
  cases hlook
  rcases hstatus with hs | ⟨hne, -⟩
  · exact hs
  · exact absurd hrun hne

theorem inv_sessionFail (h : Inv s) (hp : s.prompts uid = some p) (hmem : session ∈ p.running) :
    Inv (s.updatePrompt uid fun p =>
      { p with running := p.running.erase session, failed := true }) := by
  have hok := h.prompts uid p hp
  have hrun := hok.status_of_mem hmem
  have hcases := prompts_updatePrompt hp fun p =>
    { p with running := p.running.erase session, failed := true }
  have hext := extends_updatePrompt (t := s.updatePrompt uid fun p =>
    { p with running := p.running.erase session, failed := true }) hp rfl (fun k hk => hk) rfl rfl
    (fun _ => rfl)
  refine ⟨?_, ?_, ?_⟩
  · intro u q hq
    rcases hcases u with ⟨rfl, heq⟩ | ⟨-, heq⟩
    · rw [heq] at hq
      cases hq
      exact ⟨hok.step_le, hok.unsampled, hok.sampled_done, fun hne => absurd hrun hne,
        hok.running_nodup.erase _, hok.not_success⟩
    · rw [heq] at hq
      exact h.prompts u q hq
  · exact h.stores.of_task hp hext hcases rfl rfl
      (fun part => (h.stores.tq_rows part).mono hext)
      (fun part => (h.stores.tq_status part).mono hext)
  · refine { h.rows with produced_row := ?produced_row, live := ?live }
    case produced_row =>
      exact fun k hk => produced_row_of_task h.rows hp hcases
        (fun _ hin => mem_of_mem_erase hin) k hk
    case live => exact fun k hk => live_of_task h.rows hp hcases rfl k hk

theorem mem_outputKeys :
    k ∈ State.outputKeys uid session outputs ↔ ∃ i < outputs, k = .row uid session i := by
  unfold State.outputKeys
  constructor
  · grind
  · grind

theorem lookup_putRows (s : State) (uid session outputs : Nat) (p : Prompt) (part : Partition)
    (k : Key) :
    ((s.putRows uid session outputs p).tq part).lookup k =
      if part = p.partition ∧ k ∈ State.outputKeys uid session outputs then
        some ⟨some p.globalSteps, .success⟩
      else (s.tq part).lookup k := by
  have hdef : (s.putRows uid session outputs p).tq = update s.tq p.partition
      (KVMap.putKeys (State.outputKeys uid session outputs) ⟨some p.globalSteps, .success⟩
        (s.tq p.partition)) := rfl
  rw [hdef]
  by_cases hpart : part = p.partition
  · subst hpart
    rw [update_self, KVMap.lookup_putKeys]
    by_cases hk : k ∈ State.outputKeys uid session outputs
    · rw [if_pos hk, if_pos ⟨rfl, hk⟩]
    · rw [if_neg hk, if_neg (fun h => hk h.2)]
  · grind

theorem prompts_putRows (hp : s.prompts uid = some p) (session outputs u : Nat) :
    (u = uid ∧ (s.putRows uid session outputs p).prompts u =
        some { p with running := p.running.erase session }) ∨
      (u ≠ uid ∧ (s.putRows uid session outputs p).prompts u = s.prompts u) :=
  prompts_updatePrompt hp (fun p => { p with running := p.running.erase session }) u

theorem mem_produced_putRows : k ∈ (s.putRows uid session outputs p).produced ↔
      k ∈ s.produced ∨ k ∈ State.outputKeys uid session outputs := mem_append

theorem extends_putRows (hp : s.prompts uid = some p)
    (session outputs : Nat) : Extends s (s.putRows uid session outputs p) :=
  extends_updatePrompt hp rfl (fun _ hk => mem_produced_putRows.mpr (.inl hk)) rfl rfl
    (fun _ => rfl)

theorem StoresInv.of_putRows (h : StoresInv s) (hp : s.prompts uid = some p) :
    StoresInv (s.putRows uid session outputs p) := by
  have hext := extends_putRows hp session outputs
  refine h.of_task hp hext (prompts_putRows hp session outputs) rfl rfl ?_ ?_
  · intro part u session' index tag htag
    rw [lookup_putRows] at htag
    split at htag
    · next hin =>
      obtain ⟨rfl, hk⟩ := hin
      cases htag
      obtain ⟨i, -, heq⟩ := mem_outputKeys.mp hk
      cases heq
      obtain ⟨q, hq, hpart, hstep, -⟩ := hext.prompts uid p hp
      exact ⟨mem_produced_putRows.mpr (.inr hk), q, hq, hpart, by rw [hstep]⟩
    · exact (h.tq_rows part).mono hext u session' index tag htag
  · intro part u tag htag
    rw [lookup_putRows, if_neg] at htag
    · exact (h.tq_status part).mono hext u tag htag
    · rintro ⟨-, hk⟩
      obtain ⟨i, -, heq⟩ := mem_outputKeys.mp hk
      cases heq

theorem RowsInv.of_putRows (h : Inv s) (hp : s.prompts uid = some p) (hmem : session ∈ p.running) :
    RowsInv (s.putRows uid session outputs p) := by
  have hok := h.prompts uid p hp
  have hrun := hok.status_of_mem hmem
  have hcases := prompts_putRows hp session outputs
  -- a session puts its rows once
  have hnew : ∀ k ∈ State.outputKeys uid session outputs, k ∉ s.produced := by
    intro k hk hold
    obtain ⟨i, -, rfl⟩ := mem_outputKeys.mp hk
    obtain ⟨u, session', index, q, heq, hq, hnot⟩ := h.rows.produced_row _ hold
    cases heq
    have hqp : q = p := Option.some.inj (hq.symm.trans hp)
    exact hnot (hqp ▸ hmem)
  have hkeep : ∀ part, ∀ k ∈ s.tq part, k ∈ (s.putRows uid session outputs p).tq part := by
    intro part k hk
    rw [← AList.lookup_isSome, lookup_putRows]
    split
    · rfl
    · exact AList.lookup_isSome.mpr hk
  refine { h.rows with
    produced_row := ?produced_row, returned_produced := ?returned_produced, live := ?live,
    returned_tq := ?returned_tq, listing_complete := ?listing_complete,
    buffer_complete := ?buffer_complete }
  case produced_row =>
    intro k hk
    rcases mem_produced_putRows.mp hk with hk | hk
    · exact produced_row_of_task h.rows hp hcases (fun _ hin => mem_of_mem_erase hin) k hk
    · obtain ⟨i, -, rfl⟩ := mem_outputKeys.mp hk
      rcases hcases uid with ⟨-, heq⟩ | ⟨hne, -⟩
      · exact ⟨uid, session, i, _, rfl, heq, hok.running_nodup.not_mem_erase⟩
      · exact absurd rfl hne
  case returned_produced =>
    exact fun k hk => mem_produced_putRows.mpr (.inl (h.rows.returned_produced k hk))
  case live =>
    intro k hk hret q hq
    rcases mem_produced_putRows.mp hk with hold | hnewk
    · exact hkeep _ k (live_of_task h.rows hp hcases rfl k hold hret q hq)
    · obtain ⟨i, -, rfl⟩ := mem_outputKeys.mp hnewk
      rcases hcases uid with ⟨-, heq⟩ | ⟨hne, -⟩
      · have hqp : some q = some { p with running := p.running.erase session } :=
          hq.symm.trans heq
        cases hqp
        rw [← AList.lookup_isSome, lookup_putRows, if_pos ⟨rfl, hnewk⟩]
        rfl
      · exact absurd rfl hne
  case returned_tq =>
    intro part k hk htq
    rw [← AList.lookup_isSome, lookup_putRows] at htq
    split at htq
    · next hin => exact absurd (h.rows.returned_produced k hk) (hnew k hin.2)
    · exact h.rows.returned_tq part k hk (AList.lookup_isSome.mp htq)
  case listing_complete =>
    intro part m hm k hk hin
    rcases mem_produced_putRows.mp hk with hold | hnewk
    · exact h.rows.listing_complete part m hm k hold hin
    · obtain ⟨i, -, rfl⟩ := mem_outputKeys.mp hnewk
      obtain ⟨tag, htag⟩ := Option.isSome_iff_exists.mp (AList.lookup_isSome.mpr hin)
      obtain ⟨q, hq, -, hdone, -⟩ := h.stores.listing_status part m hm uid tag htag
      have hqp : q = p := Option.some.inj (hq.symm.trans hp)
      exact absurd (hqp ▸ hrun) hdone
  case buffer_complete =>
    intro part tag k hk hlook hstatus
    rcases mem_produced_putRows.mp hk with hold | hnewk
    · exact h.rows.buffer_complete part tag k hold hlook hstatus
    · obtain ⟨i, -, rfl⟩ := mem_outputKeys.mp hnewk
      exact absurd (buffer_status_of_running h hp hrun hlook) hstatus

theorem inv_putRows (h : Inv s) (hp : s.prompts uid = some p) (hmem : session ∈ p.running) :
    Inv (s.putRows uid session outputs p) := by
  have hok := h.prompts uid p hp
  have hrun := hok.status_of_mem hmem
  refine ⟨fun u q hq => ?_, h.stores.of_putRows hp, RowsInv.of_putRows h hp hmem⟩
  rcases prompts_putRows hp session outputs u with ⟨rfl, heq⟩ | ⟨-, heq⟩
  · rw [heq] at hq
    cases hq
    exact ⟨hok.step_le, hok.unsampled, hok.sampled_done, fun hne => absurd hrun hne,
      hok.running_nodup.erase _, hok.not_success⟩
  · rw [heq] at hq
    exact h.prompts u q hq

theorem lookup_putStatus (s : State) (uid : Nat) (status : Status) (p : Prompt)
    (part : Partition) (k : Key) :
    ((s.putStatus uid status p).tq part).lookup k =
      if part = p.partition ∧ k = .prompt uid then some ⟨none, status⟩
      else (s.tq part).lookup k := by
  have hdef : (s.putStatus uid status p).tq = update s.tq p.partition
      ((s.tq p.partition).insert (.prompt uid) ⟨none, status⟩) := rfl
  rw [hdef]
  by_cases hpart : part = p.partition
  · subst hpart
    rw [update_self]
    by_cases hk : k = .prompt uid
    · subst hk
      rw [AList.lookup_insert, if_pos ⟨rfl, rfl⟩]
    · rw [AList.lookup_insert_ne hk, if_neg (fun h => hk h.2)]
  · grind

/-- A prompt task puts its status after all its sessions have ended. -/
theorem inv_putStatus {status : Status} (h : Inv s)
    (hp : s.prompts uid = some p) (hrun : p.status = .running) (hquiet : p.running = [])
    (hne : status ≠ .running) (hns : status ≠ .success) : Inv (s.putStatus uid status p) := by
  have hok := h.prompts uid p hp
  have hcases : ∀ u, (u = uid ∧ (s.putStatus uid status p).prompts u
        = some { p with status := status }) ∨
      (u ≠ uid ∧ (s.putStatus uid status p).prompts u = s.prompts u) :=
    prompts_updatePrompt hp fun p => { p with status := status }
  have hext : Extends s (s.putStatus uid status p) :=
    extends_updatePrompt hp rfl (fun k hk => hk) rfl rfl (fun hdone => absurd hrun hdone)
  have hrow : ∀ part u session index, ((s.putStatus uid status p).tq part).lookup
      (.row u session index) = (s.tq part).lookup (.row u session index) := by
    simp [lookup_putStatus, if_neg]
  have hmem : ∀ part, ∀ k ∈ s.produced,
      (k ∈ (s.putStatus uid status p).tq part ↔ k ∈ s.tq part) := by
    intro part k hk
    obtain ⟨u, session, index, q, rfl, -, -⟩ := h.rows.produced_row k hk
    rw [← AList.lookup_isSome, hrow, AList.lookup_isSome]
  refine ⟨?_, ?_, ?_⟩
  · intro u q hq
    rcases hcases u with ⟨rfl, heq⟩ | ⟨-, heq⟩
    · rw [heq] at hq
      cases hq
      exact ⟨hok.step_le, hok.unsampled, fun _ => hne, fun _ => hquiet, hok.running_nodup, hns⟩
    · rw [heq] at hq
      exact h.prompts u q hq
  · refine h.stores.of_task hp hext hcases rfl rfl ?_ ?_
    · intro part u session index tag htag
      rw [hrow] at htag
      exact (h.stores.tq_rows part).mono hext u session index tag htag
    · intro part u tag htag
      rw [lookup_putStatus] at htag
      split at htag
      · grind
      · exact (h.stores.tq_status part).mono hext u tag htag
  · refine { h.rows with produced_row := ?produced_row, live := ?live, returned_tq := ?returned_tq }
    case produced_row =>
      exact fun k hk => produced_row_of_task h.rows hp hcases (fun _ hin => hin) k hk
    case live =>
      intro k hk hret q hq
      exact (hmem _ k hk).mpr (live_of_task h.rows hp hcases rfl k hk hret q hq)
    case returned_tq =>
      intro part k hk htq
      exact h.rows.returned_tq part k hk ((hmem part k (h.rows.returned_produced k hk)).mp htq)

/-! ## The poll thread -/

theorem inv_pollList (h : Inv s) : Inv { s with listing := fun part => some (s.tq part) } := by
  refine ⟨h.prompts, ?_, ?_⟩
  · refine { h.stores with listing_rows := ?listing_rows, listing_status := ?listing_status }
    case listing_rows =>
      rintro part m ⟨⟩
      exact h.stores.tq_rows part
    case listing_status =>
      rintro part m ⟨⟩
      exact h.stores.tq_status part
  · refine { h.rows with listing_complete := ?listing_complete }
    case listing_complete =>
      rintro part m ⟨⟩ k hk hin
      by_cases hret : k ∈ s.returned
      · exact .inr hret
      · left
        obtain ⟨tag, htag⟩ := Option.isSome_iff_exists.mp (AList.lookup_isSome.mpr hin)
        obtain ⟨p, hp, rfl, -⟩ := h.stores.tq_status part k.uid tag htag
        exact h.rows.live k hk hret p hp

/-- No row of the current step in the listing was cleared and removed since. -/
def ListingCurrent (s : State) (part : Partition) (m : Store) : Prop :=
  ∀ e ∈ m.entries, e.2.globalSteps = some s.globalSteps →
    e.1 ∈ s.tq part ∨ e.1 ∈ s.replayBuffer part

/-- The poll thread adds the listing of a partition. -/
def addListing (s : State) (part : Partition) (m : Store) : State :=
  { s with
    replayBuffer := Function.update s.replayBuffer part (add m (s.replayBuffer part))
    listing := Function.update s.listing part none }

theorem lookup_addListing (s : State) (part : Partition) (m : Store) (part' : Partition) (k : Key) :
    ((addListing s part m).replayBuffer part').lookup k =
      if part' = part then
        match m.lookup k with
        | none => (s.replayBuffer part').lookup k
        | some tag => some (Tag.update ((s.replayBuffer part').lookup k) tag)
      else (s.replayBuffer part').lookup k := by
  have hdef : (addListing s part m).replayBuffer
      = update s.replayBuffer part (add m (s.replayBuffer part)) := rfl
  rw [hdef]
  by_cases hpart : part' = part
  · subst hpart
    rw [update_self, if_pos rfl, add, KVMap.lookup_mergeAll]
    cases m.lookup k <;> rfl
  · grind

theorem listing_addListing {part' : Partition} {m' : Store}
    (h : (addListing s part m).listing part' = some m') : s.listing part' = some m' := by
  have hdef : (addListing s part m).listing = update s.listing part none := rfl
  rw [hdef] at h
  by_cases hpart : part' = part
  · grind
  · rwa [update_of_ne hpart] at h

/-- The stores after a listing, which has the status that a prompt task has put. -/
theorem StoresInv.of_addListing (h : StoresInv s)
    (hm : s.listing part = some m) : StoresInv (addListing s part m) := by
  have hlook := lookup_addListing s part m
  refine { h with
    listing_rows := ?listing_rows, listing_status := ?listing_status,
    buffer_rows := ?buffer_rows, buffer_known := ?buffer_known, buffer_status := ?buffer_status }
  case listing_rows =>
    exact fun part' m' hm' => h.listing_rows part' m' (listing_addListing hm')
  case listing_status =>
    exact fun part' m' hm' => h.listing_status part' m' (listing_addListing hm')
  case buffer_rows =>
    intro part' uid session index tag htag
    rw [hlook] at htag
    split at htag
    · next hpart =>
      subst hpart
      split at htag
      · exact h.buffer_rows part' uid session index tag htag
      · next tag' htag' =>
        obtain ⟨hprod, p, hp, hpart, rfl⟩ :=
          h.listing_rows part' m hm uid session index tag' htag'
        cases htag
        exact ⟨hprod, p, hp, hpart, rfl⟩
    · exact h.buffer_rows part' uid session index tag htag
  case buffer_known =>
    intro part' uid tag htag
    rw [hlook] at htag
    split at htag
    · next hpart =>
      subst hpart
      split at htag
      · exact h.buffer_known part' uid tag htag
      · next tag' htag' =>
        obtain ⟨p, hp, hpart, -⟩ := h.listing_status part' m hm uid tag' htag'
        exact ⟨p, hp, hpart⟩
    · exact h.buffer_known part' uid tag htag
  case buffer_status =>
    intro uid p hp
    obtain ⟨status, hold, hor⟩ := h.buffer_status uid p hp
    rw [hlook]
    split
    · next hpart =>
      split
      · exact ⟨status, hold, hor⟩
      · next tag' htag' =>
        -- the listing has the status that the prompt task has put
        obtain ⟨q, hq, -, hdone, rfl⟩ := h.listing_status part m hm uid tag' htag'
        have hqp : q = p := Option.some.inj (hq.symm.trans hp)
        subst hqp
        rw [hold]
        exact ⟨q.status, rfl, .inr ⟨hdone, rfl⟩⟩
    · exact ⟨status, hold, hor⟩

theorem RowsInv.of_addListing (h : RowsInv s)
    (hstores : StoresInv s) (hm : s.listing part = some m) (hcur : ListingCurrent s part m) :
    RowsInv (addListing s part m) := by
  have hlook := lookup_addListing s part m
  have hgrow : ∀ part', ∀ k ∈ s.replayBuffer part',
      k ∈ (addListing s part m).replayBuffer part' := by
    intro part' k hk
    rw [← AList.lookup_isSome, hlook]
    split
    · split
      · exact AList.lookup_isSome.mpr hk
      · rfl
    · exact AList.lookup_isSome.mpr hk
  refine { h with
    returned_buffer := ?returned_buffer, listing_complete := ?listing_complete,
    buffer_complete := ?buffer_complete }
  case returned_buffer =>
    intro part' k hk htag
    rw [hlook] at htag
    split at htag
    · next hpart =>
      subst hpart
      split at htag
      · exact h.returned_buffer part' k hk htag
      · next tag' htag' =>
        obtain ⟨uid, session, index, q, rfl, hq, -⟩ :=
          h.produced_row k (h.returned_produced k hk)
        obtain ⟨-, p, hp, -, rfl⟩ :=
          hstores.listing_rows part' m hm uid session index tag' htag'
        have hstep : p.globalSteps = s.globalSteps := by
          have hupd : some p.globalSteps = some s.globalSteps :=
            congrArg Tag.globalSteps (Option.some.inj htag)
          exact Option.some.inj hupd
        rcases hcur _ (KVMap.mem_entries_iff.mpr htag') (by rw [hstep]) with hin | hin
        · obtain ⟨b, hb, -, hkb⟩ := h.returned_tq part' _ hk hin
          exact ⟨b, hb, hkb⟩
        · obtain ⟨tag, hbuf⟩ := Option.isSome_iff_exists.mp (AList.lookup_isSome.mpr hin)
          obtain ⟨-, p', hp', -, rfl⟩ :=
            hstores.buffer_rows part' uid session index tag hbuf
          have hpp : p' = p := Option.some.inj (hp'.symm.trans hp)
          rw [hpp, hstep] at hbuf
          exact h.returned_buffer part' _ hk hbuf
    · exact h.returned_buffer part' k hk htag
  case listing_complete =>
    exact fun part' m' hm' => h.listing_complete part' m' (listing_addListing hm')
  case buffer_complete =>
    intro part' tag k hk htag hstatus
    rw [hlook] at htag
    split at htag
    · next hpart =>
      subst hpart
      split at htag
      · rcases h.buffer_complete part' tag k hk htag hstatus with hin | hret
        · exact .inl (hgrow part' k hin)
        · exact .inr hret
      · next tag' htag' =>
        have hin : Key.prompt k.uid ∈ m := AList.lookup_isSome.mp (by rw [htag']; rfl)
        rcases h.listing_complete part' m hm k hk hin with hkm | hret
        · left
          obtain ⟨tag'', hk'⟩ := Option.isSome_iff_exists.mp (AList.lookup_isSome.mpr hkm)
          rw [← AList.lookup_isSome, hlook, if_pos rfl, hk']
          rfl
        · exact .inr hret
    · rcases h.buffer_complete part' tag k hk htag hstatus with hin | hret
      · exact .inl (hgrow part' k hin)
      · exact .inr hret

theorem inv_addListing (h : Inv s) (hm : s.listing part = some m) (hcur : ListingCurrent s part m) :
    Inv (addListing s part m) :=
  ⟨h.prompts, h.stores.of_addListing hm, h.rows.of_addListing h.stores hm hcur⟩

/-! ## Samples, clears and removals -/

theorem sample_spec (h : Inv s) (hawait : s.awaiting = some part)
    (hsample : sample (s.replayBuffer part) s.globalSteps = .ok (some keys)) :
    keys.Nodup ∧
    (∀ uid p, s.prompts uid = some p → p.partition = part → p.globalSteps = s.globalSteps →
      p.status ≠ .running) ∧
    (∀ k, k ∈ keys ↔ k ∈ s.produced ∧ k ∉ s.returned ∧ ∃ p, s.prompts k.uid = some p ∧
      p.partition = part ∧ p.globalSteps = s.globalSteps) := by
  obtain ⟨hnorun, hnodup, hkeys⟩ := sample_eq_some hsample
  have hdone : ∀ uid p, s.prompts uid = some p → p.partition = part →
      p.globalSteps = s.globalSteps → p.status ≠ .running := by
    intro uid p hp hpart hstep hrun
    obtain ⟨status, hlook, hor⟩ := h.stores.buffer_status uid p hp
    rcases hor with rfl | ⟨hne, -⟩
    · grind
    · exact hne hrun
  refine ⟨hnodup, hdone, fun k => ?_⟩
  rw [hkeys]
  constructor
  · intro hlook
    -- a prompt never has the status of a row
    have hrow : ∃ uid session index, k = .row uid session index := by
      cases k with
      | row uid session index => exact ⟨uid, session, index, rfl⟩
      | prompt uid =>
        obtain ⟨p, hp, rfl⟩ := h.stores.buffer_known part uid _ hlook
        obtain ⟨status, hlook', hor⟩ := h.stores.buffer_status uid p hp
        rw [hlook] at hlook'
        have hstatus : Status.success = status := congrArg Tag.status (Option.some.inj hlook')
        subst hstatus
        rcases hor with ⟨⟨⟩⟩ | ⟨-, heq⟩
        exact absurd heq.symm (h.prompts uid p hp).not_success
    obtain ⟨uid, session, index, rfl⟩ := hrow
    obtain ⟨hprod, p, hp, hpart, htag⟩ := h.stores.buffer_rows part uid session index _ hlook
    refine ⟨hprod, ?_, p, hp, hpart, ?_⟩
    · intro hret
      obtain ⟨b, hb, -⟩ := h.rows.returned_buffer part _ hret hlook
      rw [h.rows.awaiting_batch part hawait] at hb
      cases hb
    · simpa using htag.symm
  · rintro ⟨hprod, hret, p, hp, hpart, hstep⟩
    obtain ⟨status, hstatus, hor⟩ := h.stores.buffer_status k.uid p hp
    have hne : status ≠ .running := by grind
    rcases h.rows.buffer_complete p.partition _ k hprod hstatus hne with hin | hin
    · have := (h.stores.buffer_rows p.partition).key hin hprod h.rows hp
      rw [hpart, hstep] at this
      exact this.2
    · exact absurd hin hret

theorem prompts_takeSample {q : Prompt} (hq : (s.takeSample part keys).prompts uid = some q) :
    ∃ p, s.prompts uid = some p ∧
      ((p.partition = part ∧ p.globalSteps = s.globalSteps ∧ q = { p with sampled := true }) ∨
        ¬ (p.partition = part ∧ p.globalSteps = s.globalSteps) ∧ q = p) := by
  have hdef : (s.takeSample part keys).prompts uid = (s.prompts uid).map fun p =>
      if p.partition = part ∧ p.globalSteps = s.globalSteps then { p with sampled := true }
      else p := rfl
  rw [hdef, Option.map_eq_some_iff] at hq
  obtain ⟨p, hp, rfl⟩ := hq
  refine ⟨p, hp, ?_⟩
  by_cases hmatch : p.partition = part ∧ p.globalSteps = s.globalSteps
  · grind
  · grind

theorem extends_takeSample (s : State) (part : Partition) (keys : List Key) :
    Extends s (s.takeSample part keys) := by
  refine ⟨fun k hk => hk, fun uid p hp => ?_⟩
  have hdef : (s.takeSample part keys).prompts uid = (s.prompts uid).map fun p =>
      if p.partition = part ∧ p.globalSteps = s.globalSteps then { p with sampled := true }
      else p := rfl
  rw [hdef, hp]
  refine ⟨_, rfl, ?_⟩
  dsimp only
  split <;> exact ⟨rfl, rfl, fun _ => rfl⟩

theorem StoresInv.of_takeSample (h : StoresInv s) (part : Partition) (keys : List Key) :
    StoresInv (s.takeSample part keys) := by
  have hext := extends_takeSample s part keys
  constructor
  case tq_rows => exact fun part' => (h.tq_rows part').mono hext
  case tq_status => exact fun part' => (h.tq_status part').mono hext
  case listing_rows => exact fun part' m hm => (h.listing_rows part' m hm).mono hext
  case listing_status => exact fun part' m hm => (h.listing_status part' m hm).mono hext
  case buffer_rows => exact fun part' => (h.buffer_rows part').mono hext
  case buffer_known =>
    intro part' uid tag htag
    obtain ⟨p, hp, hpp⟩ := h.buffer_known part' uid tag htag
    obtain ⟨q, hq, hqp, -⟩ := hext.prompts uid p hp
    exact ⟨q, hq, hqp.trans hpp⟩
  case buffer_status =>
    intro uid q hq
    obtain ⟨p, hp, ⟨-, -, rfl⟩ | ⟨-, rfl⟩⟩ := prompts_takeSample hq
    · exact h.buffer_status uid p hp
    · exact h.buffer_status uid q hp

theorem RowsInv.of_takeSample (h : Inv s) (hawait : s.awaiting = some part)
    (hkeys : ∀ k ∈ keys, k ∈ s.produced ∧ ∃ p, s.prompts k.uid = some p ∧ p.partition = part) :
    RowsInv (s.takeSample part keys) := by
  have hext := extends_takeSample s part keys
  have hret : ∀ k, k ∈ (s.takeSample part keys).returned ↔ k ∈ s.returned ∨ k ∈ keys :=
    fun k => mem_append
  have hbatch : (s.takeSample part keys).batch
      = update s.batch part (some ⟨keys, false⟩) := rfl
  have hnewbatch : (s.takeSample part keys).batch part = some ⟨keys, false⟩ :=
    update_self ..
  -- the batches there are belong to other partitions
  have hkeepbatch : ∀ part' b, s.batch part' = some b →
      (s.takeSample part keys).batch part' = some b := by
    intro part' b hb
    rw [hbatch, update_of_ne]
    · exact hb
    · rintro rfl
      rw [h.rows.awaiting_batch part' hawait] at hb
      cases hb
  -- the sampled rows are in no other partition
  have hpart : ∀ part' m, RowsListed s part' m → ∀ k ∈ keys, k ∈ m → part' = part := by
    intro part' m hm k hk hin
    obtain ⟨hprod, p, hp, hpp⟩ := hkeys k hk
    exact (hm.key hin hprod h.rows hp).1.symm.trans hpp
  constructor
  case produced_row =>
    intro k hk
    obtain ⟨uid, session, index, p, rfl, hp, hnot⟩ := h.rows.produced_row k hk
    obtain ⟨q, hq, -⟩ := hext.prompts uid p hp
    obtain ⟨p', hp', ⟨-, -, rfl⟩ | ⟨-, rfl⟩⟩ := prompts_takeSample hq
    · grind
    · grind
  case returned_produced =>
    intro k hk
    rcases (hret k).mp hk with hk | hk
    · exact h.rows.returned_produced k hk
    · exact (hkeys k hk).1
  case live =>
    intro k hk hnot q hq
    have hnot' : k ∉ s.returned := fun hin => hnot ((hret k).mpr (.inl hin))
    obtain ⟨p, hp, ⟨-, -, rfl⟩ | ⟨-, rfl⟩⟩ := prompts_takeSample hq
    · exact h.rows.live k hk hnot' p hp
    · exact h.rows.live k hk hnot' q hp
  case returned_tq =>
    intro part' k hk htq
    rcases (hret k).mp hk with hold | hnew
    · obtain ⟨b, hb, hrest⟩ := h.rows.returned_tq part' k hold htq
      exact ⟨b, hkeepbatch part' b hb, hrest⟩
    · have hpp := hpart part' _ (h.stores.tq_rows part') k hnew htq
      subst hpp
      exact ⟨⟨keys, false⟩, hnewbatch, rfl, hnew⟩
  case returned_buffer =>
    intro part' k hk hlook
    rcases (hret k).mp hk with hold | hnew
    · obtain ⟨b, hb, hrest⟩ := h.rows.returned_buffer part' k hold hlook
      exact ⟨b, hkeepbatch part' b hb, hrest⟩
    · have hin : k ∈ s.replayBuffer part' := AList.lookup_isSome.mp (by
        rw [show (s.replayBuffer part').lookup k = _ from hlook]
        rfl)
      have hpp := hpart part' _ (h.stores.buffer_rows part') k hnew hin
      subst hpp
      exact ⟨⟨keys, false⟩, hnewbatch, hnew⟩
  case listing_complete =>
    intro part' m hm k hk hin
    rcases h.rows.listing_complete part' m hm k hk hin with hkm | hold
    · exact .inl hkm
    · exact .inr ((hret k).mpr (.inl hold))
  case buffer_complete =>
    intro part' tag k hk hlook hstatus
    rcases h.rows.buffer_complete part' tag k hk hlook hstatus with hin | hold
    · exact .inl hin
    · exact .inr ((hret k).mpr (.inl hold))
  case awaiting_batch => rintro part' ⟨⟩
  case batch_returned =>
    intro part' b hb k hk
    rw [hbatch] at hb
    by_cases hpp : part' = part
    · grind
    · rw [update_of_ne hpp] at hb
      exact (hret k).mpr (.inl (h.rows.batch_returned part' b hb k hk))

theorem inv_takeSample (h : Inv s) (hawait : s.awaiting = some part)
    (hsample : sample (s.replayBuffer part) s.globalSteps = .ok (some keys)) :
    Inv (s.takeSample part keys) := by
  obtain ⟨-, hdone, hkeys⟩ := sample_spec h hawait hsample
  have hrows : RowsInv (s.takeSample part keys) := by
    refine RowsInv.of_takeSample h hawait fun k hk => ?_
    obtain ⟨hprod, -, p, hp, hpp, -⟩ := (hkeys k).mp hk
    exact ⟨hprod, p, hp, hpp⟩
  refine ⟨fun uid q hq => ?_, h.stores.of_takeSample part keys, hrows⟩
  obtain ⟨p, hp, ⟨hpp, hstep, rfl⟩ | ⟨hno, rfl⟩⟩ := prompts_takeSample hq
  · have hok := h.prompts uid p hp
    exact ⟨hok.step_le, by rintro ⟨⟩, fun _ => hdone uid p hp hpp hstep, hok.done_quiet,
      hok.running_nodup, hok.not_success⟩
  · have hok := h.prompts uid q hp
    refine ⟨hok.step_le, fun hun => ?_, hok.sampled_done, hok.done_quiet, hok.running_nodup,
      hok.not_success⟩
    obtain ⟨haw, hstep⟩ := hok.unsampled hun
    rw [hawait] at haw
    exact absurd ⟨(Option.some.inj haw).symm, hstep⟩ hno

theorem lookup_eraseAll_update (stores : Partition → Store) (part : Partition) (keys : List Key)
    (part' : Partition) (k : Key) :
    ((update stores part (remove keys (stores part))) part').lookup k =
      if part' = part ∧ k ∈ keys then none else (stores part').lookup k := by
  by_cases hpart : part' = part
  · subst hpart
    rw [update_self, remove, KVMap.lookup_eraseAll]
    by_cases hk : k ∈ keys
    · rw [if_pos hk, if_pos ⟨rfl, hk⟩]
    · rw [if_neg hk, if_neg (fun h => hk h.2)]
  · grind

theorem lookup_of_eraseAll {stores : Partition → Store} {part' : Partition} {tag : Tag}
    (h : ((update stores part (remove keys (stores part))) part').lookup k = some tag) :
    ¬ (part' = part ∧ k ∈ keys) ∧ (stores part').lookup k = some tag := by
  rw [lookup_eraseAll_update] at h
  split at h
  · cases h
  · next hnot => exact ⟨hnot, h⟩

theorem inv_clearBatch {b : Batch} (h : Inv s)
    (hb : s.batch part = some b) : Inv (s.clearBatch part b) := by
  have htq : (s.clearBatch part b).tq
      = update s.tq part (remove b.keys (s.tq part)) := rfl
  have hbatch : (s.clearBatch part b).batch
      = update s.batch part (some { b with cleared := true }) := rfl
  have hsub : ∀ part' k tag, ((s.clearBatch part b).tq part').lookup k = some tag →
      ¬ (part' = part ∧ k ∈ b.keys) ∧ (s.tq part').lookup k = some tag :=
    fun part' k tag htag => lookup_of_eraseAll htag
  refine ⟨h.prompts, ?_, ?_⟩
  · refine { h.stores with tq_rows := ?tq_rows, tq_status := ?tq_status }
    case tq_rows =>
      intro part' uid session index tag htag
      exact h.stores.tq_rows part' uid session index tag (hsub part' _ tag htag).2
    case tq_status =>
      intro part' uid tag htag
      exact h.stores.tq_status part' uid tag (hsub part' _ tag htag).2
  · refine { h.rows with
      live := ?live, returned_tq := ?returned_tq, returned_buffer := ?returned_buffer,
      awaiting_batch := ?awaiting_batch, batch_returned := ?batch_returned }
    case live =>
      intro k hk hret p hp
      rw [← AList.lookup_isSome, htq, lookup_eraseAll_update, if_neg]
      · exact AList.lookup_isSome.mpr (h.rows.live k hk hret p hp)
      · rintro ⟨-, hin⟩
        exact hret (h.rows.batch_returned part b hb k hin)
    case returned_tq =>
      intro part' k hk hin
      obtain ⟨tag, htag⟩ := Option.isSome_iff_exists.mp (AList.lookup_isSome.mpr hin)
      obtain ⟨hnot, hold⟩ := hsub part' k tag htag
      obtain ⟨b', hb', hrest⟩ := h.rows.returned_tq part' k hk
        (AList.lookup_isSome.mp (by rw [hold]; rfl))
      rw [hbatch, update_of_ne]
      · exact ⟨b', hb', hrest⟩
      · grind
    case returned_buffer =>
      intro part' k hk hin
      obtain ⟨b', hb', hrest⟩ := h.rows.returned_buffer part' k hk hin
      rw [hbatch]
      by_cases hpart : part' = part
      · grind
      · grind
    case awaiting_batch =>
      intro part' haw
      have hnone := h.rows.awaiting_batch part' haw
      rw [hbatch, update_of_ne]
      · exact hnone
      · grind
    case batch_returned =>
      intro part' b' hb' k hk
      rw [hbatch] at hb'
      by_cases hpart : part' = part
      · subst hpart
        rw [update_self] at hb'
        cases hb'
        exact h.rows.batch_returned part' b hb k hk
      · rw [update_of_ne hpart] at hb'
        exact h.rows.batch_returned part' b' hb' k hk

theorem inv_removeBatch {b : Batch} (h : Inv s)
    (hb : s.batch part = some b) (hcleared : b.cleared = true) :
    Inv (s.removeBatch part b) := by
  have hbuffer : (s.removeBatch part b).replayBuffer
      = update s.replayBuffer part (remove b.keys (s.replayBuffer part)) := rfl
  have hbatch : (s.removeBatch part b).batch = update s.batch part none := rfl
  have hsub : ∀ part' k tag, ((s.removeBatch part b).replayBuffer part').lookup k = some tag →
      ¬ (part' = part ∧ k ∈ b.keys) ∧ (s.replayBuffer part').lookup k = some tag :=
    fun part' k tag htag => lookup_of_eraseAll htag
  -- a batch has no prompts
  have hprompt : ∀ uid, Key.prompt uid ∉ b.keys := by
    intro uid hin
    obtain ⟨u, session, index, p, heq, -⟩ := h.rows.produced_row _
      (h.rows.returned_produced _ (h.rows.batch_returned part b hb _ hin))
    cases heq
  have hlookprompt : ∀ part' uid, ((s.removeBatch part b).replayBuffer part').lookup (.prompt uid)
      = (s.replayBuffer part').lookup (.prompt uid) := by
    intro part' uid
    rw [hbuffer, lookup_eraseAll_update, if_neg (fun h => hprompt uid h.2)]
  refine ⟨h.prompts, ?_, ?_⟩
  · refine { h.stores with
      buffer_rows := ?buffer_rows, buffer_known := ?buffer_known,
      buffer_status := ?buffer_status }
    case buffer_rows =>
      intro part' uid session index tag htag
      exact h.stores.buffer_rows part' uid session index tag (hsub part' _ tag htag).2
    case buffer_known =>
      intro part' uid tag htag
      exact h.stores.buffer_known part' uid tag (hsub part' _ tag htag).2
    case buffer_status =>
      intro uid p hp
      rw [hlookprompt]
      exact h.stores.buffer_status uid p hp
  · refine { h.rows with
      returned_tq := ?returned_tq, returned_buffer := ?returned_buffer,
      buffer_complete := ?buffer_complete, awaiting_batch := ?awaiting_batch,
      batch_returned := ?batch_returned }
    case returned_tq =>
      intro part' k hk hin
      obtain ⟨b', hb', hclear, hkb⟩ := h.rows.returned_tq part' k hk hin
      rw [hbatch, update_of_ne]
      · exact ⟨b', hb', hclear, hkb⟩
      · grind
    case returned_buffer =>
      intro part' k hk hin
      obtain ⟨hnot, hold⟩ := hsub part' k _ hin
      obtain ⟨b', hb', hkb⟩ := h.rows.returned_buffer part' k hk hold
      rw [hbatch, update_of_ne]
      · exact ⟨b', hb', hkb⟩
      · grind
    case buffer_complete =>
      intro part' tag k hk hin hstatus
      rw [hlookprompt] at hin
      rcases h.rows.buffer_complete part' tag k hk hin hstatus with hold | hret
      · by_cases herased : part' = part ∧ k ∈ b.keys
        · exact .inr (h.rows.batch_returned part b hb k herased.2)
        · left
          rw [← AList.lookup_isSome, hbuffer, lookup_eraseAll_update, if_neg herased]
          exact AList.lookup_isSome.mpr hold
      · exact .inr hret
    case awaiting_batch =>
      intro part' haw
      have hnone := h.rows.awaiting_batch part' haw
      rw [hbatch]
      by_cases hpart : part' = part
      · grind
      · grind
    case batch_returned =>
      intro part' b' hb' k hk
      rw [hbatch] at hb'
      by_cases hpart : part' = part
      · grind
      · rw [update_of_ne hpart] at hb'
        exact h.rows.batch_returned part' b' hb' k hk

theorem inv_nextStep (h : Inv s) (hidle : s.awaiting = none) :
    Inv { s with globalSteps := s.globalSteps + 1 } := by
  refine ⟨?_, ?_, ?_⟩
  · intro uid p hp
    have hok := h.prompts uid p hp
    refine ⟨Nat.le_succ_of_le hok.step_le, fun hun => ?_, hok.sampled_done, hok.done_quiet,
      hok.running_nodup, hok.not_success⟩
    have := (hok.unsampled hun).1
    rw [hidle] at this
    cases this
  · exact ⟨h.stores.tq_rows, h.stores.tq_status, h.stores.listing_rows, h.stores.listing_status,
      h.stores.buffer_rows, h.stores.buffer_known, h.stores.buffer_status⟩
  · refine { h.rows with returned_buffer := ?returned_buffer }
    case returned_buffer =>
      -- no prompt has the new step yet
      intro part k hk hlook
      obtain ⟨uid, session, index, q, rfl, -, -⟩ :=
        h.rows.produced_row k (h.rows.returned_produced k hk)
      obtain ⟨-, p, hp, -, htag⟩ := h.stores.buffer_rows part uid session index _ hlook
      have hstep : some (s.globalSteps + 1) = some p.globalSteps := congrArg Tag.globalSteps htag
      have hle := (h.prompts uid p hp).step_le
      have := Option.some.inj hstep
      omega

/-! ## Top theorem -/

/-- A prompt is declared failed after its sessions have ended, and a listing that is added
has no row of the current step that was cleared and removed since. -/
def Orderly (s : State) : Action → Prop
  | .promptFail uid => s.HasPrompt uid fun p => p.running = []
  | .pollAdd part => ∀ m ∈ s.listing part, ListingCurrent s part m
  | _ => True

instance (s : State) (part : Partition) (m : Store) : Decidable (ListingCurrent s part m) :=
  inferInstanceAs (Decidable (∀ e ∈ m.entries, _))

instance (s : State) : (a : Action) → Decidable (Orderly s a)
  | .promptFail uid => inferInstanceAs (Decidable (s.HasPrompt uid fun p => p.running = []))
  | .pollAdd part => inferInstanceAs (Decidable (∀ m ∈ s.listing part, ListingCurrent s part m))
  | .generate .. | .sessionPut .. | .sessionFail .. | .promptFinish _ | .pollList | .sample
  | .clear _ | .remove _ | .nextStep => inferInstanceAs (Decidable True)

theorem sampled?_eq_some (h : s.sampled? = some (part, keys)) : s.awaiting = some part ∧
      sample (s.replayBuffer part) s.globalSteps = .ok (some keys) := by
  unfold State.sampled? at h
  split at h
  · cases h
  · grind

theorem inv_step (s : State) (a : Action) (h : Inv s) (hg : (trainer a).guard s)
    (hc : Orderly s a) : Inv ((trainer a).effect s) := by
  cases a with
  | generate part uids =>
    obtain ⟨hidle, hbatch, -, hfresh⟩ := hg
    exact inv_generateSequences h hidle hbatch hfresh
  | sample =>
    obtain ⟨⟨part, keys⟩, hsome⟩ := Option.isSome_iff_exists.mp hg
    obtain ⟨hawait, hsample⟩ := sampled?_eq_some hsome
    dsimp only [trainer]
    rw [hsome]
    exact inv_takeSample h hawait hsample
  | clear part =>
    dsimp only [trainer]
    cases hb : s.batch part with
    | none => exact h
    | some b => exact inv_clearBatch h hb
  | remove part =>
    have hcleared : (s.batch part).any (fun b => b.cleared) = true := hg
    dsimp only [trainer]
    cases hb : s.batch part with
    | none => exact h
    | some b =>
      rw [hb] at hcleared
      exact inv_removeBatch h hb hcleared
  | nextStep => exact inv_nextStep h hg.1
  | sessionPut uid session outputs =>
    obtain ⟨p, hp, hmem⟩ := hg
    dsimp only [trainer]
    rw [hp]
    exact inv_putRows h hp hmem
  | sessionFail uid session =>
    obtain ⟨p, hp, hmem⟩ := hg
    exact inv_sessionFail h hp hmem
  | promptFinish uid =>
    obtain ⟨p, hp, hrun, hquiet, -⟩ := hg
    dsimp only [trainer]
    rw [hp]
    exact inv_putStatus h hp hrun hquiet (by decide) (by decide)
  | promptFail uid =>
    obtain ⟨p, hp, hrun, -⟩ := hg
    obtain ⟨q, hq, hquiet⟩ := hc
    have hqp : q = p := Option.some.inj (hq.symm.trans hp)
    dsimp only [trainer]
    rw [hp]
    exact inv_putStatus h hp hrun (hqp ▸ hquiet) (by decide) (by decide)
  | pollList => exact inv_pollList h
  | pollAdd part =>
    dsimp only [trainer]
    cases hm : s.listing part with
    | none => exact h
    | some m => exact inv_addListing h hm (hc m hm)

/-- Every sample that returns here is right, and nothing comes too late for one. -/
structure SamplesExact (s : State) : Prop where
  /-- No session is running whose prompt has been sampled, so no row is put after the
  sample of its step. -/
  late : ∀ uid p, s.prompts uid = some p → p.sampled = true → p.running = []
  nodup : ∀ part keys, s.sampled? = some (part, keys) → keys.Nodup
  /-- The rows of all prompts of the step, but those an earlier sample has returned. -/
  rows : ∀ part keys, s.sampled? = some (part, keys) → ∀ k, k ∈ keys ↔
    k ∈ s.produced ∧ k ∉ s.returned ∧
      s.HasPrompt k.uid fun p => p.partition = part ∧ p.globalSteps = s.globalSteps
  live : ∀ part keys, s.sampled? = some (part, keys) → ∀ k ∈ keys, k ∈ s.tq part

theorem reachable_inv (h : Reachable trainer Orderly (.initial g) s) : Inv s :=
  h.invariant (inv_initial g) inv_step

theorem sample_exact (g : Nat) (s : State) (h : Reachable trainer Orderly (.initial g) s) :
    SamplesExact s := by
  have hinv := reachable_inv h
  constructor
  case late =>
    intro uid p hp hs
    have hok := hinv.prompts uid p hp
    exact hok.done_quiet (hok.sampled_done hs)
  case nodup =>
    intro part keys hsome
    obtain ⟨hawait, hsample⟩ := sampled?_eq_some hsome
    exact (sample_spec hinv hawait hsample).1
  case rows =>
    intro part keys hsome
    obtain ⟨hawait, hsample⟩ := sampled?_eq_some hsome
    exact (sample_spec hinv hawait hsample).2.2
  case live =>
    intro part keys hsome k hk
    obtain ⟨hawait, hsample⟩ := sampled?_eq_some hsome
    obtain ⟨hprod, hret, p, hp, hpart, -⟩ := ((sample_spec hinv hawait hsample).2.2 k).mp hk
    have hlive := hinv.rows.live k hprod hret p hp
    rwa [hpart] at hlive

/-- One prompt with two sessions is dispatched, polled and sampled. -/
def twoSessions : List Action :=
  [.generate .train [(1, 2)], .sessionPut 1 0 1, .sessionPut 1 1 2, .promptFinish 1, .pollList,
    .pollAdd .train, .pollAdd .val]

theorem sample_exact_twoSessions : SamplesExact (run trainer (.initial 1) twoSessions) :=
  sample_exact 1 _ (reachable_run (by decide))

/-- The first session fails and the prompt is declared failed; the sample returns, and then
the second session puts its row. -/
def failedSibling : List Action :=
  [.generate .train [(1, 2)], .sessionFail 1 0, .promptFail 1, .pollList, .pollAdd .train,
    .pollAdd .val, .sample]

/-- Validation of two batches.  The poll thread lists the first batch before it is cleared
and adds the listing after it is removed. -/
def staleListing : List Action :=
  [.generate .val [(1, 1)], .sessionPut 1 0 1, .promptFinish 1, .pollList, .pollAdd .train,
    .pollAdd .val, .sample, .pollList, .clear .val, .remove .val, .pollAdd .train, .pollAdd .val,
    .generate .val [(2, 1)], .sessionPut 2 0 1, .promptFinish 2, .pollList, .pollAdd .train,
    .pollAdd .val]

theorem samples_not_exact :
    (Reachable trainer anyStep (.initial 1) (run trainer (.initial 1) failedSibling) ∧
      (∃ p, (run trainer (.initial 1) failedSibling).prompts 1 = some p ∧ p.sampled = true ∧
        1 ∈ p.running) ∧
      Key.row 1 1 0 ∈ ((trainer (.sessionPut 1 1 1)).effect
        (run trainer (.initial 1) failedSibling)).tq .train) ∧
    (Reachable trainer anyStep (.initial 0) (run trainer (.initial 0) staleListing) ∧
      ∃ keys, (run trainer (.initial 0) staleListing).sampled? = some (.val, keys) ∧
        Key.row 1 0 0 ∈ keys ∧ Key.row 1 0 0 ∈ (run trainer (.initial 0) staleListing).returned ∧
        Key.row 1 0 0 ∉ (run trainer (.initial 0) staleListing).tq .val) := by
  refine ⟨⟨reachable_run (by decide), ⟨_, rfl, by decide, by decide⟩, by decide⟩, ?_⟩
  refine ⟨reachable_run (by decide), [.row 2 0 0, .row 1 0 0], ?_, by decide, by decide, by decide⟩
  decide

end Verl.TransferQueue
