import Verl.Lib.Numerals

/-! # Systems that take one guarded step after another

A system is a family of rules, one for each action; a rule has a guard (when the
action can be taken) and an effect.  Nothing says which enabled action comes
next, so a statement about every reachable state is about every interleaving.

* `Reachable T C s₀ s`: some run from `s₀` ends in `s`, and each of its steps meets
  the condition `C` on the state before it and the action.
* `Reachable.invariant`: what holds at `s₀` and is kept by every such step holds in
  every state reached.
* `Reachable.simulate`: a map that turns every step into a run of another system turns
  reachable states into reachable states.
* `run` and `Admits`: a run given by the list of its actions, which a concrete trace
  is checked with (`reachable_run`).
* `keeps_iff_admits`: where the steps that keep an invariant are those that meet `C`, so it is
  with runs.
* `length_le_of_measure`: runs end where every step makes a measure smaller. -/

namespace Verl

universe u v

/-- What one action does, and when it can be taken. -/
structure Rule (σ : Type u) where
  guard : σ → Prop
  effect : σ → σ
  [decGuard : DecidablePred guard]

attribute [instance] Rule.decGuard

/-- One rule for each action. -/
abbrev StepSystem (σ : Type u) (α : Type v) := α → Rule σ

namespace StepSystem

variable {σ : Type u} {α : Type v}

/-- The condition of a run that may take any enabled step. -/
def anyStep (_ : σ) (_ : α) : Prop := True

instance (s : σ) (a : α) : Decidable (anyStep s a) := inferInstanceAs (Decidable True)

/-- The states some run from `s₀` ends in, each step of which meets `C`. -/
inductive Reachable (T : StepSystem σ α) (C : σ → α → Prop) (s₀ : σ) : σ → Prop where
  | init : Reachable T C s₀ s₀
  | step {s : σ} (a : α) : Reachable T C s₀ s → (T a).guard s → C s a →
      Reachable T C s₀ ((T a).effect s)

variable {T : StepSystem σ α} {s s₀ : σ} {C : σ → α → Prop}

theorem Reachable.invariant {I : σ → Prop} (hinit : I s₀)
    (hstep : ∀ s a, I s → (T a).guard s → C s a → I ((T a).effect s)) (h : Reachable T C s₀ s) :
    I s := by
  induction h with
  | init => exact hinit
  | step a _ hg hc ih => exact hstep _ a ih hg hc

theorem Reachable.trans {s₁ s₂ : σ}
    (h₁ : Reachable T C s₀ s₁) (h₂ : Reachable T C s₁ s₂) : Reachable T C s₀ s₂ := by
  induction h₂ with
  | init => exact h₁
  | step a _ hg hc ih => exact .step a ih hg hc

theorem Reachable.invariant_of_reachable {I : σ → Prop} (hinit : I s₀)
    (hstep : ∀ s a, Reachable T C s₀ s → I s → (T a).guard s → C s a → I ((T a).effect s))
    (h : Reachable T C s₀ s) : I s := by
  induction h with
  | init => exact hinit
  | step a hr hg hc ih => exact hstep _ a hr ih hg hc

theorem Reachable.single {t : σ} (a : α)
    (hg : (T a).guard s) (hc : C s a) (ht : (T a).effect s = t) : Reachable T C s t :=
  ht ▸ .step a .init hg hc

/-- No action can be taken. -/
def Stuck (T : StepSystem σ α) (s : σ) : Prop := ∀ a, ¬(T a).guard s

/-! ## Simulation -/

theorem Reachable.simulate {τ : Type*} {β : Type*} {U : StepSystem τ β} {D : τ → β → Prop}
    (f : σ → τ)
    (hstep : ∀ s a, Reachable T C s₀ s → (T a).guard s → C s a → Reachable U D (f s) (f ((T a).effect s)))
    (h : Reachable T C s₀ s) : Reachable U D (f s₀) (f s) := by
  induction h with
  | init => exact .init
  | step a hr hg hc ih => exact ih.trans (hstep _ a hr hg hc)

/-! ## Runs given by their actions -/

/-- The state after the actions `as`. -/
def run (T : StepSystem σ α) (s : σ) : List α → σ
  | [] => s
  | a :: as => run T ((T a).effect s) as

/-- Each of the actions is enabled when it is taken, and meets `C` there. -/
def Admits (T : StepSystem σ α) (C : σ → α → Prop) (s : σ) : List α → Prop
  | [] => True
  | a :: as => (T a).guard s ∧ C s a ∧ Admits T C ((T a).effect s) as

instance Admits.decidable (T : StepSystem σ α) (C : σ → α → Prop) [∀ s a, Decidable (C s a)] :
    ∀ (as : List α) (s : σ), Decidable (Admits T C s as)
  | [], _ => inferInstanceAs (Decidable True)
  | a :: as, s =>
    have := Admits.decidable T C as ((T a).effect s)
    inferInstanceAs (Decidable ((T a).guard s ∧ C s a ∧ Admits T C ((T a).effect s) as))

theorem reachable_run {as : List α} (h : Admits T C s as) : Reachable T C s (run T s as) := by
  induction as generalizing s with
  | nil => exact .init
  | cons a as ih =>
    obtain ⟨hg, hc, hrest⟩ := h
    exact Reachable.trans (.step a .init hg hc) (ih hrest)

theorem keeps_iff_admits {I : σ → Prop}
    (hstep : ∀ s a, I s → (T a).guard s → (I ((T a).effect s) ↔ C s a)) {as : List α}
    (hs : I s) (h : Admits T anyStep s as) :
    (∀ k, I (run T s (as.take k))) ↔ Admits T C s as := by
  induction as generalizing s with
  | nil =>
    refine ⟨fun _ => trivial, fun _ k => ?_⟩
    rw [List.take_nil]
    exact hs
  | cons a as ih =>
    obtain ⟨hg, -, hrest⟩ := h
    constructor
    · intro hall
      have ha : I ((T a).effect s) := hall 1
      exact ⟨hg, (hstep s a hs hg).mp ha, (ih ha hrest).mp fun k => hall (k + 1)⟩
    · rintro ⟨-, hc, hadmits⟩ k
      have ha := (hstep s a hs hg).mpr hc
      cases k with
      | zero => exact hs
      | succ k => exact (ih ha hrest).mpr hadmits k

theorem length_le_of_measure (μ : σ → Nat)
    (hstep : ∀ s a, Reachable T C s₀ s → (T a).guard s → C s a → μ ((T a).effect s) < μ s)
    {as : List α} (hs : Reachable T C s₀ s) (h : Admits T C s as) : as.length ≤ μ s := by
  induction as generalizing s with
  | nil => exact Nat.zero_le _
  | cons a as ih =>
    obtain ⟨hg, hc, hrest⟩ := h
    have hlt := hstep s a hs hg hc
    have hle := ih (hs.step a hg hc) hrest
    rw [List.length_cons]
    omega

end StepSystem

end Verl
