import Verl.Lib.Numerals

/-! # Programs of several ranks between barriers

A plan is a list of stages, and a stage holds one program for each rank.  The ranks of a
stage run their programs in any interleaving; the next stage starts when all programs of
the stage are empty.

* `AtBarrier`: the stage is done.
* `EndsWith P`: the operations with `P` are in the last stage, and alone there. -/

namespace Verl

open List

universe u

/-- The stages still to run, each with the programs of its ranks. -/
abbrev Stages (Op : Type u) := List (List (List Op))

namespace Stages

variable {Op : Type u}

def ops (p : Stages Op) : List Op := p.flatten.flatten

/-- The operation rank `i` is at. -/
def next? : Stages Op → Nat → Option Op
  | [], _ => none
  | stage :: _, i => (stage[i]?).bind List.head?

/-- Replaces the first operation of a program. -/
def stepProgram (more : Op → List Op) : List Op → List Op
  | [] => []
  | op :: rest => more op ++ rest

/-- Rank `i` has made its operation; `more` says what is left of it. -/
def advance (more : Op → List Op) : Stages Op → Nat → Stages Op
  | [], _ => []
  | stage :: later, i => stage.modify i (stepProgram more) :: later

def AtBarrier : Stages Op → Prop
  | [] => False
  | stage :: _ => ∀ program ∈ stage, program = []

instance [DecidableEq Op] : DecidablePred (@AtBarrier Op)
  | [] => inferInstanceAs (Decidable False)
  | stage :: _ => inferInstanceAs (Decidable (∀ program ∈ stage, program = []))

/-! ## Which operations are left -/

variable {p : Stages Op} {P : Op → Prop} {more : Op → List Op} {x op : Op} {i : Nat}

@[simp] theorem ops_nil : ops ([] : Stages Op) = [] := rfl

@[simp] theorem ops_cons (stage : List (List Op)) (later : Stages Op) :
    ops (stage :: later) = stage.flatten ++ ops later := by
  simp only [ops, flatten_cons, flatten_append]

theorem mem_ops : op ∈ ops p ↔ ∃ stage ∈ p, ∃ program ∈ stage, op ∈ program := by
  simp only [ops, mem_flatten]
  constructor
  · grind
  · grind

@[simp] theorem ops_append (p q : Stages Op) : ops (p ++ q) = ops p ++ ops q := by
  simp only [ops, flatten_append]

section

variable (h : next? p i = some op)
include h

theorem eq_of_next? : ∃ before rest after later, p = (before ++ (op :: rest) :: after) :: later ∧
      ∀ more, advance more p i = (before ++ (more op ++ rest) :: after) :: later := by
  cases p with
  | nil => cases h
  | cons stage later =>
    obtain ⟨program, hp, hop⟩ := Option.bind_eq_some_iff.mp h
    obtain ⟨hi, hget⟩ := List.getElem?_eq_some_iff.mp hp
    obtain ⟨rest, rfl⟩ : ∃ rest, program = op :: rest := by
      cases program with
      | nil => cases hop
      | cons a rest => exact ⟨rest, by rw [Option.some.inj hop]⟩
    refine ⟨stage.take i, rest, stage.drop (i + 1), later, ?_, fun more => ?_⟩
    · rw [← hget, getElem_cons_drop, take_append_drop]
    · have hmod := modify_eq_take_cons_drop (f := stepProgram more) hi
      rw [hget] at hmod
      exact congrArg (· :: later) hmod

theorem mem_of_next? : op ∈ ops p := by
  obtain ⟨before, rest, after, later, rfl, -⟩ := eq_of_next? h
  simp

theorem ne_nil_of_next? : p ≠ [] := by
  rintro rfl
  cases h

theorem mem_of_mem_advance (hx : x ∈ ops (advance more p i)) : x ∈ more op ∨ x ∈ ops p := by
  obtain ⟨before, rest, after, later, rfl, hadv⟩ := eq_of_next? h
  rw [hadv] at hx
  simp only [ops_cons, flatten_cons, flatten_append, mem_append] at hx ⊢
  tauto

theorem mem_advance_of_mem_more (hx : x ∈ more op) : x ∈ ops (advance more p i) := by
  obtain ⟨before, rest, after, later, rfl, hadv⟩ := eq_of_next? h
  rw [hadv]
  simp only [ops_cons, flatten_cons, flatten_append, mem_append]
  tauto

end

theorem mem_advance_of_mem (more : Op → List Op)
    (h : next? p i = some op) (hx : x ∈ ops p) : x = op ∨ x ∈ ops (advance more p i) := by
  obtain ⟨before, rest, after, later, rfl, hadv⟩ := eq_of_next? h
  rw [hadv]
  simp only [ops_cons, flatten_cons, flatten_append, mem_append,
    mem_cons] at hx ⊢
  tauto

theorem ops_tail (h : AtBarrier p) : ops p.tail = ops p := by
  cases p with
  | nil => rfl
  | cons stage later =>
    have hnil : stage.flatten = [] := flatten_eq_nil_iff.mpr h
    rw [tail_cons, ops_cons, hnil, nil_append]

/-! ## The last stage -/

def EndsWith (P : Op → Prop) : Stages Op → Prop
  | [] => True
  | stage :: later =>
    ((∀ op ∈ stage.flatten, ¬P op) ∨ (∀ op ∈ stage.flatten, P op) ∧ ops later = []) ∧
      EndsWith P later

theorem EndsWith.tail (h : EndsWith P p) : EndsWith P p.tail := by
  cases p with
  | nil => trivial
  | cons stage later => exact h.2

/-- When a rank is at an operation with `P`, only such operations are left. -/
theorem EndsWith.all (h : EndsWith P p)
    (hop : next? p i = some op) (hP : P op) : ∀ x ∈ ops p, P x := by
  obtain ⟨before, rest, after, later, rfl, -⟩ := eq_of_next? hop
  obtain ⟨hfirst | ⟨hfirst, hlater⟩, -⟩ := h
  · exact absurd hP (hfirst op (by simp))
  · intro x hx
    rw [ops_cons, hlater, append_nil] at hx
    exact hfirst x hx

theorem EndsWith.advance (h : EndsWith P p) (hop : next? p i = some op)
    (hmore : ∀ x ∈ more op, P x ↔ P op) : EndsWith P (advance more p i) := by
  obtain ⟨before, rest, after, later, rfl, hadv⟩ := eq_of_next? hop
  rw [hadv]
  have hmem : ∀ x ∈ (before ++ (more op ++ rest) :: after).flatten,
      x ∈ more op ∨ x ∈ (before ++ (op :: rest) :: after).flatten := by grind
  have hself : op ∈ (before ++ (op :: rest) :: after).flatten := by simp
  obtain ⟨hfirst | ⟨hfirst, hlater⟩, hrest⟩ := h
  · refine ⟨.inl fun x hx => ?_, hrest⟩
    rcases hmem x hx with hx | hx
    · grind
    · exact hfirst x hx
  · refine ⟨.inr ⟨fun x hx => ?_, hlater⟩, hrest⟩
    rcases hmem x hx with hx | hx
    · exact (hmore x hx).mpr (hfirst op hself)
    · exact hfirst x hx

theorem endsWith_append {q : Stages Op} (hp : ∀ op ∈ ops p, ¬P op)
    (hq : EndsWith P q) : EndsWith P (p ++ q) := by
  induction p with
  | nil => exact hq
  | cons stage later ih =>
    rw [ops_cons] at hp
    exact ⟨.inl fun op hop => hp op (mem_append_left _ hop),
      ih fun op hop => hp op (mem_append_right _ hop)⟩

end Stages

end Verl
