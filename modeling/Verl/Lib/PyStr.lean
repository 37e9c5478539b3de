import Verl.Lib.Python

/-! # Strings

* `rsplit`: `str.rsplit(sep, maxsplit)`, fields taken from the right end.
* `pyInt`: `int(s)` of a decimal numeral.
* `pyIn`: `sub in s`.
* `pyRemove`: `s.replace(sub, "")`.

`rsplit_append` takes one field without the separator off the end; `pyInt_toDigits` reads a numeral
back; `pyIn_intercalate` looks for `sub` in the parts of a joined string. -/

namespace Verl

open List

/-- What stands before and after the last separator. -/
def splitLast (sep : Char) (s : List Char) : Option (List Char × List Char) :=
  if sep ∈ s then
    some (((s.reverse.dropWhile (· != sep)).drop 1).reverse,
      (s.reverse.takeWhile (· != sep)).reverse)
  else none

def rsplit (sep : Char) : Nat → List Char → List (List Char)
  | 0, s => [s]
  | maxsplit + 1, s =>
    match splitLast sep s with
    | none => [s]
    | some (front, field) => rsplit sep maxsplit front ++ [field]

/-- `s.strip()`, for ASCII white space. -/
def strip (s : List Char) : List Char :=
  ((s.dropWhile Char.isWhitespace).reverse.dropWhile Char.isWhitespace).reverse

/-- `[part.strip() for part in s.split(sep) if part.strip()]` -/
def splitStrip (sep : Char) (s : List Char) : List (List Char) :=
  ((s.splitOn sep).map strip).filter (· ≠ [])

/-- `s.split(sep, 1)` of a string with a separator. -/
def splitFirst (sep : Char) (s : List Char) : List Char × List Char :=
  (s.takeWhile (· != sep), (s.dropWhile (· != sep)).drop 1)

/-- `s` is the literal, for the message. -/
def natOfDigits (s digits : List Char) : Except PyErr Nat :=
  if digits ≠ [] ∧ digits.all Char.isDigit then .ok (Nat.ofDigitChars 10 digits 0)
  else .error (.valueError s!"invalid literal for int() with base 10: '{String.ofList s}'")

/-- `int(s)`, for a sign and digits without underscores. -/
def pyInt (s : List Char) : Except PyErr Int :=
  match s with
  | '-' :: digits => (natOfDigits s digits).map fun n : Nat => -(n : Int)
  | '+' :: digits => (natOfDigits s digits).map fun n : Nat => (n : Int)
  | digits => (natOfDigits s digits).map fun n : Nat => (n : Int)

variable {sep : Char} {s sub : List Char}

theorem splitLast_append {field : List Char} (front : List Char) (h : sep ∉ field) :
    splitLast sep (front ++ sep :: field) = some (front, field) := by
  have hkeep : ∀ c ∈ field.reverse, (c != sep) = true := by grind
  have hreverse : (front ++ sep :: field).reverse = field.reverse ++ sep :: front.reverse := by
    simp
  unfold splitLast
  rw [hreverse, dropWhile_append_of_pos hkeep,
    takeWhile_append_of_pos hkeep]
  simp

theorem rsplit_append {field : List Char} (maxsplit : Nat) (front : List Char) (h : sep ∉ field) :
    rsplit sep (maxsplit + 1) (front ++ sep :: field) = rsplit sep maxsplit front ++ [field] := by
  show (match splitLast sep (front ++ sep :: field) with
    | none => [front ++ sep :: field]
    | some (front, field) => rsplit sep maxsplit front ++ [field]) = _
  rw [splitLast_append front h]

theorem pyInt_toDigits (n : Nat) : pyInt (Nat.toDigits 10 n) = .ok (n : Int) := by
  have hdigit : ∀ c ∈ Nat.toDigits 10 n, c.isDigit = true := fun c hc =>
    Nat.isDigit_of_mem_toDigits (by omega) (by omega) hc
  have hcond : Nat.toDigits 10 n ≠ [] ∧ (Nat.toDigits 10 n).all Char.isDigit = true :=
    ⟨Nat.toDigits_ne_nil, all_eq_true.mpr hdigit⟩
  have hvalue : Nat.ofDigitChars 10 (Nat.toDigits 10 n) 0 = n := Nat.ofDigitChars_ten_toDigits
  unfold pyInt
  split
  · grind
  · grind
  · unfold natOfDigits
    rw [if_pos hcond, hvalue]
    rfl

theorem not_mem_toDigits {c : Char} (h : c.isDigit = false) (n : Nat) : c ∉ Nat.toDigits 10 n := by
  intro hmem
  have hdigit := Nat.isDigit_of_mem_toDigits (by omega) (by omega) hmem
  rw [h] at hdigit
  cases hdigit

/-! ## Substrings -/

/-- `sub in s`. -/
def pyIn (sub s : List Char) : Bool := s.tails.any fun rest => sub.isPrefixOf rest

theorem pyIn_eq_true : pyIn sub s = true ↔ sub <:+: s := by
  unfold pyIn
  rw [any_eq_true]
  constructor
  · rintro ⟨rest, hrest, hsub⟩
    exact (List.isPrefixOf_iff_prefix.1 hsub).isInfix.trans ((mem_tails rest s).1 hrest).isInfix
  · rintro ⟨before, after, rfl⟩
    refine ⟨sub ++ after, (mem_tails _ _).2 ⟨before, (append_assoc ..).symm⟩, ?_⟩
    exact isPrefixOf_iff_prefix.2 (prefix_append sub after)

theorem pyIn_eq_false_of_mem {c : Char} (hsub : c ∈ sub) (hs : c ∉ s) : pyIn sub s = false := by
  rw [← Bool.not_eq_true, pyIn_eq_true]
  exact fun h => hs (h.subset hsub)

theorem pyIn_eq_false_of_infix (part : List Char) (hpart : part <:+: sub)
    (hs : pyIn part s = false) : pyIn sub s = false := by
  rw [← Bool.not_eq_true, pyIn_eq_true] at hs ⊢
  exact fun h => hs (hpart.trans h)

theorem pyIn_append_cons (h : sep ∉ sub) (s s' : List Char) :
    pyIn sub (s ++ sep :: s') = (pyIn sub s || pyIn sub s') := by
  rw [Bool.eq_iff_iff, Bool.or_eq_true, pyIn_eq_true, pyIn_eq_true, pyIn_eq_true]
  constructor
  · rintro ⟨before, after, heq⟩
    rw [append_eq_append_iff] at heq
    rcases heq with ⟨rest, rfl, -⟩ | ⟨rest, heq, hrest⟩
    · exact .inl ⟨before, rest, rfl⟩
    · rw [append_eq_append_iff] at heq
      rcases heq with ⟨rest', rfl, rfl⟩ | ⟨rest', rfl, rfl⟩
      · cases rest with
        | nil => exact .inl ⟨before, [], by simp⟩
        | cons c rest =>
          cases hrest
          exact absurd (by simp) h
      · cases rest' with
        | nil =>
          cases sub with
          | nil => exact .inl (List.nil_infix)
          | cons c sub =>
            cases hrest
            exact absurd mem_cons_self h
        | cons c rest' =>
          cases hrest
          exact .inr ⟨rest', after, rfl⟩
  · rintro (h | h)
    · exact h.trans (prefix_append s _).isInfix
    · exact h.trans (suffix_append_of_suffix (suffix_cons sep s')).isInfix

/-- Without the places of `sub`, from the left; the first `skip` characters belong to one. -/
def removeFrom (sub : List Char) : Nat → List Char → List Char
  | _, [] => []
  | skip + 1, _ :: cs => removeFrom sub skip cs
  | 0, c :: cs =>
    if sub.isPrefixOf (c :: cs) then removeFrom sub (sub.length - 1) cs else c :: removeFrom sub 0 cs

/-- `s.replace(sub, "")`, of a `sub` that is not empty. -/
def pyRemove (sub s : List Char) : List Char := removeFrom sub 0 s

theorem pyIn_intercalate (h : sep ∉ sub) {parts : List (List Char)}
    (hne : parts ≠ []) : pyIn sub ([sep].intercalate parts) = parts.any (pyIn sub) := by
  induction parts with
  | nil => exact absurd rfl hne
  | cons part parts ih =>
    cases parts with
    | nil => simp [List.intercalate]
    | cons next parts =>
      have hcons : [sep].intercalate (part :: next :: parts) =
          part ++ sep :: [sep].intercalate (next :: parts) := by
        simp [List.intercalate]
      rw [hcons, pyIn_append_cons h, ih (cons_ne_nil _ _), any_cons (l := next :: parts)]

end Verl
