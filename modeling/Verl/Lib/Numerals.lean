import Mathlib

/-!
# Numerals

The instances behind the numerals and the finite indices of the development, each a constant.
-/

namespace Verl

instance (priority := 1100) neZero_succ (n : Nat) : NeZero (n + 1) := ⟨n.succ_ne_zero⟩

instance (priority := 1100) neZero_add_two (n : Nat) : NeZero (n + 2) := ⟨(n + 1).succ_ne_zero⟩

instance (priority := 1200) neZero_one : NeZero 1 := ⟨by decide⟩

instance (priority := 1200) neZero_two : NeZero 2 := ⟨by decide⟩

instance (priority := 1200) neZero_three : NeZero 3 := ⟨by decide⟩

instance atLeastTwo_two : Nat.AtLeastTwo 2 := ⟨by decide⟩

instance atLeastTwo_three : Nat.AtLeastTwo 3 := ⟨by decide⟩

instance atLeastTwo_ten : Nat.AtLeastTwo 10 := ⟨by decide⟩

instance atLeastTwo_twenty : Nat.AtLeastTwo 20 := ⟨by decide⟩

instance atLeastTwo_hundred : Nat.AtLeastTwo 100 := ⟨by decide⟩

instance lawfulBEq_fin (n : Nat) : LawfulBEq (Fin n) := inferInstance

instance lawfulBEq_natPair : LawfulBEq (Nat × Nat) := inferInstance

end Verl
