import Mathlib

/-!
# Numerals

A numeral of a finite type or of a ring rests on a fact about a number. The facts for the numbers
in use have names here, so that a numeral is the same term wherever it is written.
-/

instance neZeroTwo : NeZero 2 := ⟨two_ne_zero⟩

instance neZeroByte : NeZero 256 := ⟨by decide⟩

instance atLeastTwoTwo : Nat.AtLeastTwo 2 := ⟨le_rfl⟩
