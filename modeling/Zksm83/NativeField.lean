import Zksm83.Library.Residue

/-!
# The native proof field

The base field of the commitment scheme: the integers modulo `2^128 - 0xffffa7f7`. Its primality is
checked by a chain of Lucas tests. After `NativeField` of `uniform.rs` and the modulus of
`zksm83-cuda/src/field.rs`.
-/

namespace Zksm83

open Constraint

/-- The modulus of the native field. -/
abbrev fieldModulus : ℕ := 340282366920938463463374607427473266697

theorem fieldModulus_eq : fieldModulus = 2 ^ 128 - 0xffffa7f7 := by norm_num

/-- The native modulus is prime. -/
theorem fieldModulus_prime : fieldModulus.Prime := by
  -- Each factor of a predecessor that is too large for trial division has a test of its own.
  have hfirst : (23569717 : ℕ).Prime :=
    prime_of_lucasTest 25 2 [2, 2, 3, 1964143] (by norm_num) (by decide +kernel)
  have hsecond : (942788681 : ℕ).Prime :=
    prime_of_lucasTest 30 3 [2, 2, 2, 5, 23569717]
      ⟨by norm_num, by norm_num, by norm_num, by norm_num, hfirst⟩ (by decide +kernel)
  have hthird : (33908337700847 : ℕ).Prime :=
    prime_of_lucasTest 45 5 [2, 7, 7, 367, 942788681]
      ⟨by norm_num, by norm_num, by norm_num, by norm_num, hsecond⟩ (by decide +kernel)
  have hfourth : (3296066903 : ℕ).Prime :=
    prime_of_lucasTest 32 5 [2, 18223, 90437] (by norm_num) (by decide +kernel)
  have hfifth : (54317376720913331118684727 : ℕ).Prime :=
    prime_of_lucasTest 86 3 [2, 3, 3, 3, 3, 3, 3296066903, 33908337700847]
      ⟨by norm_num, by norm_num, by norm_num, by norm_num, by norm_num, by norm_num, hfourth,
        hthird⟩ (by decide +kernel)
  exact prime_of_lucasTest 128 10
    [2, 2, 2, 3, 3, 3, 3, 3, 3, 3, 19, 41, 459647, 54317376720913331118684727]
    ⟨by norm_num, by norm_num, by norm_num, by norm_num, by norm_num, by norm_num, by norm_num,
      by norm_num, by norm_num, by norm_num, by norm_num, by norm_num, by norm_num, hfifth⟩
    (by decide +kernel)

instance : Fact fieldModulus.Prime := ⟨fieldModulus_prime⟩

/-- The native field. -/
abbrev NativeField : Type := ZMod fieldModulus

/-- Small naturals have distinct images. -/
theorem natCast_inj {a b : ℕ} (ha : a < fieldModulus) (hb : b < fieldModulus) :
    (a : NativeField) = (b : NativeField) ↔ a = b := by
  rw [ZMod.natCast_eq_natCast_iff', Nat.mod_eq_of_lt ha, Nat.mod_eq_of_lt hb]

/-- Numbers that are far below the modulus agree in the field exactly if they are equal. -/
theorem eq_of_natCast_eq {a b : ℕ} (h : (a : NativeField) = (b : NativeField))
    (ha : a < 1000000000000) (hb : b < 1000000000000) : a = b :=
  (natCast_inj (ha.trans (by norm_num)) (hb.trans (by norm_num))).mp h

theorem natCast_ne_zero {a : ℕ} (hpos : 1 ≤ a) (ha : a < 1000000000000) :
    (a : NativeField) ≠ 0 := by
  intro hzero
  have heq := eq_of_natCast_eq (hzero.trans Nat.cast_zero.symm) ha (by norm_num)
  omega

end Zksm83
