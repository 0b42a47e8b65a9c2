import Mathlib

/-!
# Machine words with carries

Addition and subtraction of `w`-bit words that report their carry, and the widening product with two
addends. Each operation has one equation between natural numbers; values of several words follow
from these equations by linear arithmetic.
-/

namespace Limb

variable {w : ℕ}

/-- The wrapped sum, and whether it wrapped. -/
def overflowingAdd (x y : BitVec w) : BitVec w × Bool :=
  (x + y, decide (2 ^ w ≤ x.toNat + y.toNat))

/-- The wrapped difference, and whether it wrapped. -/
def overflowingSub (x y : BitVec w) : BitVec w × Bool :=
  (x - y, decide (x.toNat < y.toNat))

/-- The low and the high word of `x * y + carry + add`. -/
def carryingMulAdd (x y carry add : BitVec w) : BitVec w × BitVec w :=
  let wide := x.toNat * y.toNat + carry.toNat + add.toNat
  (BitVec.ofNat w wide, BitVec.ofNat w (wide / 2 ^ w))

/-- The low and the high word of `x * y + carry`. -/
def carryingMul (x y carry : BitVec w) : BitVec w × BitVec w := carryingMulAdd x y carry 0

/-- A carry as a word. -/
def ofCarry (w : ℕ) (carry : Bool) : BitVec w := BitVec.ofNat w carry.toNat

/-- A carry as a word has the value of the carry. -/
theorem toNat_ofCarry (hw : 0 < w) (carry : Bool) : (ofCarry w carry).toNat = carry.toNat := by
  have hpow : 2 ^ 1 ≤ 2 ^ w := Nat.pow_le_pow_right (by decide) hw
  have hcarry : carry.toNat ≤ 1 := Bool.toNat_le carry
  rw [ofCarry, BitVec.toNat_ofNat, Nat.mod_eq_of_lt (by omega)]

/-- A sum is its wrapped word and its carry. -/
theorem overflowingAdd_value {x y word : BitVec w} {carry : Bool}
    (hadd : overflowingAdd x y = (word, carry)) :
    word.toNat + 2 ^ w * carry.toNat = x.toNat + y.toNat := by
  have hx := x.isLt
  have hy := y.isLt
  obtain ⟨rfl, rfl⟩ := Prod.mk.inj hadd
  rw [BitVec.toNat_add]
  by_cases hwrap : 2 ^ w ≤ x.toNat + y.toNat
  · have hmod : (x.toNat + y.toNat) % 2 ^ w = x.toNat + y.toNat - 2 ^ w := by
      rw [Nat.mod_eq_sub_mod hwrap, Nat.mod_eq_of_lt (by omega)]
    simp only [hmod, hwrap, decide_true, Bool.toNat_true]
    omega
  · rw [Nat.mod_eq_of_lt (by omega)]
    simp [hwrap]

/-- A difference is its wrapped word less its borrow. -/
theorem overflowingSub_value {x y word : BitVec w} {borrow : Bool}
    (hsub : overflowingSub x y = (word, borrow)) :
    word.toNat + y.toNat = x.toNat + 2 ^ w * borrow.toNat := by
  have hx := x.isLt
  have hy := y.isLt
  obtain ⟨rfl, rfl⟩ := Prod.mk.inj hsub
  by_cases hborrow : x.toNat < y.toNat
  · rw [BitVec.toNat_sub, Nat.mod_eq_of_lt (by omega)]
    simp only [hborrow, decide_true, Bool.toNat_true]
    omega
  · rw [BitVec.toNat_sub_of_le (by rw [BitVec.le_def]; omega)]
    simp only [hborrow, decide_false, Bool.toNat_false]
    omega

/-- The two words of a widening product hold all of it. -/
theorem carryingMulAdd_value {x y carry add low high : BitVec w}
    (hmul : carryingMulAdd x y carry add = (low, high)) :
    low.toNat + 2 ^ w * high.toNat = x.toNat * y.toNat + carry.toNat + add.toNat := by
  have hx := x.isLt
  have hy := y.isLt
  have hcarry := carry.isLt
  have hadd := add.isLt
  obtain ⟨base, hbase⟩ : ∃ base, 2 ^ w = base + 1 := ⟨2 ^ w - 1, by omega⟩
  -- The largest result is the square of the base less one.
  have hwide : x.toNat * y.toNat + carry.toNat + add.toNat < 2 ^ w * 2 ^ w := by
    have hproduct : x.toNat * y.toNat ≤ base * base := Nat.mul_le_mul (by omega) (by omega)
    rw [hbase]
    have hsquare : (base + 1) * (base + 1) = base * base + 2 * base + 1 := by ring
    omega
  obtain ⟨rfl, rfl⟩ := Prod.mk.inj hmul
  rw [BitVec.toNat_ofNat, BitVec.toNat_ofNat,
    Nat.mod_eq_of_lt (Nat.div_lt_of_lt_mul hwide)]
  exact Nat.mod_add_div _ _

/-- The two words of a widening product with one addend. -/
theorem carryingMul_value {x y carry low high : BitVec w}
    (hmul : carryingMul x y carry = (low, high)) :
    low.toNat + 2 ^ w * high.toNat = x.toNat * y.toNat + carry.toNat := by
  have hvalue := carryingMulAdd_value hmul
  simpa using hvalue

end Limb
