import Zksm83.Library.Limb
import Zksm83.NativeField

/-!
# Field arithmetic of the CUDA backend

Two-limb elements of the native field, with carry chains for sums and differences and a two-fold
Solinas reduction for products. Every operation is exact: canonical limbs, with the value that the
native field computes. After `zksm83-cuda/src/field.rs`.
-/

namespace Zksm83.Cuda

open Limb

/-- The distance of the modulus from `2^128`. -/
def reductionOffset : BitVec 64 := 0xffffa7f7

/-- The low limb of the modulus. -/
def modulusLow : BitVec 64 := 0 - reductionOffset

/-- Two limbs of a field element. -/
structure FieldElement where
  low : BitVec 64
  high : BitVec 64
  deriving DecidableEq

/-- A result of the reduction that has not been compared with the modulus. -/
def canonicalizeAfterAdd (low high : BitVec 64) (overflow : Bool) : FieldElement :=
  let (reducedLow, carryLow) := overflowingAdd low reductionOffset
  let (reducedHigh, carryHigh) := overflowingAdd high (ofCarry 64 carryLow)
  if overflow || carryHigh then ⟨reducedLow, reducedHigh⟩ else ⟨low, high⟩

def subtractReductionOffset (low high : BitVec 64) : FieldElement :=
  let (reducedLow, borrow) := overflowingSub low reductionOffset
  ⟨reducedLow, high - ofCarry 64 borrow⟩

/-- The four words of a product of two-limb numbers. -/
def multiplyWide (lhs rhs : FieldElement) : BitVec 64 × BitVec 64 × BitVec 64 × BitVec 64 :=
  let (r0, carry0) := carryingMul lhs.low rhs.low 0
  let (r1Partial, carry1) := carryingMulAdd lhs.low rhs.high carry0 0
  let (r1, carry2) := carryingMulAdd lhs.high rhs.low 0 r1Partial
  let (r2, r3) := carryingMulAdd lhs.high rhs.high carry1 carry2
  (r0, r1, r2, r3)

def multiplyOffsetWide (value : BitVec 64) : BitVec 64 × BitVec 64 :=
  carryingMul reductionOffset value 0

/-- The second fold: the third word times the offset. -/
def foldHighLimb (t0 t1 t2 : BitVec 64) : FieldElement :=
  let (offsetT2Low, offsetT2High) := multiplyOffsetWide t2
  let (sumLow, carryLow) := overflowingAdd t0 offsetT2Low
  let (sumHighA, carryHighA) := overflowingAdd t1 offsetT2High
  let (sumHigh, carryHighB) := overflowingAdd sumHighA (ofCarry 64 carryLow)
  canonicalizeAfterAdd sumLow sumHigh (carryHighA || carryHighB)

/-- The first fold: the two high words times the offset. -/
def reduceWide (r0 r1 r2 r3 : BitVec 64) : FieldElement :=
  let (offsetR2Low, offsetR2High) := multiplyOffsetWide r2
  let (offsetR3Low, offsetR3High) := multiplyOffsetWide r3
  let (t0, carry0) := overflowingAdd r0 offsetR2Low
  let (t1A, carry1A) := overflowingAdd r1 offsetR2High
  let (t1B, carry1B) := overflowingAdd t1A offsetR3Low
  let (t1, carry1C) := overflowingAdd t1B (ofCarry 64 carry0)
  let t2 := offsetR3High + ofCarry 64 carry1A + ofCarry 64 carry1B + ofCarry 64 carry1C
  foldHighLimb t0 t1 t2

namespace FieldElement

/-- The limbs of a number below the modulus. -/
def fromCanonicalLimbs (low high : BitVec 64) : Option FieldElement :=
  if high ≠ BitVec.allOnes 64 ∨ low < modulusLow then some ⟨low, high⟩ else none

def addMod (x rhs : FieldElement) : FieldElement :=
  let (low, carryLow) := overflowingAdd x.low rhs.low
  let (highWithoutCarry, carryHighA) := overflowingAdd x.high rhs.high
  let (high, carryHighB) := overflowingAdd highWithoutCarry (ofCarry 64 carryLow)
  canonicalizeAfterAdd low high (carryHighA || carryHighB)

def subMod (x rhs : FieldElement) : FieldElement :=
  let (low, borrowLow) := overflowingSub x.low rhs.low
  let (highWithoutBorrow, borrowHighA) := overflowingSub x.high rhs.high
  let (high, borrowHighB) := overflowingSub highWithoutBorrow (ofCarry 64 borrowLow)
  if borrowHighA || borrowHighB then subtractReductionOffset low high else ⟨low, high⟩

def mulMod (x rhs : FieldElement) : FieldElement :=
  let (r0, r1, r2, r3) := multiplyWide x rhs
  reduceWide r0 r1 r2 r3

/-- `low + challenge * (high - low)`. -/
def fold (low high challenge : FieldElement) : FieldElement :=
  low.addMod (challenge.mulMod (high.subMod low))

/-- The number that the limbs stand for. -/
def value (x : FieldElement) : ℕ := x.low.toNat + 2 ^ 64 * x.high.toNat

/-- Limbs of a number below the modulus. -/
def Canonical (x : FieldElement) : Prop := x.value < fieldModulus

/-- The constructor accepts exactly the canonical limbs. -/
theorem fromCanonicalLimbs_eq_some {low high : BitVec 64} {x : FieldElement} :
    fromCanonicalLimbs low high = some x ↔ x = ⟨low, high⟩ ∧ x.Canonical := by
  have hlow := low.isLt
  have hhigh := high.isLt
  have hmodulus : modulusLow.toNat = 0xffffffff00005809 := by decide
  have hcanonical : (high ≠ BitVec.allOnes 64 ∨ low < modulusLow) ↔
      (⟨low, high⟩ : FieldElement).Canonical := by
    rw [BitVec.lt_def, hmodulus, ne_eq, BitVec.toNat_eq, BitVec.toNat_allOnes, Canonical, value]
    simp only [fieldModulus]
    omega
  unfold fromCanonicalLimbs
  split_ifs with haccept
  · constructor
    · intro hx
      obtain rfl := Option.some.inj hx
      exact ⟨rfl, hcanonical.mp haccept⟩
    · rintro ⟨rfl, -⟩
      rfl
  · constructor
    · intro hx
      cases hx
    · rintro ⟨rfl, hx⟩
      exact absurd (hcanonical.mpr hx) haccept

end FieldElement

open FieldElement

theorem reductionOffset_toNat : reductionOffset.toNat = 0xffffa7f7 := by decide

theorem toNat_zeroWord : (0 : BitVec 64).toNat = 0 := rfl

/-- A two-limb sum. -/
theorem addLimbs_value {xLow xHigh yLow yHigh low highA high : BitVec 64}
    {carryLow carryA carryB : Bool} (hlow : overflowingAdd xLow yLow = (low, carryLow))
    (hhighA : overflowingAdd xHigh yHigh = (highA, carryA))
    (hhigh : overflowingAdd highA (ofCarry 64 carryLow) = (high, carryB)) :
    low.toNat + 2 ^ 64 * high.toNat + 2 ^ 128 * (carryA || carryB).toNat =
      xLow.toNat + 2 ^ 64 * xHigh.toNat + (yLow.toNat + 2 ^ 64 * yHigh.toNat) := by
  have hx := xHigh.isLt
  have hy := yHigh.isLt
  have hA := highA.isLt
  have hcarry := Bool.toNat_le carryLow
  have hvalueLow := overflowingAdd_value hlow
  have hvalueA := overflowingAdd_value hhighA
  have hvalue := overflowingAdd_value hhigh
  rw [toNat_ofCarry (by decide)] at hvalue
  -- At most one of the two carries out of the high limb is set.
  have hcarries : (carryA || carryB).toNat = carryA.toNat + carryB.toNat := by
    cases carryA <;> cases carryB <;> simp only [Bool.toNat_true, Bool.toNat_false,
      Bool.or_self, Bool.or_true, Bool.or_false] at *
    omega
  rw [hcarries]
  omega

/-- A two-limb difference. -/
theorem subLimbs_value {xLow xHigh yLow yHigh low highA high : BitVec 64}
    {borrowLow borrowA borrowB : Bool} (hlow : overflowingSub xLow yLow = (low, borrowLow))
    (hhighA : overflowingSub xHigh yHigh = (highA, borrowA))
    (hhigh : overflowingSub highA (ofCarry 64 borrowLow) = (high, borrowB)) :
    low.toNat + 2 ^ 64 * high.toNat + (yLow.toNat + 2 ^ 64 * yHigh.toNat) =
      xLow.toNat + 2 ^ 64 * xHigh.toNat + 2 ^ 128 * (borrowA || borrowB).toNat := by
  have hx := xHigh.isLt
  have hy := yHigh.isLt
  have hA := highA.isLt
  have hB := high.isLt
  have hborrow := Bool.toNat_le borrowLow
  have hvalueLow := overflowingSub_value hlow
  have hvalueA := overflowingSub_value hhighA
  have hvalue := overflowingSub_value hhigh
  rw [toNat_ofCarry (by decide)] at hvalue
  have hborrows : (borrowA || borrowB).toNat = borrowA.toNat + borrowB.toNat := by
    cases borrowA <;> cases borrowB <;> simp only [Bool.toNat_true, Bool.toNat_false,
      Bool.or_self, Bool.or_true, Bool.or_false] at *
    omega
  rw [hborrows]
  omega

/-- A two-limb sum below twice the modulus is reduced once. -/
theorem canonicalizeAfterAdd_value {low high : BitVec 64} {overflow : Bool} {total : ℕ}
    (htotal : low.toNat + 2 ^ 64 * high.toNat + 2 ^ 128 * overflow.toNat = total)
    (hsmall : total < 2 * fieldModulus) :
    (canonicalizeAfterAdd low high overflow).value = total % fieldModulus := by
  have hlow := low.isLt
  have hhigh := high.isLt
  unfold canonicalizeAfterAdd
  rcases hsumLow : overflowingAdd low reductionOffset with ⟨reducedLow, carryLow⟩
  rcases hsumHigh : overflowingAdd high (ofCarry 64 carryLow) with ⟨reducedHigh, carryHigh⟩
  have hvalueLow := overflowingAdd_value hsumLow
  have hvalueHigh := overflowingAdd_value hsumHigh
  rw [toNat_ofCarry (by decide)] at hvalueHigh
  rw [reductionOffset_toNat] at hvalueLow
  simp only [hsumHigh]
  have hrl := reducedLow.isLt
  have hrh := reducedHigh.isLt
  -- What the sum with the offset carries out is what exceeds the modulus.
  have hreduced : reducedLow.toNat + 2 ^ 64 * reducedHigh.toNat + 2 ^ 128 * carryHigh.toNat +
      2 ^ 128 * overflow.toNat + fieldModulus = total + 2 ^ 128 := by
    simp only [fieldModulus] at *
    omega
  cases overflow with
  | true =>
    have hcarry : carryHigh.toNat = 0 := by
      simp only [fieldModulus, Bool.toNat_true] at *
      omega
    rw [Bool.true_or, if_pos rfl, value, Nat.mod_eq_sub_mod, Nat.mod_eq_of_lt] <;>
      simp only [fieldModulus, Bool.toNat_true, hcarry] at * <;> omega
  | false =>
    cases carryHigh with
    | true =>
      rw [Bool.false_or, if_pos rfl, value, Nat.mod_eq_sub_mod, Nat.mod_eq_of_lt] <;>
        simp only [fieldModulus, Bool.toNat_true, Bool.toNat_false] at * <;> omega
    | false =>
      rw [Bool.false_or, if_neg (by decide), value, Nat.mod_eq_of_lt] <;>
        simp only [fieldModulus, Bool.toNat_false] at * <;> omega

/-- Taking the offset off a number that wrapped at `2^128`. -/
theorem subtractReductionOffset_value {low high : BitVec 64} {difference : ℕ}
    (hvalue : low.toNat + 2 ^ 64 * high.toNat = difference + 0xffffa7f7) :
    (subtractReductionOffset low high).value = difference := by
  have hlow := low.isLt
  have hhigh := high.isLt
  unfold subtractReductionOffset
  rcases hsub : overflowingSub low reductionOffset with ⟨reducedLow, borrow⟩
  have hvalueLow := overflowingSub_value hsub
  have hrl := reducedLow.isLt
  have hborrow := Bool.toNat_le borrow
  have hword : (ofCarry 64 borrow).toNat = borrow.toNat := toNat_ofCarry (by decide) borrow
  rw [reductionOffset_toNat] at hvalueLow
  -- The high limb pays for the borrow, so it does not wrap.
  have hpaid : ofCarry 64 borrow ≤ high := by
    rw [BitVec.le_def, hword]
    omega
  show reducedLow.toNat + 2 ^ 64 * (high - ofCarry 64 borrow).toNat = difference
  rw [BitVec.le_def, hword] at hpaid
  rw [BitVec.toNat_sub_of_le (by rwa [BitVec.le_def, hword]), hword]
  omega

/-- The offset times a word, in two words. -/
theorem multiplyOffsetWide_value {word low high : BitVec 64}
    (hoffset : multiplyOffsetWide word = (low, high)) :
    low.toNat + 2 ^ 64 * high.toNat = 0xffffa7f7 * word.toNat := by
  have hvalue := carryingMul_value hoffset
  rwa [reductionOffset_toNat, toNat_zeroWord, Nat.add_zero] at hvalue

/-- The four words hold the whole product. -/
theorem multiplyWide_value {lhs rhs : FieldElement} {r0 r1 r2 r3 : BitVec 64}
    (hwide : multiplyWide lhs rhs = (r0, r1, r2, r3)) :
    r0.toNat + 2 ^ 64 * r1.toNat + 2 ^ 128 * r2.toNat + 2 ^ 192 * r3.toNat =
      lhs.value * rhs.value := by
  unfold multiplyWide at hwide
  rcases h0 : carryingMul lhs.low rhs.low 0 with ⟨w0, carry0⟩
  rcases h1 : carryingMulAdd lhs.low rhs.high carry0 0 with ⟨r1Partial, carry1⟩
  rcases h2 : carryingMulAdd lhs.high rhs.low 0 r1Partial with ⟨w1, carry2⟩
  rcases h3 : carryingMulAdd lhs.high rhs.high carry1 carry2 with ⟨w2, w3⟩
  simp only [h0, h1, h2, h3, Prod.mk.injEq] at hwide
  obtain ⟨rfl, rfl, rfl, rfl⟩ := hwide
  have hvalue0 := carryingMul_value h0
  have hvalue1 := carryingMulAdd_value h1
  have hvalue2 := carryingMulAdd_value h2
  have hvalue3 := carryingMulAdd_value h3
  rw [toNat_zeroWord] at hvalue0 hvalue1 hvalue2
  -- The four partial products of the limbs, each at its place.
  have hproduct : lhs.value * rhs.value =
      lhs.low.toNat * rhs.low.toNat + 2 ^ 64 * (lhs.low.toNat * rhs.high.toNat) +
        2 ^ 64 * (lhs.high.toNat * rhs.low.toNat) +
          2 ^ 128 * (lhs.high.toNat * rhs.high.toNat) := by
    unfold value
    ring
  rw [hproduct]
  omega

/-- The second fold reduces three words whose third is at most the offset. -/
theorem foldHighLimb_value {t0 t1 t2 : BitVec 64} (hsmall : t2.toNat ≤ 0xffffa7f7) :
    (foldHighLimb t0 t1 t2).value =
      (t0.toNat + 2 ^ 64 * t1.toNat + 2 ^ 128 * t2.toNat) % fieldModulus := by
  have h0 := t0.isLt
  have h1 := t1.isLt
  unfold foldHighLimb
  rcases hoffset : multiplyOffsetWide t2 with ⟨offsetLow, offsetHigh⟩
  rcases hlow : overflowingAdd t0 offsetLow with ⟨sumLow, carryLow⟩
  rcases hhighA : overflowingAdd t1 offsetHigh with ⟨sumHighA, carryHighA⟩
  rcases hhigh : overflowingAdd sumHighA (ofCarry 64 carryLow) with ⟨sumHigh, carryHighB⟩
  simp only [hlow, hhighA, hhigh]
  have hvalue := multiplyOffsetWide_value hoffset
  have hsum := addLimbs_value hlow hhighA hhigh
  -- Folding `2 ^ 128` into the offset changes the number by a multiple of the modulus.
  have hfold : t0.toNat + 2 ^ 64 * t1.toNat + 2 ^ 128 * t2.toNat =
      t0.toNat + 2 ^ 64 * t1.toNat + (offsetLow.toNat + 2 ^ 64 * offsetHigh.toNat) +
        fieldModulus * t2.toNat := by
    simp only [fieldModulus]
    omega
  rw [hfold, Nat.add_mul_mod_self_left]
  apply canonicalizeAfterAdd_value hsum
  simp only [fieldModulus]
  omega

/-- Two folds reduce every four words; no third fold is needed. -/
theorem reduceWide_value (r0 r1 r2 r3 : BitVec 64) :
    (reduceWide r0 r1 r2 r3).value =
      (r0.toNat + 2 ^ 64 * r1.toNat + 2 ^ 128 * r2.toNat + 2 ^ 192 * r3.toNat) %
        fieldModulus := by
  have hr3 := r3.isLt
  unfold reduceWide
  rcases hoffset2 : multiplyOffsetWide r2 with ⟨offsetR2Low, offsetR2High⟩
  rcases hoffset3 : multiplyOffsetWide r3 with ⟨offsetR3Low, offsetR3High⟩
  rcases h0 : overflowingAdd r0 offsetR2Low with ⟨t0, carry0⟩
  rcases hA : overflowingAdd r1 offsetR2High with ⟨t1A, carry1A⟩
  rcases hB : overflowingAdd t1A offsetR3Low with ⟨t1B, carry1B⟩
  rcases hC : overflowingAdd t1B (ofCarry 64 carry0) with ⟨t1, carry1C⟩
  simp only [h0, hA, hB, hC]
  have hvalue2 := multiplyOffsetWide_value hoffset2
  have hvalue3 := multiplyOffsetWide_value hoffset3
  have hvalue0 := overflowingAdd_value h0
  have hvalueA := overflowingAdd_value hA
  have hvalueB := overflowingAdd_value hB
  have hvalueC := overflowingAdd_value hC
  have hword0 : (ofCarry 64 carry0).toNat = carry0.toNat := toNat_ofCarry (by decide) carry0
  have hwordA : (ofCarry 64 carry1A).toNat = carry1A.toNat := toNat_ofCarry (by decide) carry1A
  have hwordB : (ofCarry 64 carry1B).toNat = carry1B.toNat := toNat_ofCarry (by decide) carry1B
  have hwordC : (ofCarry 64 carry1C).toNat = carry1C.toNat := toNat_ofCarry (by decide) carry1C
  have hcarryA := Bool.toNat_le carry1A
  have hcarryB := Bool.toNat_le carry1B
  have hcarryC := Bool.toNat_le carry1C
  -- The third word collects the carries and stays far below a word.
  have hthird : (offsetR3High + ofCarry 64 carry1A + ofCarry 64 carry1B +
      ofCarry 64 carry1C).toNat =
        offsetR3High.toNat + carry1A.toNat + carry1B.toNat + carry1C.toNat := by
    simp only [BitVec.toNat_add, hwordA, hwordB, hwordC]
    omega
  -- The first fold changes the number by a multiple of the modulus as well.
  have hfold : r0.toNat + 2 ^ 64 * r1.toNat + 2 ^ 128 * r2.toNat + 2 ^ 192 * r3.toNat =
      t0.toNat + 2 ^ 64 * t1.toNat +
        2 ^ 128 * (offsetR3High.toNat + carry1A.toNat + carry1B.toNat + carry1C.toNat) +
          fieldModulus * (r2.toNat + 2 ^ 64 * r3.toNat) := by
    simp only [fieldModulus]
    omega
  have ht2 : offsetR3High.toNat + carry1A.toNat + carry1B.toNat + carry1C.toNat ≤ 0xffffa7f7 := by
    have hr0 := r0.isLt
    have hr1 := r1.isLt
    have hr2 := r2.isLt
    omega
  rw [foldHighLimb_value (by rw [hthird]; exact ht2), hthird, hfold, Nat.add_mul_mod_self_left]

namespace FieldElement

/-- A remainder is canonical. -/
theorem canonical_of_mod {x : FieldElement} {total : ℕ} (hx : x.value = total % fieldModulus) :
    x.Canonical := by
  rw [Canonical, hx]
  exact Nat.mod_lt _ (by norm_num)

/-- The sum of canonical elements. -/
theorem addMod_value {x y : FieldElement} (hx : x.Canonical) (hy : y.Canonical) :
    (x.addMod y).value = (x.value + y.value) % fieldModulus := by
  unfold addMod
  rcases hlow : overflowingAdd x.low y.low with ⟨low, carryLow⟩
  rcases hhighA : overflowingAdd x.high y.high with ⟨highA, carryA⟩
  rcases hhigh : overflowingAdd highA (ofCarry 64 carryLow) with ⟨high, carryB⟩
  simp only [hhigh]
  apply canonicalizeAfterAdd_value (addLimbs_value hlow hhighA hhigh)
  show x.value + y.value < _
  unfold Canonical at hx hy
  omega

/-- The difference of canonical elements; a borrow adds the modulus. -/
theorem subMod_value {x y : FieldElement} (hx : x.Canonical) (hy : y.Canonical) :
    (x.subMod y).value = (x.value + (fieldModulus - y.value)) % fieldModulus := by
  unfold subMod
  rcases hlow : overflowingSub x.low y.low with ⟨low, borrowLow⟩
  rcases hhighA : overflowingSub x.high y.high with ⟨highA, borrowA⟩
  rcases hhigh : overflowingSub highA (ofCarry 64 borrowLow) with ⟨high, borrowB⟩
  simp only [hhigh]
  have hdifference : low.toNat + 2 ^ 64 * high.toNat + y.value =
      x.value + 2 ^ 128 * (borrowA || borrowB).toNat := subLimbs_value hlow hhighA hhigh
  have hfits : low.toNat + 2 ^ 64 * high.toNat < 2 ^ 128 := by
    have hl := low.isLt
    have hh := high.isLt
    omega
  unfold Canonical at hx hy
  by_cases hwrapped : (borrowA || borrowB) = true
  · rw [if_pos hwrapped]
    rw [hwrapped, Bool.toNat_true] at hdifference
    have hoffset : low.toNat + 2 ^ 64 * high.toNat =
        x.value + (fieldModulus - y.value) + 0xffffa7f7 := by
      simp only [fieldModulus] at *
      omega
    rw [subtractReductionOffset_value hoffset, Nat.mod_eq_of_lt]
    simp only [fieldModulus] at *
    omega
  · rw [if_neg hwrapped]
    rw [Bool.not_eq_true] at hwrapped
    rw [hwrapped, Bool.toNat_false] at hdifference
    have hsplit : x.value + (fieldModulus - y.value) =
        low.toNat + 2 ^ 64 * high.toNat + fieldModulus := by
      omega
    rw [hsplit, Nat.add_mod_right, value, Nat.mod_eq_of_lt (by omega)]

/-- The product. -/
theorem mulMod_value (x y : FieldElement) :
    (x.mulMod y).value = x.value * y.value % fieldModulus := by
  unfold mulMod
  rcases hwide : multiplyWide x y with ⟨r0, r1, r2, r3⟩
  exact (reduceWide_value r0 r1 r2 r3).trans (by rw [multiplyWide_value hwide])

/-- The difference of canonical elements, between integers. -/
theorem subMod_intValue {x y : FieldElement} (hx : x.Canonical) (hy : y.Canonical) :
    ((x.subMod y).value : ℤ) = ((x.value : ℤ) - y.value) % fieldModulus := by
  have hle : y.value ≤ fieldModulus := Nat.le_of_lt hy
  rw [subMod_value hx hy, Int.natCast_mod, Int.natCast_add, Int.natCast_sub hle,
    ← Int.add_emod_right ((x.value : ℤ) - y.value)]
  congr 1
  ring

/-- One step of a linear interpolation. -/
theorem fold_intValue {low high challenge : FieldElement} (hlow : low.Canonical)
    (hhigh : high.Canonical) :
    ((fold low high challenge).value : ℤ) =
      ((low.value : ℤ) + challenge.value * ((high.value : ℤ) - low.value)) % fieldModulus := by
  have hproduct : (challenge.mulMod (high.subMod low)).Canonical :=
    canonical_of_mod (mulMod_value _ _)
  rw [fold, addMod_value hlow hproduct, mulMod_value, Int.natCast_mod, Int.natCast_add,
    Int.natCast_mod, Int.natCast_mul, subMod_intValue hhigh hlow, Int.add_emod_emod]
  -- Reducing the difference first changes nothing modulo the modulus.
  exact (Int.ModEq.refl _).add (Int.ModEq.mul_left _ (Int.mod_modEq _ _))

/-- Device field arithmetic is exact: canonical operands give canonical results with the value that
the field computes (for any challenge), the wide product is the whole product, and two folds reduce any four words. -/
theorem fieldArithmetic_exact {x y : FieldElement} (hx : x.Canonical)
    (hy : y.Canonical) (challenge : FieldElement) :
    ((x.addMod y).Canonical ∧ (x.addMod y).value = (x.value + y.value) % fieldModulus) ∧
      ((x.subMod y).Canonical ∧
        ((x.subMod y).value : ℤ) = ((x.value : ℤ) - y.value) % fieldModulus) ∧
      ((x.mulMod y).Canonical ∧ (x.mulMod y).value = x.value * y.value % fieldModulus) ∧
      ((fold x y challenge).Canonical ∧ ((fold x y challenge).value : ℤ) =
        ((x.value : ℤ) + challenge.value * ((y.value : ℤ) - x.value)) % fieldModulus) ∧
      (∀ r0 r1 r2 r3, multiplyWide x y = (r0, r1, r2, r3) →
        r0.toNat + 2 ^ 64 * r1.toNat + 2 ^ 128 * r2.toNat + 2 ^ 192 * r3.toNat =
          x.value * y.value) ∧
      ∀ r0 r1 r2 r3, (reduceWide r0 r1 r2 r3).Canonical ∧ (reduceWide r0 r1 r2 r3).value =
        (r0.toNat + 2 ^ 64 * r1.toNat + 2 ^ 128 * r2.toNat + 2 ^ 192 * r3.toNat) %
          fieldModulus := by
  have hproduct : (challenge.mulMod (y.subMod x)).Canonical :=
    canonical_of_mod (mulMod_value _ _)
  refine ⟨⟨canonical_of_mod (addMod_value hx hy), addMod_value hx hy⟩,
    ⟨canonical_of_mod (subMod_value hx hy), subMod_intValue hx hy⟩,
    ⟨canonical_of_mod (mulMod_value x y), mulMod_value x y⟩,
    ⟨canonical_of_mod (addMod_value hx hproduct), fold_intValue hx hy⟩,
    fun _ _ _ _ hwide => multiplyWide_value hwide,
    fun r0 r1 r2 r3 => ⟨canonical_of_mod (reduceWide_value r0 r1 r2 r3),
      reduceWide_value r0 r1 r2 r3⟩⟩

/-- The largest element squared, where both folds carry. -/
theorem fieldArithmetic_exact_largest :
    (mulMod ⟨0xffffffff00005808, BitVec.allOnes 64⟩ ⟨0xffffffff00005808, BitVec.allOnes 64⟩).value =
      1 :=
  have hlargest : (⟨0xffffffff00005808, BitVec.allOnes 64⟩ : FieldElement).Canonical := by
    show (0xffffffff00005808 : ℕ) + 2 ^ 64 * (2 ^ 64 - 1) < fieldModulus
    norm_num
  (fieldArithmetic_exact hlargest hlargest ⟨0, 0⟩).2.2.1.2.trans (by
    show ((0xffffffff00005808 : ℕ) + 2 ^ 64 * (2 ^ 64 - 1)) *
      (0xffffffff00005808 + 2 ^ 64 * (2 ^ 64 - 1)) % fieldModulus = 1
    norm_num)

end FieldElement

end Zksm83.Cuda
