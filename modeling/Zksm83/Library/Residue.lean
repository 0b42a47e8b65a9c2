import Zksm83.Library.Constraint

/-!
# Residues that compute

`ZMod m` is the right type to reason in and a poor one to evaluate in. `Residue m` holds a natural
number and reduces after every operation, so that a closed constraint list over it is a fast
computation, and `Residue.toZMod` carries the outcome over to `ZMod m`. Modular powers are taken by
squaring. They give the inverse constants and the primality test behind them.
-/

namespace Constraint

/-- `base ^ exponent % m` by squaring, for an exponent of at most `bits` bits. -/
def powMod (m : ℕ) : (bits base exponent : ℕ) → ℕ
  | 0, _, _ => 1 % m
  | bits + 1, base, exponent =>
    let square := powMod m bits (base * base % m) (exponent / 2)
    if exponent % 2 = 1 then base * square % m else square

/-- Squaring computes the power when the exponent has at most `bits` bits. -/
theorem powMod_eq (m bits base exponent : ℕ) (hbits : exponent < 2 ^ bits) :
    powMod m bits base exponent = base ^ exponent % m := by
  induction bits generalizing base exponent with
  | zero =>
    have hzero : exponent = 0 := by simpa using hbits
    simp [powMod, hzero]
  | succ bits ih =>
    have hhalf : exponent / 2 < 2 ^ bits := by
      rw [pow_succ] at hbits
      omega
    have hsquare : (base * base % m) ^ (exponent / 2) % m = base ^ (2 * (exponent / 2)) % m := by
      rw [← Nat.pow_mod, pow_mul, sq]
    simp only [powMod]
    rw [ih _ _ hhalf, hsquare]
    split
    · have hodd : exponent = 2 * (exponent / 2) + 1 := by omega
      conv_rhs => rw [hodd, pow_succ, mul_comm]
      rw [Nat.mul_mod_mod]
    · have heven : exponent = 2 * (exponent / 2) := by omega
      conv_rhs => rw [heven]

/-- Powers of a natural number in `ZMod m` are decided by `powMod`. -/
theorem natCast_pow_eq_one_iff (m bits base exponent : ℕ) (hm : 1 < m)
    (hbits : exponent < 2 ^ bits) :
    (base : ZMod m) ^ exponent = 1 ↔ powMod m bits base exponent = 1 := by
  have hone : ((1 : ℕ) : ZMod m) = 1 := Nat.cast_one
  rw [powMod_eq m bits base exponent hbits, ← Nat.cast_pow, ← hone,
    ZMod.natCast_eq_natCast_iff', Nat.mod_eq_of_lt hm]

/-- Lucas's test for `p`, with the prime factors of `p - 1` listed with multiplicity. -/
def lucasTest (p bits base : ℕ) (factors : List ℕ) : Bool :=
  1 < p && p ≤ 2 ^ bits && factors.prod == p - 1 && powMod p bits base (p - 1) == 1 &&
    factors.all (fun q => powMod p bits base ((p - 1) / q) != 1)

/-- A number that passes Lucas's test is prime. -/
theorem prime_of_lucasTest {p : ℕ} (bits base : ℕ) (factors : List ℕ)
    (hfactors : factors.Forall Nat.Prime) (htest : lucasTest p bits base factors = true) :
    p.Prime := by
  rw [List.forall_iff_forall_mem] at hfactors
  simp only [lucasTest, Bool.and_eq_true, decide_eq_true_eq, beq_iff_eq, List.all_eq_true,
    bne_iff_ne, ne_eq] at htest
  obtain ⟨⟨⟨⟨hone, hbound⟩, hprod⟩, hlast⟩, hproper⟩ := htest
  refine lucas_primality p (base : ZMod p) ?_ ?_
  · exact (natCast_pow_eq_one_iff p bits base (p - 1) hone (by omega)).mpr hlast
  · intro q hq hdvd
    rw [← hprod] at hdvd
    obtain ⟨r, hr, hqr⟩ := (Nat.prime_iff.mp hq).dvd_prod_iff.mp hdvd
    obtain rfl : q = r := (Nat.prime_dvd_prime_iff_eq hq (hfactors r hr)).mp hqr
    have hsmall : (p - 1) / q < 2 ^ bits := by
      have := Nat.div_le_self (p - 1) q
      omega
    rw [Ne, natCast_pow_eq_one_iff p bits base _ hone hsmall]
    exact hproper q hr

/-- A residue modulo `m`, held as any natural number of its class. -/
structure Residue (m : ℕ) where
  val : ℕ

namespace Residue

variable {m : ℕ}

instance : Add (Residue m) := ⟨fun x y => ⟨(x.val + y.val) % m⟩⟩

instance : Sub (Residue m) := ⟨fun x y => ⟨(x.val + (m - y.val % m)) % m⟩⟩

instance : Mul (Residue m) := ⟨fun x y => ⟨x.val * y.val % m⟩⟩

instance : NatCast (Residue m) := ⟨fun n => ⟨n⟩⟩

/-- The inverse of a constant modulo a prime, by Fermat's little theorem. -/
instance : InverseConstant (Residue m) :=
  ⟨fun constant => ⟨powMod m (m.log2 + 1) (constant % m).toNat (m - 2)⟩⟩

/-- Whether every listed residue is the zero class. -/
def allZero (residues : List (Residue m)) : Bool :=
  residues.all (fun residue => residue.val % m == 0)

/-- A residue as an element of `ZMod m`. -/
def toZMod (m : ℕ) [NeZero m] : ArithHom (Residue m) (ZMod m) where
  toFun residue := (residue.val : ZMod m)
  map_add' x y := by
    show (((x.val + y.val) % m : ℕ) : ZMod m) = _
    rw [ZMod.natCast_mod, Nat.cast_add]
  map_sub' x y := by
    show (((x.val + (m - y.val % m)) % m : ℕ) : ZMod m) = _
    have hle : y.val % m ≤ m := (Nat.mod_lt _ (NeZero.pos m)).le
    rw [ZMod.natCast_mod, Nat.cast_add, Nat.cast_sub hle, ZMod.natCast_self, ZMod.natCast_mod,
      zero_sub, sub_eq_add_neg]
  map_mul' x y := by
    show ((x.val * y.val % m : ℕ) : ZMod m) = _
    rw [ZMod.natCast_mod, Nat.cast_mul]
  map_natCast' _ := rfl

end Residue

/-- Inverse constants of a prime field. -/
instance (p : ℕ) [Fact p.Prime] : InverseConstant (ZMod p) := ⟨fun constant => (constant : ZMod p)⁻¹⟩

namespace Residue

/-- Powers to `p - 2` are the inverses of the field. -/
theorem toZMod_keepsInverses (p : ℕ) [Fact p.Prime] (hp : 2 < p) :
    (toZMod p).KeepsInverses := by
  intro constant
  show ((powMod p (p.log2 + 1) (constant % p).toNat (p - 2) : ℕ) : ZMod p) = (constant : ZMod p)⁻¹
  have hbits : p - 2 < 2 ^ (p.log2 + 1) := lt_of_le_of_lt (Nat.sub_le _ _) Nat.lt_log2_self
  have hcast : (((constant % p).toNat : ℕ) : ZMod p) = (constant : ZMod p) := by
    have hnonneg : 0 ≤ constant % (p : ℤ) := Int.emod_nonneg _ (by omega)
    rw [← Int.cast_natCast, Int.toNat_of_nonneg hnonneg, ZMod.intCast_mod]
  rw [powMod_eq p _ _ _ hbits, ZMod.natCast_mod, Nat.cast_pow, hcast]
  by_cases hzero : (constant : ZMod p) = 0
  · rw [hzero, zero_pow (by omega), inv_zero]
  · have hfermat := ZMod.pow_card_sub_one_eq_one hzero
    rw [show p - 1 = p - 2 + 1 by omega, pow_succ] at hfermat
    exact eq_inv_of_mul_eq_one_left hfermat

/-- A constraint list that vanishes over residues vanishes over `ZMod m`. -/
theorem holds_of_allZero {m : ℕ} [NeZero m] {residues : List (Residue m)}
    (hzero : allZero residues = true) : Holds (residues.map (toZMod m)) := by
  rw [holds_map]
  intro residue hresidue
  have hmod := List.all_eq_true.mp hzero residue hresidue
  exact (ZMod.natCast_eq_zero_iff _ _).mpr (Nat.dvd_of_mod_eq_zero (by simpa using hmod))

end Residue

/-- A row written down as start columns with the values of the columns from there on. -/
abbrev Assignment := List (ℕ × List ℕ)

namespace Assignment

/-- All columns of an assignment in one number, `width` bits to a column. -/
def packed (width : ℕ) (assignment : Assignment) : ℕ :=
  (assignment.map (fun entry =>
    entry.2.foldr (fun value rest => value + rest <<< width) 0 <<< (width * entry.1))).sum

/-- The row of a packed assignment; columns it does not name are zero. -/
def residueRow (m width number : ℕ) : Row (Residue m) :=
  fun column => ⟨(number >>> (width * column)) % 2 ^ width⟩

end Assignment

end Constraint
