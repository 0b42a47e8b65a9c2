import Zksm83.Library.Residue

/-!
# Changing columns without breaking constraints

A satisfied row often stays satisfied when some of its columns are changed. `Knowledge` says what
is known about a value in an original row and in two changed rows: that it is a given integer in
all three, that it is given integers in the changed rows, or that it is the same in all three. The
four operations act on this knowledge, so a constraint list can be evaluated over it, and that
evaluation is a closed computation. `Tracked.holds_changed` then carries the constraints of the
original row over to the changed rows. `Cases` runs four such evaluations at once.
-/

namespace Constraint

/-- What is known about a value in an original and in two changed rows. -/
inductive Knowledge where
  /-- The value is this integer in all rows. -/
  | fixed (value : ℤ)
  /-- The value is `first` in the first and `second` in the second changed row. -/
  | moved (first second : ℤ)
  /-- The value is the same in all rows. -/
  | same
  | unknown
  deriving DecidableEq, Repr

namespace Knowledge

/-- A sum or a difference; `op` is the operation on integers. -/
def linear (op : ℤ → ℤ → ℤ) : Knowledge → Knowledge → Knowledge
  | fixed a, fixed b => fixed (op a b)
  | fixed a, moved b b' => moved (op a b) (op a b')
  | moved a a', fixed b => moved (op a b) (op a' b)
  | moved a a', moved b b' => moved (op a b) (op a' b')
  | same, same | same, fixed _ | fixed _, same => same
  | _, _ => unknown

/-- A product; a factor that is known to vanish decides it. -/
def product : Knowledge → Knowledge → Knowledge
  | fixed 0, _ | _, fixed 0 => fixed 0
  | moved 0 0, _ | _, moved 0 0 => moved 0 0
  | fixed a, fixed b => fixed (a * b)
  | fixed a, moved b b' => moved (a * b) (a * b')
  | moved a a', fixed b => moved (a * b) (a' * b)
  | moved a a', moved b b' => moved (a * b) (a' * b')
  | same, same | same, fixed _ | fixed _, same => same
  | _, _ => unknown

instance : Add Knowledge := ⟨linear Int.add⟩

instance : Sub Knowledge := ⟨linear Int.sub⟩

instance : Mul Knowledge := ⟨product⟩

instance : NatCast Knowledge := ⟨fun n => fixed n⟩

instance : InverseConstant Knowledge := ⟨fun _ => same⟩

/-- What the knowledge says about the value in the three rows. -/
def Describes {F : Type*} [IntCast F] (original first second : F) : Knowledge → Prop
  | fixed value => original = value ∧ first = value ∧ second = value
  | moved value value' => first = value ∧ second = value'
  | same => first = original ∧ second = original
  | unknown => True

/-- A constraint of the changed rows vanishes with that of the original row. -/
def accepted : Knowledge → Bool
  | fixed _ | moved 0 0 | same => true
  | _ => false

section Ring

variable {F : Type*} [CommRing F] {x x₁ x₂ y y₁ y₂ : F} {j k : Knowledge}

theorem describes_add (hj : Describes x x₁ x₂ j) (hk : Describes y y₁ y₂ k) :
    Describes (x + y) (x₁ + y₁) (x₂ + y₂) (j + k) := by
  show Describes _ _ _ (linear Int.add j k)
  have hcast (a b : ℤ) : ((Int.add a b : ℤ) : F) = a + b := Int.cast_add a b
  cases j <;> cases k <;> simp_all [Describes, linear]

theorem describes_sub (hj : Describes x x₁ x₂ j) (hk : Describes y y₁ y₂ k) :
    Describes (x - y) (x₁ - y₁) (x₂ - y₂) (j - k) := by
  show Describes _ _ _ (linear Int.sub j k)
  have hcast (a b : ℤ) : ((Int.sub a b : ℤ) : F) = a - b := Int.cast_sub a b
  cases j <;> cases k <;> simp_all [Describes, linear]

theorem describes_mul (hj : Describes x x₁ x₂ j) (hk : Describes y y₁ y₂ k) :
    Describes (x * y) (x₁ * y₁) (x₂ * y₂) (j * k) := by
  show Describes _ _ _ (product j k)
  unfold product
  split <;> simp_all [Describes]

/-- An accepted constraint that vanishes in the original row vanishes in the changed rows. -/
theorem eq_zero_of_accepted (hk : Describes x x₁ x₂ k) (haccepted : k.accepted = true)
    (hzero : x = 0) : x₁ = 0 ∧ x₂ = 0 := by
  unfold accepted at haccepted
  split at haccepted
  · obtain ⟨horiginal, hfirst, hsecond⟩ := hk
    rw [hfirst, hsecond, ← horiginal]
    exact ⟨hzero, hzero⟩
  · simpa [Describes] using hk
  · obtain ⟨hfirst, hsecond⟩ := hk
    rw [hfirst, hsecond]
    exact ⟨hzero, hzero⟩
  · cases haccepted

end Ring

end Knowledge

/-- A value in an original row and in two changed rows, and what is known about it. -/
structure Tracked (F : Type*) [IntCast F] where
  original : F
  first : F
  second : F
  knowledge : Knowledge
  sound : knowledge.Describes original first second

namespace Tracked

variable {F : Type*} [CommRing F]

instance : Add (Tracked F) :=
  ⟨fun x y => ⟨x.original + y.original, x.first + y.first, x.second + y.second,
    x.knowledge + y.knowledge, Knowledge.describes_add x.sound y.sound⟩⟩

instance : Sub (Tracked F) :=
  ⟨fun x y => ⟨x.original - y.original, x.first - y.first, x.second - y.second,
    x.knowledge - y.knowledge, Knowledge.describes_sub x.sound y.sound⟩⟩

instance : Mul (Tracked F) :=
  ⟨fun x y => ⟨x.original * y.original, x.first * y.first, x.second * y.second,
    x.knowledge * y.knowledge, Knowledge.describes_mul x.sound y.sound⟩⟩

instance : NatCast (Tracked F) :=
  ⟨fun n => ⟨n, n, n, .fixed n, by simp [Knowledge.Describes]⟩⟩

instance [InverseConstant F] : InverseConstant (Tracked F) :=
  ⟨fun constant => ⟨inverseConstant constant, inverseConstant constant, inverseConstant constant,
    .same, rfl, rfl⟩⟩

/-- The value in the original row. -/
def originalHom : ArithHom (Tracked F) F :=
  ⟨original, fun _ _ => rfl, fun _ _ => rfl, fun _ _ => rfl, fun _ => rfl⟩

/-- The value in the first changed row. -/
def firstHom : ArithHom (Tracked F) F :=
  ⟨first, fun _ _ => rfl, fun _ _ => rfl, fun _ _ => rfl, fun _ => rfl⟩

/-- The value in the second changed row. -/
def secondHom : ArithHom (Tracked F) F :=
  ⟨second, fun _ _ => rfl, fun _ _ => rfl, fun _ _ => rfl, fun _ => rfl⟩

/-- What is known about the value. -/
def knowledgeHom : ArithHom (Tracked F) Knowledge :=
  ⟨knowledge, fun _ _ => rfl, fun _ _ => rfl, fun _ _ => rfl, fun _ => rfl⟩

/-- Three rows with what is known about each column. -/
def row (original first second : Row F) (known : Row Knowledge)
    (hknown : ∀ column, (known column).Describes (original column) (first column)
      (second column)) : Row (Tracked F) :=
  fun column => ⟨original column, first column, second column, known column, hknown column⟩

/-- Constraints that vanish in the original row and are accepted vanish in the changed rows. -/
theorem holds_changed (constraints : List (Tracked F))
    (haccepted : (constraints.map knowledgeHom).all Knowledge.accepted = true)
    (hholds : Holds (constraints.map originalHom)) :
    Holds (constraints.map firstHom) ∧ Holds (constraints.map secondHom) := by
  rw [List.all_map, List.all_eq_true] at haccepted
  rw [holds_map] at hholds
  have hzero := fun constraint hconstraint =>
    Knowledge.eq_zero_of_accepted constraint.sound (haccepted constraint hconstraint)
      (hholds constraint hconstraint)
  exact ⟨(holds_map _ _).mpr fun c hc => (hzero c hc).1,
    (holds_map _ _).mpr fun c hc => (hzero c hc).2⟩

end Tracked

/-- One value for four cases, or a value for each of them. -/
inductive Cases (K : Type*) where
  | uniform (value : K)
  | each (a b c d : K)

namespace Cases

variable {K : Type*}

/-- The value in one of the cases. -/
def case (index : ℕ) : Cases K → K
  | uniform value => value
  | each a b c d => if index = 0 then a else if index = 1 then b else if index = 2 then c else d

/-- An operation in every case. -/
def lift (op : K → K → K) : Cases K → Cases K → Cases K
  | uniform j, uniform k => uniform (op j k)
  | uniform j, each a b c d => each (op j a) (op j b) (op j c) (op j d)
  | each a b c d, uniform k => each (op a k) (op b k) (op c k) (op d k)
  | each a b c d, each a' b' c' d' => each (op a a') (op b b') (op c c') (op d d')

theorem case_lift (op : K → K → K) (index : ℕ) (x y : Cases K) :
    (lift op x y).case index = op (x.case index) (y.case index) := by
  cases x <;> cases y <;> simp only [lift, case] <;> split_ifs <;> rfl

instance [Add K] : Add (Cases K) := ⟨lift (· + ·)⟩

instance [Sub K] : Sub (Cases K) := ⟨lift (· - ·)⟩

instance [Mul K] : Mul (Cases K) := ⟨lift (· * ·)⟩

instance [NatCast K] : NatCast (Cases K) := ⟨fun n => uniform n⟩

instance [InverseConstant K] : InverseConstant (Cases K) :=
  ⟨fun constant => uniform (inverseConstant constant)⟩

/-- The value in one of the cases, as a map that respects the operations. -/
def caseHom [Add K] [Sub K] [Mul K] [NatCast K] (index : ℕ) : ArithHom (Cases K) K :=
  ⟨case index, case_lift _ index, case_lift _ index, case_lift _ index, fun _ => rfl⟩

/-- A test that every case passes. -/
def all (test : K → Bool) : Cases K → Bool
  | uniform value => test value
  | each a b c d => test a && test b && test c && test d

/-- A test that every case passes is passed by each of them. -/
theorem test_case {test : K → Bool} {x : Cases K} (hall : x.all test = true) (index : ℕ) :
    test (x.case index) = true := by
  cases x with
  | uniform value => exact hall
  | each a b c d =>
    simp only [all, Bool.and_eq_true] at hall
    simp only [case]
    split_ifs <;> simp [hall]

end Cases

end Constraint
