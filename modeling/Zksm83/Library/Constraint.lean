import Mathlib

/-!
# Constraint systems over rows

A constraint system reads the columns of one row and lists the expressions that have to vanish.
The code that lists them only adds, subtracts, multiplies, and embeds natural numbers, so it is
written over any type with those four operations. `ArithHom` is a map that respects the four
operations. Such a map sends the expressions of a row to the expressions of the image row. This
is used to move a concrete evaluation over the integers into a field and to read off degrees.

`Holds cs` says that every listed expression is zero. The lemmas about it turn a constraint list
that is built by appending, mapping, and looping into a conjunction.
-/

namespace Constraint

/-- A row: the value of every column, indexed from zero. -/
abbrev Row (R : Type*) := ℕ → R

/-- The columns from `start` on, renumbered from zero. -/
def slice {R : Type*} (row : Row R) (start : ℕ) : Row R :=
  fun column => row (start + column)

@[simp] theorem slice_apply {R : Type*} (row : Row R) (start column : ℕ) :
    slice row start column = row (start + column) := rfl

/-- The value before position `index` of a chain that starts with `initial`. -/
def previous {R : Type*} (initial : R) (values : ℕ → R) : ℕ → R
  | 0 => initial
  | index + 1 => values index

section Operations

variable {R : Type*} [Add R] [Sub R] [Mul R] [NatCast R]

/-- `v * (v - 1)`, which vanishes exactly at the two bits. -/
def boolean (value : R) : R :=
  value * (value - ((1 : ℕ) : R))

/-- One bit constraint for each listed value. -/
def booleans (values : List R) : List R :=
  values.map boolean

/-- The sum of the terms, accumulated from zero in order. -/
def total (terms : List R) : R :=
  terms.foldl (fun sum term => sum + term) ((0 : ℕ) : R)

/-- The accumulated sum `f 0 + f 1 + ... + f (count - 1)`. -/
def totalOver (count : ℕ) (f : ℕ → R) : R :=
  total ((List.range count).map f)

/-- The product of the terms, accumulated from `initial` in order. -/
def productFrom (initial : R) (terms : List R) : R :=
  terms.foldl (fun product term => product * term) initial

/-- Little-endian recomposition with a running power of two. -/
def packed (bits : List R) : R :=
  (bits.foldl (fun (state : R × R) bit => (state.1 + state.2 * bit, state.2 + state.2))
    (((0 : ℕ) : R), ((1 : ℕ) : R))).1

/-- Recomposition of the `width` columns from `start` on. -/
def packedBits (row : Row R) (start width : ℕ) : R :=
  packed ((List.range width).map fun bit => row (start + bit))

/-- The first `count` columns are bits, and each vanishes where its owner does. -/
def ownedBits (count : ℕ) (row : Row R) (owner : ℕ → R) : List R :=
  (List.range count).flatMap (fun column =>
    [row column * (row column - ((1 : ℕ) : R)), (((1 : ℕ) : R) - owner column) * row column])

/-- Each value of a chain is the value before it times its factor. -/
def prefixChain (count : ℕ) (initial : R) (values factors : ℕ → R) : List R :=
  (List.range count).map (fun index =>
    values index - previous initial values index * factors index)

/-- The factor that the lowest bit of a code contributes to its selector. -/
def selectorFactor (code : ℕ) (value : R) : R :=
  if code % 2 = 1 then value else ((1 : ℕ) : R) - value

/-- A selector product continued from `selector` over the remaining bits of a code. -/
def bitSelectorFrom (selector : R) (code : ℕ) : List R → R
  | [] => selector
  | value :: bits => bitSelectorFrom (selector * selectorFactor code value) (code / 2) bits

/-- The product that is one when the bits spell `code` and zero when they spell another code. -/
def bitSelector (bits : List R) (code : ℕ) : R :=
  bitSelectorFrom ((1 : ℕ) : R) code bits

end Operations

/-- Inverses of the integer constants that interpolation divides by. -/
class InverseConstant (R : Type*) where
  inverseConstant : ℤ → R

export InverseConstant (inverseConstant)

/-- Every listed expression vanishes. -/
def Holds {R : Type*} [Zero R] (constraints : List R) : Prop :=
  ∀ constraint ∈ constraints, constraint = 0

section Holds

variable {R : Type*} [Zero R]

instance [DecidableEq R] (constraints : List R) : Decidable (Holds constraints) :=
  inferInstanceAs (Decidable (∀ constraint ∈ constraints, constraint = 0))

@[simp] theorem holds_nil : Holds ([] : List R) := by simp [Holds]

@[simp] theorem holds_cons (c : R) (cs : List R) : Holds (c :: cs) ↔ c = 0 ∧ Holds cs := by
  simp [Holds]

@[simp] theorem holds_append (cs ds : List R) : Holds (cs ++ ds) ↔ Holds cs ∧ Holds ds := by
  simp [Holds, or_imp, forall_and]

@[simp] theorem holds_flatMap {α : Type*} (xs : List α) (f : α → List R) :
    Holds (xs.flatMap f) ↔ ∀ x ∈ xs, Holds (f x) := by
  simp only [Holds, List.mem_flatMap]
  exact ⟨fun h x hx c hc => h c ⟨x, hx, hc⟩, fun h c ⟨x, hx, hc⟩ => h x hx c hc⟩

@[simp] theorem holds_map {α : Type*} (xs : List α) (f : α → R) :
    Holds (xs.map f) ↔ ∀ x ∈ xs, f x = 0 := by
  simp [Holds]

end Holds

/-- A map that respects the four operations of the constraint code. -/
structure ArithHom (R S : Type*) [Add R] [Sub R] [Mul R] [NatCast R]
    [Add S] [Sub S] [Mul S] [NatCast S] where
  toFun : R → S
  map_add' : ∀ x y, toFun (x + y) = toFun x + toFun y
  map_sub' : ∀ x y, toFun (x - y) = toFun x - toFun y
  map_mul' : ∀ x y, toFun (x * y) = toFun x * toFun y
  map_natCast' : ∀ n : ℕ, toFun (n : R) = (n : S)

/-- A map of constraint values that also respects the inverse constants. -/
def ArithHom.KeepsInverses {R S : Type*} [Add R] [Sub R] [Mul R] [NatCast R] [Add S] [Sub S]
    [Mul S] [NatCast S] [InverseConstant R] [InverseConstant S] (φ : ArithHom R S) : Prop :=
  ∀ constant : ℤ, φ.toFun (inverseConstant constant) = inverseConstant constant

namespace ArithHom

variable {R S : Type*} [Add R] [Sub R] [Mul R] [NatCast R]
  [Add S] [Sub S] [Mul S] [NatCast S] (φ : ArithHom R S)

instance : CoeFun (ArithHom R S) (fun _ => R → S) := ⟨ArithHom.toFun⟩

@[simp] theorem map_add (x y : R) : φ (x + y) = φ x + φ y := φ.map_add' x y

@[simp] theorem map_sub (x y : R) : φ (x - y) = φ x - φ y := φ.map_sub' x y

@[simp] theorem map_mul (x y : R) : φ (x * y) = φ x * φ y := φ.map_mul' x y

@[simp] theorem map_natCast (n : ℕ) : φ (n : R) = (n : S) := φ.map_natCast' n

@[simp] theorem map_ofNat (n : ℕ) [n.AtLeastTwo] :
    φ (ofNat(n) : R) = (ofNat(n) : S) :=
  φ.map_natCast n

/-- The image of a row, column by column. -/
def row (source : Row R) : Row S := fun column => φ (source column)

@[simp] theorem row_apply (source : Row R) (column : ℕ) : φ.row source column = φ (source column) :=
  rfl

@[simp] theorem row_slice (source : Row R) (start : ℕ) :
    φ.row (slice source start) = slice (φ.row source) start := rfl

@[simp] theorem map_boolean (value : R) : φ (boolean value) = boolean (φ value) := by
  simp [boolean]

@[simp] theorem map_booleans (values : List R) :
    (booleans values).map φ = booleans (values.map φ) := by
  simp [booleans, Function.comp_def]

/-- A left fold commutes with a map that commutes with its step. -/
theorem map_foldl {α β γ δ : Type*} (f : β → α → β) (g : δ → γ → δ) (s : β → δ) (t : α → γ)
    (hstep : ∀ b a, s (f b a) = g (s b) (t a)) (xs : List α) (initial : β) :
    s (xs.foldl f initial) = (xs.map t).foldl g (s initial) := by
  induction xs generalizing initial with
  | nil => rfl
  | cons x xs ih => simp [ih, hstep]

@[simp] theorem map_total (terms : List R) : φ (total terms) = total (terms.map φ) := by
  unfold total
  rw [map_foldl _ (fun sum term => sum + term) φ φ (fun _ _ => φ.map_add _ _), map_natCast]

@[simp] theorem map_totalOver (count : ℕ) (f : ℕ → R) :
    φ (totalOver count f) = totalOver count (fun i => φ (f i)) := by
  simp [totalOver, Function.comp_def]

@[simp] theorem map_productFrom (initial : R) (terms : List R) :
    φ (productFrom initial terms) = productFrom (φ initial) (terms.map φ) :=
  map_foldl _ (fun product term => product * term) φ φ (fun _ _ => φ.map_mul _ _) _ _

@[simp] theorem map_packed (bits : List R) : φ (packed bits) = packed (bits.map φ) := by
  unfold packed
  have h := map_foldl
    (fun (state : R × R) bit => (state.1 + state.2 * bit, state.2 + state.2))
    (fun (state : S × S) bit => (state.1 + state.2 * bit, state.2 + state.2))
    (fun state => (φ state.1, φ state.2)) φ (fun _ _ => by simp) bits
    (((0 : ℕ) : R), ((1 : ℕ) : R))
  simpa using congrArg Prod.fst h

@[simp] theorem map_packedBits (source : Row R) (start width : ℕ) :
    φ (packedBits source start width) = packedBits (φ.row source) start width := by
  simp [packedBits, Function.comp_def]

@[simp] theorem map_selectorFactor (code : ℕ) (value : R) :
    φ (selectorFactor code value) = selectorFactor code (φ value) := by
  unfold selectorFactor
  split <;> simp

theorem map_bitSelectorFrom (selector : R) (code : ℕ) (bits : List R) :
    φ (bitSelectorFrom selector code bits) = bitSelectorFrom (φ selector) code (bits.map φ) := by
  induction bits generalizing selector code with
  | nil => rfl
  | cons value bits ih => simp [bitSelectorFrom, ih]

@[simp] theorem map_bitSelector (bits : List R) (code : ℕ) :
    φ (bitSelector bits code) = bitSelector (bits.map φ) code := by
  simp [bitSelector, map_bitSelectorFrom]

@[simp] theorem map_previous (initial : R) (values : ℕ → R) (index : ℕ) :
    φ (previous initial values index) = previous (φ initial) (fun i => φ (values i)) index := by
  cases index <;> rfl

@[simp] theorem map_prefixChain (count : ℕ) (initial : R) (values factors : ℕ → R) :
    (prefixChain count initial values factors).map φ =
      prefixChain count (φ initial) (fun i => φ (values i)) (fun i => φ (factors i)) := by
  simp [prefixChain, Function.comp_def]

@[simp] theorem map_ownedBits (count : ℕ) (source : Row R) (owner : ℕ → R) :
    (ownedBits count source owner).map φ =
      ownedBits count (φ.row source) (fun column => φ (owner column)) := by
  simp [ownedBits, List.map_flatMap]

end ArithHom

end Constraint
