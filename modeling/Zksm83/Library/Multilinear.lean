import Mathlib.Algebra.BigOperators.Fin
import Mathlib.Algebra.BigOperators.Intervals
import Mathlib.Algebra.BigOperators.Ring.Finset
import Mathlib.Algebra.Module.BigOperators
import Mathlib.Algebra.Module.LinearMap.Defs
import Mathlib.Data.Nat.Digits.Defs
import Mathlib.Tactic.Abel
import Mathlib.Tactic.LinearCombination
import Mathlib.Tactic.Module
import Mathlib.Tactic.Ring

/-!
# Multilinear extensions

A table assigns a value to every point of the hypercube, written as a number whose lowest bit is
the first coordinate. The multilinear extension of a table is its average at a point, weighted by
the equality polynomial of that point and each point of the hypercube. Fixing the first coordinate
folds neighbouring values of the table, so folding at all coordinates evaluates the extension.
Tables take values in any module.
-/

open Finset

namespace Multilinear

variable {F V W : Type*} [CommRing F] [AddCommGroup V] [Module F V] [AddCommGroup W] [Module F W]

/-- The value at `x` of the affine line through a value at zero and a value at one. -/
def line (low high : V) (x : F) : V := low + x • (high - low)

@[simp] theorem line_zero (low high : V) : line low high (0 : F) = low := by
  simp [line]

@[simp] theorem line_one (low high : V) : line low high (1 : F) = high := by
  simp [line]

theorem map_line (f : V →ₗ[F] W) (low high : V) (x : F) :
    f (line low high x) = line (f low) (f high) x := by
  simp [line]

/-- A table with its first coordinate fixed. -/
def fold (x : F) (table : ℕ → V) (index : ℕ) : V :=
  line (table (2 * index)) (table (2 * index + 1)) x

/-- A table with its first coordinates fixed to those of a point. -/
def foldAll (point : List F) (table : ℕ → V) : ℕ → V :=
  point.foldl (fun folded x => fold x folded) table

@[simp] theorem foldAll_nil (table : ℕ → V) : foldAll ([] : List F) table = table := rfl

@[simp] theorem foldAll_cons (x : F) (point : List F) (table : ℕ → V) :
    foldAll (x :: point) table = foldAll point (fold x table) := rfl

theorem foldAll_append (front back : List F) (table : ℕ → V) :
    foldAll (front ++ back) table = foldAll back (foldAll front table) :=
  List.foldl_append

/-- The equality polynomial of a point and a point of the hypercube. -/
def weight : List F → ℕ → F
  | [], _ => 1
  | x :: point, index => (if index % 2 = 1 then x else 1 - x) * weight point (index / 2)

/-- The equality polynomial reads one bit of the number for each coordinate. -/
theorem weight_add_pow (point : List F) (index : ℕ) :
    weight point (index + 2 ^ point.length) = weight point index := by
  induction point generalizing index with
  | nil => rfl
  | cons x point ih =>
    have hparity : (index + 2 ^ (point.length + 1)) % 2 = index % 2 := by
      rw [pow_succ, Nat.add_mul_mod_self_right]
    have hhalf : (index + 2 ^ (point.length + 1)) / 2 = index / 2 + 2 ^ point.length := by
      rw [pow_succ, Nat.add_mul_div_right _ _ Nat.two_pos]
    rw [List.length_cons, weight, weight, hparity, hhalf, ih]

/-- The last coordinate of a point stands for the highest bit. -/
theorem weight_concat (point : List F) (x : F) (index : ℕ) :
    weight (point ++ [x]) index =
      weight point index * (if index / 2 ^ point.length % 2 = 1 then x else 1 - x) := by
  induction point generalizing index with
  | nil => simp [weight]
  | cons y point ih =>
    rw [List.cons_append, weight, weight, ih, List.length_cons, pow_succ',
      Nat.div_div_eq_div_mul, mul_assoc]

/-- The equality polynomial at a number with given bits, the lowest first. -/
theorem weight_ofDigits {point : List F} {digits : List ℕ} (hlength : point.length = digits.length)
    (hdigits : ∀ digit ∈ digits, digit < 2) :
    weight point (Nat.ofDigits 2 digits) =
      ((point.zip digits).map (fun entry => if entry.2 = 1 then entry.1 else 1 - entry.1)).prod := by
  induction point generalizing digits with
  | nil => rw [weight, List.zip_nil_left, List.map_nil, List.prod_nil]
  | cons x point ih =>
    match digits, hlength with
    | digit :: digits, hlength =>
      have hdigit := hdigits digit List.mem_cons_self
      have hcons : Nat.ofDigits 2 (digit :: digits) = digit + 2 * Nat.ofDigits 2 digits := rfl
      have hparity : (digit + 2 * Nat.ofDigits 2 digits) % 2 = digit := by omega
      have hhalf : (digit + 2 * Nat.ofDigits 2 digits) / 2 = Nat.ofDigits 2 digits := by omega
      rw [hcons, weight, hparity, hhalf, List.zip_cons_cons,
        List.map_cons, List.prod_cons, ih (Nat.succ.inj hlength)
          (fun digit hmem => hdigits digit (List.mem_cons_of_mem _ hmem))]

/-- The equality polynomial as a product over the bits of the number. -/
theorem weight_eq_prod (point : List F) (index : ℕ) :
    weight point index =
      ∏ bit : Fin point.length, if index.testBit bit then point[bit] else 1 - point[bit] := by
  induction point generalizing index with
  | nil => simp [weight]
  | cons x point ih =>
    have hprod := Fin.prod_univ_succ (n := point.length) (fun bit : Fin (x :: point).length =>
      if index.testBit bit then (x :: point)[bit] else 1 - (x :: point)[bit])
    rw [weight, ih]
    refine (hprod.trans ?_).symm
    congr 1
    · simp [Nat.testBit_zero]
    · refine prod_congr rfl fun bit _ => ?_
      simp [Nat.testBit_succ]

/-- The multilinear extension of a table, at a point. -/
def extension (point : List F) (table : ℕ → V) : V :=
  ∑ index ∈ range (2 ^ point.length), weight point index • table index

/-- A sum over the hypercube, by the pairs of neighbours. -/
theorem sum_range_pairs (count : ℕ) (f : ℕ → V) :
    ∑ index ∈ range (2 * count), f index =
      ∑ index ∈ range count, (f (2 * index) + f (2 * index + 1)) := by
  induction count with
  | zero => rfl
  | succ count ih =>
    rw [Nat.mul_succ, sum_range_succ, sum_range_succ, sum_range_succ _ count, ih, add_assoc]

@[simp] theorem extension_nil (table : ℕ → V) : extension ([] : List F) table = table 0 := by
  simp [extension, weight]

theorem extension_cons (x : F) (point : List F) (table : ℕ → V) :
    extension (x :: point) table = extension point (fold x table) := by
  have heven (index : ℕ) : 2 * index / 2 = index := by omega
  have hodd (index : ℕ) : (2 * index + 1) / 2 = index := by omega
  unfold extension
  rw [List.length_cons, pow_succ, mul_comm, sum_range_pairs]
  refine sum_congr rfl fun index _ => ?_
  simp only [weight, heven, hodd, Nat.mul_mod_right, Nat.mul_add_mod, fold, line]
  norm_num
  module

/-- Folding at all coordinates evaluates the extension. -/
theorem foldAll_zero (point : List F) (table : ℕ → V) :
    foldAll point table 0 = extension point table := by
  induction point generalizing table with
  | nil => simp
  | cons x point ih => rw [foldAll_cons, ih, extension_cons]

/-- The extension depends on the values on the hypercube only. -/
theorem extension_congr {point : List F} {table table' : ℕ → V}
    (hagree : ∀ index < 2 ^ point.length, table index = table' index) :
    extension point table = extension point table' :=
  sum_congr rfl fun index hindex => by rw [hagree index (mem_range.mp hindex)]

theorem fold_congr {x : F} {table table' : ℕ → V} {count : ℕ}
    (hagree : ∀ index < 2 * count, table index = table' index) :
    ∀ index < count, fold x table index = fold x table' index := by
  intro index hindex
  rw [fold, fold, hagree _ (by omega), hagree _ (by omega)]

theorem map_extension (f : V →ₗ[F] W) (point : List F) (table : ℕ → V) :
    f (extension point table) = extension point (fun index => f (table index)) := by
  simp [extension, map_sum]

theorem map_fold (f : V →ₗ[F] W) (x : F) (table : ℕ → V) :
    (fun index => f (fold x table index)) = fold x (fun index => f (table index)) := by
  funext index
  exact map_line f _ _ x

/-- The sum of a table over the hypercube of a dimension. -/
def cubeSum (count : ℕ) (table : ℕ → V) : V := ∑ index ∈ range (2 ^ count), table index

@[simp] theorem cubeSum_zero (table : ℕ → V) : cubeSum 0 table = table 0 := by
  simp [cubeSum]

/-- The equality polynomial of two points. -/
def equality : List F → List F → F
  | x :: point, y :: point' => (x * y + (1 - x) * (1 - y)) * equality point point'
  | _, _ => 1

theorem fold_weight (x y : F) (point : List F) :
    fold y (weight (x :: point)) =
      fun index => (x * y + (1 - x) * (1 - y)) * weight point index := by
  have heven (index : ℕ) : 2 * index / 2 = index := by omega
  have hodd (index : ℕ) : (2 * index + 1) / 2 = index := by omega
  funext index
  simp only [fold, line, weight, heven, hodd, Nat.mul_mod_right, Nat.mul_add_mod, smul_eq_mul]
  norm_num
  ring

theorem extension_smul (c : F) (point : List F) (table : ℕ → V) :
    extension point (fun index => c • table index) = c • extension point table := by
  unfold extension
  rw [smul_sum]
  exact sum_congr rfl fun index _ => smul_comm _ _ _

theorem extension_const (point : List F) (value : V) : extension point (fun _ => value) = value := by
  induction point with
  | nil => simp
  | cons x point ih =>
    have hfold : fold x (fun _ => value) = fun _ => value := by
      funext index
      simp [fold, line]
    rw [extension_cons, hfold, ih]

theorem extension_add (point : List F) (table table' : ℕ → V) :
    extension point (fun index => table index + table' index) =
      extension point table + extension point table' := by
  unfold extension
  rw [← sum_add_distrib]
  exact sum_congr rfl fun index _ => smul_add _ _ _

theorem extension_sum {ι : Type*} (terms : Finset ι) (point : List F) (table : ι → ℕ → V) :
    extension point (fun index => ∑ term ∈ terms, table term index) =
      ∑ term ∈ terms, extension point (table term) := by
  unfold extension
  rw [sum_comm]
  exact sum_congr rfl fun index _ => smul_sum

/-- The extension of the equality polynomial. -/
theorem extension_weight {point point' : List F} (hlength : point.length = point'.length) :
    extension point' (weight point) = equality point point' := by
  induction point generalizing point' with
  | nil =>
    obtain rfl := List.length_eq_zero_iff.mp hlength.symm
    simp [weight, equality]
  | cons x point ih =>
    match point', hlength with
    | y :: point', hlength =>
      rw [extension_cons, fold_weight]
      have hrest := ih (Nat.succ.inj hlength)
      rw [equality, ← hrest]
      exact extension_smul (V := F) _ _ _

end Multilinear
