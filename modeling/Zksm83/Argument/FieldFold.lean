import Mathlib.Algebra.BigOperators.Group.List.Basic
import Mathlib.Algebra.Field.Basic
import Mathlib.Tactic.FieldSimp
import Mathlib.Tactic.LinearCombination
import Mathlib.Tactic.Ring

/-!
# Folding tables of evaluations

A multilinear polynomial is given by its values on the hypercube, and one challenge folds
neighbouring values into one. `evaluateMle` folds a table to its value at a point; at the point
whose coordinates are all one half that value is the mean of the table. After `field_fold.rs`.
-/

namespace Zksm83

inductive FieldFoldError where
  | invalidLength
  | indexOverflow
  deriving DecidableEq, Repr

namespace FieldFold

variable {F : Type*} [Field F]

/-- Neighbouring values folded at a challenge; a trailing value is dropped. -/
def foldPairs (challenge : F) : List F → List F
  | low :: high :: rest => (low + challenge * (high - low)) :: foldPairs challenge rest
  | _ => []

/-- One fold of a table of even length. -/
def foldBinaryLayer (values : List F) (challenge : F) : Except FieldFoldError (List F) :=
  if values.length < 2 ∨ values.length % 2 ≠ 0 then .error .invalidLength
  else .ok (foldPairs challenge values)

/-- The value of a folded table. -/
def firstValue (values : List F) : Except FieldFoldError F :=
  match values with
  | value :: _ => .ok value
  | [] => .error .invalidLength

/-- The value at a point of the multilinear polynomial with the given values on the hypercube. -/
def evaluateMle (values point : List F) : Except FieldFoldError F :=
  if 64 ≤ point.length then .error .indexOverflow
  else if values.length ≠ 2 ^ point.length then .error .invalidLength
  else match point with
    | [] => firstValue values
    | first :: remaining => do
      let folded ← foldBinaryLayer values first
      let folded ← remaining.foldlM foldBinaryLayer folded
      firstValue folded

theorem length_foldPairs (challenge : F) (values : List F) :
    (foldPairs challenge values).length = values.length / 2 := by
  fun_induction foldPairs challenge values with
  | case1 low high rest ih =>
    rw [List.length_cons, ih, List.length_cons, List.length_cons]
    omega
  | case2 values hshort =>
    match values, hshort with
    | [], _ => simp
    | [_], _ => simp
    | low :: high :: rest, hshort => exact absurd rfl (hshort low high rest)

theorem foldBinaryLayer_eq {values : List F} {count : ℕ} (hlength : values.length = 2 ^ (count + 1))
    (challenge : F) : foldBinaryLayer values challenge = .ok (foldPairs challenge values) := by
  have hpos := Nat.one_le_two_pow (n := count)
  rw [foldBinaryLayer, if_neg]
  rw [hlength, Nat.pow_succ]
  omega

/-- The folds of a table at the coordinates of a point, one after the other. -/
def foldAll (values point : List F) : List F :=
  point.foldl (fun folded challenge => foldPairs challenge folded) values

theorem foldlM_foldBinaryLayer (point : List F) {values : List F}
    (hlength : values.length = 2 ^ point.length) :
    point.foldlM foldBinaryLayer values = .ok (foldAll values point) ∧
      (foldAll values point).length = 1 := by
  induction point generalizing values with
  | nil => exact ⟨rfl, by simpa [foldAll] using hlength⟩
  | cons first remaining ih =>
    rw [List.length_cons] at hlength
    have hfolded : (foldPairs first values).length = 2 ^ remaining.length := by
      rw [length_foldPairs, hlength, Nat.pow_succ, Nat.mul_div_cancel _ (by norm_num)]
    rw [List.foldlM_cons, foldBinaryLayer_eq hlength]
    exact ih hfolded

/-- A table of the right length evaluates to its complete fold. -/
theorem evaluateMle_eq {values point : List F} (hshort : point.length < 64)
    (hlength : values.length = 2 ^ point.length) :
    evaluateMle values point = firstValue (foldAll values point) := by
  rw [evaluateMle.eq_def, if_neg (by omega), if_neg (by simpa using hlength)]
  cases point with
  | nil => rfl
  | cons first remaining =>
    have hfold := (foldlM_foldBinaryLayer (first :: remaining) hlength).1
    rw [List.foldlM_cons] at hfold
    show (do
      let folded ← foldBinaryLayer values first
      let folded ← remaining.foldlM foldBinaryLayer folded
      firstValue folded) = _
    rw [← bind_assoc, hfold]
    rfl

/-- Folding at one half halves the sum of the table. -/
theorem sum_foldPairs_half (h2 : (2 : F) ≠ 0) (values : List F) (heven : values.length % 2 = 0) :
    2 * (foldPairs 2⁻¹ values).sum = values.sum := by
  fun_induction foldPairs (2⁻¹ : F) values with
  | case1 low high rest ih =>
    have hrest := ih (by rw [List.length_cons, List.length_cons] at heven; omega)
    simp only [List.sum_cons]
    rw [← hrest]
    field_simp
    ring
  | case2 values hshort =>
    match values, hshort with
    | [], _ => simp
    | [_], _ => simp at heven
    | low :: high :: rest, hshort => exact absurd rfl (hshort low high rest)

theorem sum_foldAll_half (h2 : (2 : F) ≠ 0) (count : ℕ) {values : List F}
    (hlength : values.length = 2 ^ count) :
    2 ^ count * (foldAll values (List.replicate count 2⁻¹)).sum = values.sum := by
  induction count generalizing values with
  | zero => simp [foldAll]
  | succ count ih =>
    have hfolded : (foldPairs (2⁻¹ : F) values).length = 2 ^ count := by
      rw [length_foldPairs, hlength, Nat.pow_succ, Nat.mul_div_cancel _ (by norm_num)]
    have hhalf := sum_foldPairs_half h2 values (by rw [hlength, Nat.pow_succ]; omega)
    have hrest := ih hfolded
    rw [← hhalf, ← hrest, List.replicate_succ, foldAll, List.foldl_cons, pow_succ, foldAll]
    ring

/-- At the point with all coordinates one half, a table of `2 ^ count` values evaluates to its
mean. -/
theorem evaluateMle_half (h2 : (2 : F) ≠ 0) {count : ℕ} (hcount : count < 64) (values : List F)
    (hlength : values.length = 2 ^ count) :
    ∃ value, evaluateMle values (List.replicate count 2⁻¹) = .ok value ∧
      2 ^ count * value = values.sum := by
  have hpoint : values.length = 2 ^ (List.replicate count (2⁻¹ : F)).length := by
    rwa [List.length_replicate]
  obtain ⟨value, hsingle⟩ := List.length_eq_one_iff.mp (foldlM_foldBinaryLayer _ hpoint).2
  refine ⟨value, ?_, ?_⟩
  · rw [evaluateMle_eq (by rwa [List.length_replicate]) hpoint, hsingle]
    rfl
  · have hsum := sum_foldAll_half h2 count hlength
    rwa [hsingle, List.sum_singleton] at hsum

end FieldFold

end Zksm83
