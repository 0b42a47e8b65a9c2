import Zksm83.Argument.MemoryEvents
import Zksm83.Sumcheck.Zerocheck

/-!
# The paths of a multilinear evaluation

The prover folds a table variable by variable; the verifier weighs rows by the equality polynomial,
or evaluates it in closed form. Both read the coordinates of a point as the bits of a row, the
lowest first. Read `evaluation_paths` first. After `field_fold.rs`, `uniform.rs` and `memory.rs`.
-/

namespace Zksm83

open Finset Sumcheck
open Multilinear (extension weight)

namespace Uniform

variable {F : Type} [Field F]

/-- The inner product of a table with the weights of its rows. -/
theorem sum_zip_equalityEvaluations {values point : List F}
    (hlength : values.length = 2 ^ point.length) :
    ((values.zip (equalityEvaluations point)).map (fun entry => entry.1 * entry.2)).sum =
      extension point (tableOf values) := by
  have hweights := length_equalityEvaluations point
  have hlist : (values.zip (equalityEvaluations point)).map (fun entry => entry.1 * entry.2) =
      (List.range (2 ^ point.length)).map
        (fun index => weight point index • tableOf values index) := by
    refine List.ext_getElem (by simp [hlength, hweights]) fun index hleft hright => ?_
    have hindex : index < 2 ^ point.length := by simpa using hright
    rw [List.getElem_map, List.getElem_zip, List.getElem_map, List.getElem_range,
      ← tableOf_eq (hindex.trans_eq hlength.symm), ← tableOf_eq (hindex.trans_eq hweights.symm),
      tableOf_equalityEvaluations point index hindex, smul_eq_mul, mul_comm]
  rw [hlist, sum_map_range, extension]

/-- Prover and verifier agree on every table and point: folding is the inner product with the
weights, a weight is the product over the bits of its row, and the equality polynomial of two points
is the fold of the weights of one at the other. The table fits in memory. -/
theorem evaluation_paths {values point : List F} (hlength : values.length = 2 ^ point.length)
    (hsize : values.length < 2 ^ 64) :
    FieldFold.evaluateMle values point =
        .ok ((values.zip (equalityEvaluations point)).map (fun entry => entry.1 * entry.2)).sum ∧
      (equalityEvaluations point).length = 2 ^ point.length ∧
      (∀ index < 2 ^ point.length, (equalityEvaluations point)[index]? =
        some (∏ bit : Fin point.length,
          if index.testBit bit then point[bit] else 1 - point[bit])) ∧
      ∀ other : List F, other.length = point.length →
        equalityEvaluation point other =
          (FieldFold.evaluateMle (equalityEvaluations point) other).mapError .fieldFold := by
  have hshort : point.length < 64 := (Nat.pow_lt_pow_iff_right Nat.one_lt_two).mp (hlength ▸ hsize)
  have hweights := length_equalityEvaluations point
  refine ⟨?_, hweights, fun index hindex => ?_, fun other hother => ?_⟩
  · rw [evaluateMle_extension hshort hlength, sum_zip_equalityEvaluations hlength]
  · rw [List.getElem?_eq_getElem (hindex.trans_eq hweights.symm),
      ← tableOf_eq (hindex.trans_eq hweights.symm), tableOf_equalityEvaluations point index hindex,
      Multilinear.weight_eq_prod]
  · rw [equalityEvaluation_eq hother.symm,
      evaluateMle_extension (hother ▸ hshort) (hother ▸ hweights)]
    refine congrArg Except.ok (Multilinear.extension_congr fun index hindex => ?_)
    exact (tableOf_equalityEvaluations point index (hother ▸ hindex)).symm

/-- A table of two rows at the coordinate 3. -/
theorem evaluation_paths_line :
    FieldFold.evaluateMle [(1 : ℚ), 5] [3] =
      .ok (([(1 : ℚ), 5].zip (equalityEvaluations [3])).map (fun entry => entry.1 * entry.2)).sum :=
  (evaluation_paths rfl (by decide)).1

end Uniform

namespace MemoryArgument

variable {F : Type} [Field F]

/-- The number of a row, extended to all points. -/
def addressEvaluation (point : List F) : Except MutableMemoryError F := do
  rejectIf (point.length ≠ memoryTableNumVariables) .shape
  return (point.foldl (fun (state : F × F) coordinate =>
    (state.1 + state.1, state.2 + state.1 * coordinate)) (1, 0)).2

theorem foldl_address (point : List F) (power value : F) :
    (point.foldl (fun (state : F × F) coordinate =>
      (state.1 + state.1, state.2 + state.1 * coordinate)) (power, value)).2 =
      value + power * extension point (fun index : ℕ => (index : F)) := by
  induction point generalizing power value with
  | nil => simp
  | cons x point ih =>
    -- the first coordinate is the lowest bit of the number
    have hfold : Multilinear.fold x (fun index : ℕ => (index : F)) =
        fun index : ℕ => x + (2 : F) • (index : F) := by
      funext index
      simp only [Multilinear.fold, Multilinear.line, Nat.cast_mul, Nat.cast_add, Nat.cast_ofNat,
        Nat.cast_one, smul_eq_mul]
      ring
    rw [List.foldl_cons, ih, Multilinear.extension_cons, hfold, Multilinear.extension_add,
      Multilinear.extension_const, Multilinear.extension_smul, smul_eq_mul]
    ring

/-- The closed form of the address column is the fold of the column of all addresses. -/
theorem addressEvaluation_eq {point : List F} (hlength : point.length = memoryTableNumVariables) :
    addressEvaluation point = (FieldFold.evaluateMle
      ((List.range memoryImageBytes).map (fun index : ℕ => (index : F))) point).mapError
        (fun _ => .shape) := by
  have htable : ((List.range memoryImageBytes).map (fun index : ℕ => (index : F))).length =
      2 ^ point.length := by
    rw [List.length_map, List.length_range, hlength]
  rw [evaluateMle_extension (hlength.trans_lt (by decide)) htable]
  refine Except.check_eq_ok.mpr ⟨rejectIf_eq_ok.mpr (not_not_intro hlength), ?_⟩
  rw [foldl_address, zero_add, one_mul]
  refine congrArg Except.ok (Multilinear.extension_congr fun index hindex => ?_)
  rw [tableOf, List.getD_eq_getElem?_getD, List.getElem?_map,
    List.getElem?_range (hindex.trans_eq (by rw [hlength]))]
  rfl

end MemoryArgument

end Zksm83
