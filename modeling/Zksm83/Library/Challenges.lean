import Mathlib.Algebra.Polynomial.Roots
import Mathlib.Data.List.GetD
import Zksm83.Library.Sumcheck

/-!
# Random challenges

A verifier mixes values with the powers of a challenge, or folds a table at a random point, and
learns one field element. When that element is zero although the values are not, some challenge was
a root of a polynomial that was fixed before it, is not zero and has bounded degree. A challenge
like that is said to hit the polynomial.
-/

open Finset Polynomial

namespace Challenges

open Multilinear Sumcheck

variable {F : Type*} [Field F]

/-- The challenge is a root of the polynomial, which is not zero and of bounded degree. -/
structure Hits (degree : ℕ) (polynomial : F[X]) (challenge : F) : Prop where
  ne_zero : polynomial ≠ 0
  natDegree_le : polynomial.natDegree ≤ degree
  isRoot : polynomial.IsRoot challenge

/-- At most as many challenges hit a polynomial as its degree allows. -/
theorem Hits.card_le {degree : ℕ} {polynomial : F[X]} {challenges : Finset F}
    (hhits : ∀ challenge ∈ challenges, Hits degree polynomial challenge) :
    challenges.card ≤ degree := by
  obtain rfl | ⟨challenge, hchallenge⟩ := challenges.eq_empty_or_nonempty
  · exact Nat.zero_le _
  · have hfirst := hhits challenge hchallenge
    have hroots : challenges.val ⊆ polynomial.roots := fun other hother =>
      (mem_roots hfirst.ne_zero).mpr (hhits other hother).isRoot
    exact (card_le_degree_of_subset_roots hroots).trans hfirst.natDegree_le

/-! ## Powers -/

/-- The polynomial with the given coefficients, the constant one first. -/
noncomputable def powerPolynomial (values : List F) : F[X] :=
  ∑ index ∈ range values.length, C (values.getD index 0) * X ^ index

theorem eval_powerPolynomial (values : List F) (challenge : F) :
    (powerPolynomial values).eval challenge =
      ∑ index ∈ range values.length, challenge ^ index * values.getD index 0 := by
  rw [powerPolynomial, eval_finsetSum]
  exact sum_congr rfl fun index _ => by rw [eval_C_mul, eval_pow, eval_X, mul_comm]

theorem coeff_powerPolynomial (values : List F) (index : ℕ) :
    (powerPolynomial values).coeff index = values.getD index 0 := by
  rw [powerPolynomial, finsetSum_coeff]
  simp only [coeff_C_mul_X_pow]
  rw [sum_ite_eq (range values.length) index]
  split_ifs with hindex
  · rfl
  · rw [List.getD_eq_default]
    exact not_lt.mp (mt mem_range.mpr hindex)

theorem natDegree_powerPolynomial_le (values : List F) :
    (powerPolynomial values).natDegree ≤ values.length - 1 := by
  refine natDegree_le_iff_coeff_eq_zero.mpr fun index hindex => ?_
  rw [coeff_powerPolynomial, List.getD_eq_default]
  omega

/-- Values that cancel when they are mixed with the powers of a challenge are zero, or the challenge
hits the polynomial of the values. -/
theorem zero_or_hits {values : List F} {challenge : F}
    (hzero : ∑ index ∈ range values.length, challenge ^ index * values.getD index 0 = 0) :
    (∀ value ∈ values, value = 0) ∨
      Hits (values.length - 1) (powerPolynomial values) challenge := by
  by_cases hpolynomial : powerPolynomial values = 0
  · left
    intro value hvalue
    obtain ⟨index, hindex, rfl⟩ := List.getElem_of_mem hvalue
    have hcoeff := coeff_powerPolynomial values index
    rw [hpolynomial, coeff_zero, List.getD_eq_getElem _ _ hindex] at hcoeff
    exact hcoeff.symm
  · right
    refine ⟨hpolynomial, natDegree_powerPolynomial_le values, ?_⟩
    rw [IsRoot, eval_powerPolynomial, hzero]

/-! ## Points -/

/-- Some coordinate of the point is a root of a line between two neighbours of the table, folded at
the coordinates before it, although the line is not zero. -/
def PointHits (table : ℕ → F) (point : List F) : Prop :=
  ∃ before challenge after index, point = before ++ challenge :: after ∧
    Hits 1 (linePolynomial (foldAll before table (2 * index))
      (foldAll before table (2 * index + 1))) challenge

theorem PointHits.cons {table : ℕ → F} {x : F} {point : List F}
    (hhits : PointHits (fold x table) point) : PointHits table (x :: point) := by
  obtain ⟨before, challenge, after, index, rfl, hhits⟩ := hhits
  exact ⟨x :: before, challenge, after, index, rfl, hhits⟩

/-- A line that is zero as a polynomial is zero at both ends. -/
theorem ends_of_linePolynomial_eq_zero {low high : F} (hzero : linePolynomial low high = 0) :
    low = 0 ∧ high = 0 := by
  have hlow := eval_linePolynomial low high (0 : F)
  have hhigh := eval_linePolynomial low high (1 : F)
  rw [hzero, eval_zero] at hlow hhigh
  exact ⟨(hlow.trans (line_zero low high)).symm, (hhigh.trans (line_one low high)).symm⟩

/-- A table whose extension vanishes at a point is zero on the hypercube, or a coordinate of the
point hits a line of the table. -/
theorem zero_or_pointHits (table : ℕ → F) {point : List F} (hzero : extension point table = 0) :
    (∀ index < 2 ^ point.length, table index = 0) ∨ PointHits table point := by
  induction point generalizing table with
  | nil =>
    left
    intro index hindex
    obtain rfl := Nat.lt_one_iff.mp hindex
    exact (extension_nil table).symm.trans hzero
  | cons x point ih =>
    rw [extension_cons] at hzero
    obtain hfolded | hhits := ih (fold x table) hzero
    · by_cases hlines : ∀ index < 2 ^ point.length,
          linePolynomial (table (2 * index)) (table (2 * index + 1)) = 0
      · left
        intro index hindex
        have hhalf : index / 2 < 2 ^ point.length := by
          rw [List.length_cons, pow_succ] at hindex
          omega
        obtain ⟨hlow, hhigh⟩ := ends_of_linePolynomial_eq_zero (hlines _ hhalf)
        obtain heven | hodd := Nat.mod_two_eq_zero_or_one index
        · rwa [show 2 * (index / 2) = index by omega] at hlow
        · rwa [show 2 * (index / 2) + 1 = index by omega] at hhigh
      · -- the first line that is not zero vanishes at the coordinate
        right
        push Not at hlines
        obtain ⟨index, hindex, hne⟩ := hlines
        refine ⟨[], x, point, index, rfl, hne, natDegree_linePolynomial_le _ _, ?_⟩
        rw [IsRoot, eval_linePolynomial]
        exact hfolded index hindex
    · exact Or.inr hhits.cons

end Challenges
