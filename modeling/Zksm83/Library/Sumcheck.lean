import Mathlib.LinearAlgebra.Lagrange
import Zksm83.Library.Multilinear

/-!
# The sumcheck protocol

A prover convinces a verifier of the sum over the hypercube of a function of a multilinear table,
one coordinate a round: it sends a polynomial in that coordinate, the verifier compares the sum of
its values at zero and one with the claim, and the value at a challenge is the next claim. The
function is only known to be a polynomial of bounded degree on every line. Read `complete` and
`sound` first: the honest rounds are accepted, and in accepted rounds that do not start from the
true sum some challenge is a root of the difference of the polynomial sent and the honest one.
-/

open Finset Polynomial
open Multilinear hiding line_zero line_one

namespace Sumcheck

/-- A function on a module that is a polynomial of bounded degree on every line. -/
structure Summand (F V : Type*) [Field F] [AddCommGroup V] [Module F V] (degree : ℕ) where
  value : V → F
  /-- The restriction to the line through a value at zero and a value at one. -/
  onLine : V → V → F[X]
  natDegree_onLine_le (low high : V) : (onLine low high).natDegree ≤ degree
  eval_onLine (low high : V) (x : F) : (onLine low high).eval x = value (line low high x)

variable {F V : Type*} [Field F] [AddCommGroup V] [Module F V] {degree : ℕ}

namespace Summand

variable (summand : Summand F V degree)

/-- The sum over the hypercube of a dimension. -/
def total (count : ℕ) (table : ℕ → V) : F :=
  cubeSum count (fun index => summand.value (table index))

/-- The sum over all coordinates but the first, as a polynomial in the first. -/
noncomputable def honest (count : ℕ) (table : ℕ → V) : F[X] :=
  ∑ index ∈ range (2 ^ count), summand.onLine (table (2 * index)) (table (2 * index + 1))

theorem eval_honest (count : ℕ) (table : ℕ → V) (x : F) :
    (summand.honest count table).eval x = summand.total count (fold x table) := by
  rw [honest, eval_finsetSum]
  exact sum_congr rfl fun index _ => summand.eval_onLine _ _ x

theorem natDegree_honest_le (count : ℕ) (table : ℕ → V) :
    (summand.honest count table).natDegree ≤ degree :=
  natDegree_sum_le_of_forall_le _ _ fun _ _ => summand.natDegree_onLine_le _ _

/-- The honest polynomial passes the check of its round. -/
theorem honest_zero_add_one (count : ℕ) (table : ℕ → V) :
    (summand.honest count table).eval 0 + (summand.honest count table).eval 1 =
      summand.total (count + 1) table := by
  rw [eval_honest, eval_honest, total, total, total, cubeSum, cubeSum, cubeSum, pow_succ,
    mul_comm (2 ^ count), sum_range_pairs, sum_add_distrib]
  simp only [Multilinear.fold, Multilinear.line_zero, Multilinear.line_one]

theorem total_zero (table : ℕ → V) : summand.total 0 table = summand.value (table 0) :=
  cubeSum_zero _

end Summand

/-! ## Functions of bounded degree on lines -/

/-- The line through two field elements, as a polynomial. -/
noncomputable def linePolynomial (low high : F) : F[X] := C low + C (high - low) * X

theorem natDegree_linePolynomial_le (low high : F) : (linePolynomial low high).natDegree ≤ 1 :=
  (natDegree_add_le _ _).trans (max_le (by simp) ((natDegree_C_mul_le _ _).trans natDegree_X_le))

theorem eval_linePolynomial (low high x : F) : (linePolynomial low high).eval x = line low high x := by
  simp only [linePolynomial, eval_add, eval_mul, eval_C, eval_X, line, smul_eq_mul]
  ring

namespace Summand

/-- A sum of products of linear forms. -/
noncomputable def sumOfProducts {ι κ : Type*} (terms : Finset ι) (factors : Finset κ)
    (form : ι → κ → V →ₗ[F] F) (hdegree : factors.card ≤ degree) : Summand F V degree where
  value row := ∑ term ∈ terms, ∏ factor ∈ factors, form term factor row
  onLine low high := ∑ term ∈ terms, ∏ factor ∈ factors,
    linePolynomial (form term factor low) (form term factor high)
  natDegree_onLine_le low high := by
    refine natDegree_sum_le_of_forall_le _ _ fun term _ => (natDegree_prod_le _ _).trans ?_
    refine (sum_le_card_nsmul _ _ 1 fun factor _ => natDegree_linePolynomial_le _ _).trans ?_
    rwa [smul_eq_mul, mul_one]
  eval_onLine low high x := by
    rw [eval_finsetSum]
    refine sum_congr rfl fun term _ => ?_
    rw [eval_prod]
    exact prod_congr rfl fun factor _ => by rw [eval_linePolynomial, map_line]

/-- A function with a weight in front. -/
noncomputable def weighted (summand : Summand F V degree) : Summand F (F × V) (degree + 1) where
  value row := row.1 * summand.value row.2
  onLine low high := linePolynomial low.1 high.1 * summand.onLine low.2 high.2
  natDegree_onLine_le low high := by
    refine natDegree_mul_le.trans ?_
    rw [add_comm degree]
    exact add_le_add (natDegree_linePolynomial_le _ _) (summand.natDegree_onLine_le _ _)
  eval_onLine low high x := by
    rw [eval_mul, eval_linePolynomial, summand.eval_onLine]
    rfl

end Summand

/-- The checks of the verifier, from a claim to a final claim. A round is the polynomial that was
sent and the challenge that followed it. -/
def Accepts : F → List (F[X] × F) → F → Prop
  | claim, [], final => claim = final
  | claim, (message, challenge) :: rounds, final =>
    message.eval 0 + message.eval 1 = claim ∧ Accepts (message.eval challenge) rounds final

/-- The rounds of the honest prover at the given challenges. -/
noncomputable def honestRounds (summand : Summand F V degree) :
    List F → (ℕ → V) → List (F[X] × F)
  | [], _ => []
  | challenge :: point, table =>
    (summand.honest point.length table, challenge) ::
      honestRounds summand point (fold challenge table)

/-- The honest rounds are accepted, from the true sum to the value of the function at the extension
of the table. -/
theorem complete (summand : Summand F V degree) (point : List F) (table : ℕ → V) :
    Accepts (summand.total point.length table) (honestRounds summand point table)
      (summand.value (extension point table)) := by
  induction point generalizing table with
  | nil =>
    show summand.total 0 table = _
    rw [summand.total_zero, extension_nil]
  | cons challenge point ih =>
    refine ⟨summand.honest_zero_add_one point.length table, ?_⟩
    rw [summand.eval_honest, extension_cons]
    exact ih (fold challenge table)

/-- In some round, the challenge is a root of the difference of the polynomial that was sent and
the honest one, which is not zero and has bounded degree. -/
def Escapes (summand : Summand F V degree) (table : ℕ → V) (rounds : List (F[X] × F)) : Prop :=
  ∃ before message challenge after, rounds = before ++ (message, challenge) :: after ∧
    let difference := message - summand.honest after.length (foldAll (before.map Prod.snd) table)
    difference ≠ 0 ∧ difference.natDegree ≤ degree ∧ difference.IsRoot challenge

theorem Escapes.cons {summand : Summand F V degree} {table : ℕ → V} {message : F[X]}
    {challenge : F} {rounds : List (F[X] × F)}
    (hescapes : Escapes summand (fold challenge table) rounds) :
    Escapes summand table ((message, challenge) :: rounds) := by
  obtain ⟨before, message', challenge', after, rfl, hdifference⟩ := hescapes
  exact ⟨(message, challenge) :: before, message', challenge', after, rfl, hdifference⟩

/-- Accepted rounds of bounded degree that end at the true value started from the true sum, unless
some challenge is a root of a difference of two polynomials. -/
theorem sound (summand : Summand F V degree) (table : ℕ → V) {claim final : F}
    {rounds : List (F[X] × F)} (haccepts : Accepts claim rounds final)
    (hdegree : ∀ round ∈ rounds, round.1.natDegree ≤ degree)
    (hfinal : final = summand.value (extension (rounds.map Prod.snd) table)) :
    claim = summand.total rounds.length table ∨ Escapes summand table rounds := by
  induction rounds generalizing claim table with
  | nil =>
    left
    have hclaim : claim = final := haccepts
    rw [hclaim, hfinal, List.map_nil, extension_nil]
    exact (summand.total_zero table).symm
  | cons round rounds ih =>
    obtain ⟨message, challenge⟩ := round
    obtain ⟨hsum, haccepts⟩ := haccepts
    have hmessage := hdegree _ List.mem_cons_self
    rw [List.map_cons, extension_cons] at hfinal
    have hrest := ih (fold challenge table) haccepts
      (fun round hround => hdegree round (List.mem_cons_of_mem _ hround)) hfinal
    obtain hrest | hescapes := hrest
    · -- the next claim is true: either the message is honest, or the challenge hides that it is not
      by_cases hhonest : message - summand.honest rounds.length table = 0
      · left
        rw [← hsum, sub_eq_zero.mp hhonest, summand.honest_zero_add_one, List.length_cons]
      · right
        refine ⟨[], message, challenge, rounds, rfl, hhonest, ?_, ?_⟩
        · exact (natDegree_sub_le _ _).trans
            (max_le hmessage (summand.natDegree_honest_le _ _))
        · rw [IsRoot, List.map_nil, foldAll_nil, eval_sub, summand.eval_honest, hrest, sub_self]
    · exact Or.inr hescapes.cons

/-! ## Messages as values -/

/-- The numbers up to a bound are different in the field. -/
def DistinctNodes (F : Type*) [Field F] (count : ℕ) : Prop :=
  Set.InjOn (fun node : ℕ => (node : F)) (range count)

/-- The polynomial through a list of values at zero, one, two and so on. -/
noncomputable def interpolant (evaluations : List F) : F[X] :=
  Lagrange.interpolate (range evaluations.length) (fun node : ℕ => (node : F))
    (fun node => evaluations.getD node 0)

theorem natDegree_interpolant_le {evaluations : List F} {degree : ℕ}
    (hnodes : DistinctNodes F evaluations.length) (hlength : evaluations.length = degree + 1) :
    (interpolant evaluations).natDegree ≤ degree := by
  have hdegree := Lagrange.degree_interpolate_lt (fun node => evaluations.getD node 0) hnodes
  rw [card_range] at hdegree
  refine natDegree_le_iff_coeff_eq_zero.mpr fun index hindex => ?_
  have hle : evaluations.length ≤ index := hlength.trans_le hindex
  exact coeff_eq_zero_of_degree_lt (hdegree.trans_le (by exact_mod_cast hle))

theorem eval_interpolant {evaluations : List F} (hnodes : DistinctNodes F evaluations.length)
    {node : ℕ} (hnode : node < evaluations.length) :
    (interpolant evaluations).eval (node : F) = evaluations.getD node 0 :=
  Lagrange.eval_interpolate_at_node _ hnodes (mem_range.mpr hnode)

/-- The values of a polynomial at the nodes determine it. -/
theorem interpolant_eq {evaluations : List F} {polynomial : F[X]} {degree : ℕ}
    (hnodes : DistinctNodes F (degree + 1)) (hlength : evaluations.length = degree + 1)
    (hdegree : polynomial.natDegree ≤ degree)
    (hvalues : ∀ node < degree + 1, evaluations.getD node 0 = polynomial.eval (node : F)) :
    interpolant evaluations = polynomial := by
  symm
  unfold interpolant
  rw [hlength]
  refine Lagrange.eq_interpolate_of_eval_eq _ hnodes ?_ fun node hnode => ?_
  · rw [card_range]
    exact degree_le_natDegree.trans_lt (by exact_mod_cast Nat.lt_succ_of_le hdegree)
  · exact (hvalues node (mem_range.mp hnode)).symm

end Sumcheck
