import Zksm83.Sumcheck.SharedFirst

/-!
# What the sumchecks guarantee

Both sumchecks are complete for every transcript, and sound up to a challenge that is a root of a
nonzero polynomial of bounded degree: the difference of the polynomial that was sent and the honest
one. Read `sumcheck_complete` and `sumcheck_sound`. After `sumcheck.rs`.
-/

namespace Zksm83

open Finset Sumcheck
open Multilinear (extension)

variable {F : Type} [Field F] [DecidableEq F]

/-- The sum over the hypercube of the product of two tables. -/
def productSum (count : ℕ) (left right : List F) : F :=
  ∑ index ∈ range (2 ^ count), tableOf left index * tableOf right index

omit [DecidableEq F] in
theorem total_eq_productSum (count : ℕ) (left right : List F) :
    ProductSumcheck.summand.total count (ProductSumcheck.rowsOf (left, right)) =
      productSum count left right := by
  rw [Summand.total, Multilinear.cubeSum]
  refine sum_congr rfl fun index _ => ?_
  rw [ProductSumcheck.summand_value]
  rfl

namespace SumOfProductsSumcheck

/-- The sum over the hypercube of the sum of the products of the factors. -/
def factorSum (memory : ℕ → F) (terms : List (List (SumcheckFactor F))) (count : ℕ) : F :=
  ∑ index ∈ range (2 ^ count),
    (terms.map (fun term => (term.map (fun factor => factor.value memory index)).prod)).sum

omit [DecidableEq F] in
theorem SharedTerms.total_eq {memory : ℕ → F} {terms : List (List (SumcheckFactor F))}
    {count factors : ℕ} (hterms : SharedTerms count factors terms) :
    (summand terms.length factors).total count
        (rowsOf (sharedFunction memory terms) (otherFunctions memory terms)) =
      factorSum memory terms count := by
  rw [Summand.total, Multilinear.cubeSum]
  refine sum_congr rfl fun index _ => ?_
  rw [summand_value hterms.shape_otherFunctions, termValue, ← List.sum_map_mul_left, otherFunctions,
    List.map_map]
  refine congrArg List.sum (List.map_congr_left fun term hterm => ?_)
  have hhead := congrArg (List.map (fun f => f index)) (hterms.head_value memory hterm)
  rw [List.map_map] at hhead
  show sharedFunction memory terms index *
    ((term.tail.map (SumcheckFactor.value memory)).map (fun f => f index)).prod = _
  rw [← List.prod_cons, ← List.map_cons (f := fun f : ℕ → F => f index), ← hhead]
  rfl

/-! ## Tables as lists -/

/-- The sum over the hypercube of the sum of the products of tables. -/
def tableSum (tables : List (List (List F))) (count : ℕ) : F :=
  ∑ index ∈ range (2 ^ count),
    (tables.map (fun term => (term.map (fun table => tableOf table index)).prod)).sum

/-- The values of the tables in a row. -/
def tableRows (tables : List (List (List F))) (index term factor : ℕ) : F :=
  tableOf ((tables.getD term []).getD factor []) index

theorem card_range_le (count : ℕ) : (range count).card ≤ count := (card_range count).le

/-- The sum of the products of the terms. -/
noncomputable def termSummand (terms factors : ℕ) : Summand F (ℕ → ℕ → F) factors :=
  .sumOfProducts (range terms) (range factors) entry (card_range_le factors)

omit [DecidableEq F] in
/-- The value of the sum of products, for values that are read off the tables. -/
theorem termSummand_value {terms factors : ℕ} {tables : List (List (List F))}
    (hshape : Shape terms factors tables) (f : List F → F) {row : ℕ → ℕ → F}
    (hrow : ∀ term factor, row term factor = f ((tables.getD term []).getD factor [])) :
    (termSummand terms factors).value row =
      (tables.map (fun term => (term.map f).prod)).sum := by
  obtain ⟨rfl, hfactors⟩ := hshape
  show ∑ term ∈ range tables.length, ∏ factor ∈ range factors, row term factor = _
  rw [← Fin.sum_univ_fun_getElem, sum_range]
  refine sum_congr rfl fun term _ => ?_
  have hmem : tables[(term : ℕ)] ∈ tables := List.getElem_mem term.isLt
  rw [← hfactors _ hmem, ← Fin.prod_univ_fun_getElem, prod_range]
  refine prod_congr rfl fun factor _ => ?_
  rw [hrow, ← List.getElem_eq_getD (h := term.isLt), ← List.getElem_eq_getD]

end SumOfProductsSumcheck

/-! ## Completeness -/

open SumOfProductsSumcheck in
/-- Over a field whose interpolation nodes are different, and for any transcript: the verifier
accepts what the prover sends and derives the same challenges and transcript, the claim is the true
sum, and the final values are the multilinear extensions at the challenges. -/
theorem sumcheck_complete (transcript : AkitaTranscript F) (count : ℕ) :
    (∀ (left right : List F) (state : transcript.State), DistinctNodes F 3 →
      left.length = 2 ^ count → right.length = 2 ^ count →
      ∃ proof claim point state',
        ProductSumcheck.prove transcript left right state = .ok ((proof, claim, point), state') ∧
        ProductSumcheck.verify transcript proof claim count state = .ok (point, state') ∧
        claim = productSum count left right ∧
        proof.finalLeft = extension point (tableOf left) ∧
        proof.finalRight = extension point (tableOf right) ∧
        (count < 64 → FieldFold.evaluateMle left point = .ok proof.finalLeft ∧
          FieldFold.evaluateMle right point = .ok proof.finalRight)) ∧
    (∀ (memory : ℕ → F) (terms : List (List (SumcheckFactor F))) (factors : ℕ)
      (state : transcript.State), 0 < factors → DistinctNodes F (factors + 2) →
      SharedTerms count factors terms →
      ∃ proof claim point state',
        proveSharedFirst transcript memory terms state = .ok ((proof, claim, point), state') ∧
        verify transcript proof claim count terms.length (factors + 1) state =
          .ok (point, state') ∧
        claim = factorSum memory terms count ∧
        proof.finalTerms = extensions memory terms point) := by
  constructor
  · intro left right state hnodes hleft hright
    obtain ⟨rounds, hrounds, hprove⟩ := ProductSumcheck.prove_eq hleft hright state
    refine ⟨_, _, _, _, hprove, ProductSumcheck.verify_honest hnodes hrounds,
      total_eq_productSum count left right, rfl, rfl, fun hcount => ?_⟩
    have hpoint : (ProductSumcheck.run transcript count left right state).2.1.length = count :=
      (length_honestRun _ _ _ _ _ _).2
    constructor
    · exact evaluateMle_extension (hpoint.symm ▸ hcount) (hpoint.symm ▸ hleft)
    · exact evaluateMle_extension (hpoint.symm ▸ hcount) (hpoint.symm ▸ hright)
  · intro memory terms factors state hfactors hnodes hterms
    refine ⟨_, _, _, _, proveSharedFirst_eq transcript hterms hfactors state,
      verify_honest hterms hnodes state, hterms.total_eq, rfl⟩

omit [Field F] [DecidableEq F] in
/-- All nodes are different in a field of characteristic zero. -/
theorem distinctNodes_charZero [Field F] [CharZero F] (count : ℕ) : DistinctNodes F count :=
  Nat.cast_injective.injOn

/-- Terms with a table, an affine function, a constant and a linear combination. -/
def mixedTerms : List (List (SumOfProductsSumcheck.SumcheckFactor ℚ)) :=
  let source (pointer : ℕ) : SumOfProductsSumcheck.FactorSource := .borrowed ⟨pointer, 2⟩
  [[.values (source 0), .affine (source 2) 3 1], [.values (source 0), .constant 7 2],
    [.values (source 0), .linearCombination [(source 4, 2), (source 2, 1)] 1 5 2]]

theorem mixedTerms_shared : SumOfProductsSumcheck.SharedTerms 1 1 mixedTerms where
  nonempty := by simp [mixedTerms]
  factors_eq := by simp [mixedTerms]
  spans := by
    simp [mixedTerms, SumOfProductsSumcheck.SumcheckFactor.Spans,
      SumOfProductsSumcheck.FactorSource.slice]
    rintro source scale (⟨rfl, -⟩ | ⟨rfl, -⟩)
    · exact le_rfl
    · exact le_rfl
  shared := ⟨⟨0, 2⟩, by simp [mixedTerms, SumOfProductsSumcheck.FactorSource.slice]⟩

/-- Two tables, and the mixed terms, over the rational numbers. -/
theorem sumcheck_complete_rational :
    (∃ proof claim point state', ProductSumcheck.prove (sumTranscript ℚ) [1, 2] [3, 4] (0 : ℚ) =
        .ok ((proof, claim, point), state') ∧
      ProductSumcheck.verify (sumTranscript ℚ) proof claim 1 (0 : ℚ) = .ok (point, state')) ∧
    ∃ proof claim point state', SumOfProductsSumcheck.proveSharedFirst (sumTranscript ℚ)
        (fun index => (index : ℚ)) mixedTerms (0 : ℚ) = .ok ((proof, claim, point), state') ∧
      SumOfProductsSumcheck.verify (sumTranscript ℚ) proof claim 1 3 2 (0 : ℚ) =
        .ok (point, state') := by
  obtain ⟨hproduct, hterms⟩ := sumcheck_complete (sumTranscript ℚ) 1
  obtain ⟨proof, claim, point, state', hprove, hverify, -⟩ :=
    hproduct [1, 2] [3, 4] (0 : ℚ) (distinctNodes_charZero 3) rfl rfl
  obtain ⟨proof', claim', point', state'', hprove', hverify', -⟩ :=
    hterms (fun index => (index : ℚ)) mixedTerms 1 (0 : ℚ) Nat.one_pos (distinctNodes_charZero 3)
      mixedTerms_shared
  exact ⟨⟨proof, claim, point, state', hprove, hverify⟩,
    ⟨proof', claim', point', state'', hprove', hverify'⟩⟩

/-! ## Soundness -/

open SumOfProductsSumcheck in
/-- When the verifier accepts, with final values that are the multilinear extensions of the tables
at the challenges, then the claim is the true sum, or some challenge is a root of the difference of
the polynomial that was sent and the honest one, which is not zero and of degree at most the number
of factors. -/
theorem sumcheck_sound (transcript : AkitaTranscript F) :
    (∀ (proof : ProductSumcheck.Proof F) (claim : F) (count : ℕ) (state state' : transcript.State)
      (point left right : List F),
      ProductSumcheck.verify transcript proof claim count state = .ok (point, state') →
      proof.finalLeft = extension point (tableOf left) →
      proof.finalRight = extension point (tableOf right) →
      claim = productSum count left right ∨
        Escapes ProductSumcheck.summand (ProductSumcheck.rowsOf (left, right))
          (roundsOf (proof.rounds.map Vector.toList) point)) ∧
    (∀ (proof : SumOfProductsSumcheck.Proof F) (claim : F) (count terms factors : ℕ)
      (state state' : transcript.State) (point : List F) (tables : List (List (List F))),
      verify transcript proof claim count terms factors state = .ok (point, state') →
      proof.finalTerms = tables.map (fun term =>
        term.map (fun table => extension point (tableOf table))) →
      claim = tableSum tables count ∨
        Escapes (termSummand terms factors) (tableRows tables)
          (roundsOf proof.rounds point)) := by
  constructor
  · intro proof claim count state state' point left right hverify hleft hright
    obtain ⟨rfl, hpoint, haccepts, hdegree⟩ := ProductSumcheck.verify_accepts hverify
    have hfinal : proof.finalLeft * proof.finalRight = ProductSumcheck.summand.value
        (extension point (ProductSumcheck.rowsOf (left, right))) := by
      rw [← Multilinear.foldAll_zero, ProductSumcheck.foldAll_rowsOf,
        ProductSumcheck.summand_value, hleft, hright]
    have hsound := sound_roundsOf ProductSumcheck.summand _
      (hpoint.trans (List.length_map _).symm) haccepts hdegree hfinal
    rwa [List.length_map, total_eq_productSum] at hsound
  · intro proof claim count terms factors state state' point tables hverify hfinal
    obtain ⟨rfl, hpoint, hterms, hfactors, haccepts, hdegree⟩ := verify_accepts hverify
    have hshape : Shape terms factors tables := by
      rw [hfinal] at hterms hfactors
      refine ⟨(List.length_map _).symm.trans hterms, fun term hterm => ?_⟩
      exact (List.length_map _).symm.trans (hfactors _ (List.mem_map_of_mem hterm))
    have hvalue : (proof.finalTerms.map List.prod).sum =
        (termSummand terms factors).value (extension point (tableRows tables)) := by
      rw [termSummand_value hshape (fun table => extension point (tableOf table)), hfinal,
        List.map_map]
      · rfl
      · exact fun term factor =>
          Multilinear.map_extension (entry term factor) point (tableRows tables)
    have htotal : (termSummand terms factors).total proof.rounds.length (tableRows tables) =
        tableSum tables proof.rounds.length := by
      rw [Summand.total, Multilinear.cubeSum]
      exact sum_congr rfl fun index _ =>
        termSummand_value hshape (fun table => tableOf table index) (fun _ _ => rfl)
    have hsound := sound_roundsOf (termSummand terms factors) (tableRows tables) hpoint haccepts
      hdegree hvalue
    rwa [htotal] at hsound

/-- The honest product proof of two tables, and a sum of two products without rounds. -/
theorem sumcheck_sound_rational :
    (∃ (proof : ProductSumcheck.Proof ℚ) (claim : ℚ) (point : List ℚ),
      claim = productSum 1 [1, 2] [3, 4] ∨
        Escapes ProductSumcheck.summand (ProductSumcheck.rowsOf ([1, 2], [3, 4]))
          (roundsOf (proof.rounds.map Vector.toList) point)) ∧
    ((16 : ℚ) = SumOfProductsSumcheck.tableSum [[[2], [3]], [[2], [5]]] 0 ∨
      Escapes (SumOfProductsSumcheck.termSummand 2 2)
        (SumOfProductsSumcheck.tableRows [[[2], [3]], [[2], [5]]]) (roundsOf ([] : List (List ℚ)) []))
    := by
  obtain ⟨hproduct, hterms⟩ := sumcheck_sound (sumTranscript ℚ)
  constructor
  · obtain ⟨rounds, hrounds, -⟩ :=
      @ProductSumcheck.prove_eq ℚ _ (sumTranscript ℚ) [1, 2] [3, 4] 1 rfl rfl (0 : ℚ)
    have hverify := ProductSumcheck.verify_honest (distinctNodes_charZero 3) hrounds
    exact ⟨_, _, _, hproduct _ _ 1 (0 : ℚ) _ _ [1, 2] [3, 4] hverify rfl rfl⟩
  · refine hterms ⟨[], [[2, 3], [2, 5]]⟩ 16 0 2 2 (0 : ℚ)
      (absorbTermFinals (sumTranscript ℚ) [[2, 3], [2, 5]] (0 : ℚ)) [] _ ?_ ?_
    · refine Except.check_eq_ok.mpr ⟨rejectIf_eq_ok.mpr (by simp), Except.bind_eq_ok.mpr
        ⟨_, rfl, Except.check_eq_ok.mpr ⟨rejectIf_eq_ok.mpr ?_, rfl⟩⟩⟩
      norm_num [SumOfProductsSumcheck.terminalTermSum]
    · simp [tableOf]

end Zksm83
