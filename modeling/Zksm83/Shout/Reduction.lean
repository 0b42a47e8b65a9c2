import Zksm83.Shout.Columns

/-!
# The reduction of a lookup

A sumcheck reduces the mixed values of a lookup to the table at one point, and a second sumcheck
reduces what was read at that point to the columns at another. When the verifier accepts both, the
mixed errors of the readers vanish at the point of the rows, or a challenge escaped one of the
sumchecks. In the other direction the tables of an honest prover are those of the readers.
-/

namespace Zksm83

open Finset Sumcheck TableLookup
open Multilinear (extension weight equality)

variable {F : Type} [Field F] [DecidableEq F]

/-! ## Accepted sumchecks -/

namespace ProductSumcheck

variable {transcript : AkitaTranscript F}

/-- A sumcheck that a prover made and its verifier accepts: from one state they come to the same point
and the same next state. -/
structure Proved (transcript : AkitaTranscript F) (count : ℕ) (left right : List F)
    (state : transcript.State) (proof : Proof F) (claim : F) (point : List F)
    (state' : transcript.State) : Prop where
  point_length : point.length = count
  claim_eq : claim = ∑ index ∈ range (2 ^ count), tableOf left index * tableOf right index
  finalLeft_eq : proof.finalLeft = extension point (tableOf left)
  finalRight_eq : proof.finalRight = extension point (tableOf right)
  verifies : DistinctNodes F 3 → verify transcript proof claim count state = .ok (point, state')

theorem proved_honest {rounds : List (Vector F 3)} {count : ℕ} {left right : List F}
    {state : transcript.State}
    (hrounds : rounds.map Vector.toList = (run transcript count left right state).1) :
    let output := honestOutput transcript rounds count left right state
    Proved transcript count left right state output.1.1 output.1.2.1 output.1.2.2 output.2 where
  point_length := (length_honestRun _ _ _ _ _ _).2
  claim_eq := by
    show summand.total count (rowsOf (left, right)) = _
    rw [Summand.total, Multilinear.cubeSum]
    exact sum_congr rfl fun index _ => summand_value _
  finalLeft_eq := rfl
  finalRight_eq := rfl
  verifies hnodes := verify_honest hnodes hrounds

/-- The prover of two tables succeeds, and only so. -/
theorem prove_proved {left right : List F} {count : ℕ} (hleft : left.length = 2 ^ count)
    (hright : right.length = 2 ^ count) (state : transcript.State) :
    ∃ output, prove transcript left right state = .ok output ∧
      Proved transcript count left right state output.1.1 output.1.2.1 output.1.2.2 output.2 := by
  obtain ⟨rounds, hrounds, hprove⟩ := prove_eq hleft hright state
  exact ⟨_, hprove, proved_honest hrounds⟩

/-- The prover of a sparse table succeeds, as for the dense one. -/
theorem proveSparseLeft_proved {entries : List (ℕ × F)} {right : List F} {count : ℕ}
    (hindices : ∀ entry ∈ entries, entry.1 < 2 ^ count) (hright : right.length = 2 ^ count)
    (state : transcript.State) :
    ∃ output, proveSparseLeft transcript entries (2 ^ count) right state = .ok output ∧
      Proved transcript count (denseTable entries (2 ^ count)) right state output.1.1 output.1.2.1
        output.1.2.2 output.2 := by
  obtain ⟨rounds, hrounds, hprove⟩ := proveSparseLeft_eq transcript hindices hright state
  exact ⟨_, hprove, proved_honest hrounds⟩

/-- An accepted claim is the inner product of the tables behind the final values, unless a
challenge escapes. -/
theorem verify_sound {proof : Proof F} {claim : F} {count : ℕ} {state state' : transcript.State}
    {point left right : List F}
    (hverify : verify transcript proof claim count state = .ok (point, state'))
    (hleft : proof.finalLeft = extension point (tableOf left))
    (hright : proof.finalRight = extension point (tableOf right)) :
    claim = ∑ index ∈ range (2 ^ count), tableOf left index * tableOf right index ∨
      Escapes summand (rowsOf (left, right)) (roundsOf (proof.rounds.map Vector.toList) point) := by
  obtain ⟨rfl, hpoint, haccepts, hdegree⟩ := verify_accepts hverify
  have hfinal : proof.finalLeft * proof.finalRight =
      summand.value (extension point (rowsOf (left, right))) := by
    rw [← Multilinear.foldAll_zero, foldAll_rowsOf, summand_value, hleft, hright]
  have hsound := sound_roundsOf summand _ (hpoint.trans (List.length_map _).symm) haccepts hdegree
    hfinal
  rw [List.length_map] at hsound
  refine hsound.imp_left fun htotal => htotal.trans ?_
  rw [Summand.total, Multilinear.cubeSum]
  exact sum_congr rfl fun index _ => summand_value _

end ProductSumcheck

namespace SumOfProductsSumcheck

variable {transcript : AkitaTranscript F}

/-- A sumcheck that a prover made and its verifier accepts. -/
structure Proved (transcript : AkitaTranscript F) (count terms factors : ℕ) (shared : ℕ → F)
    (functions : List (List (ℕ → F))) (state : transcript.State) (proof : Proof F) (claim : F)
    (point : List F) (state' : transcript.State) : Prop where
  point_length : point.length = count
  claim_eq : claim = ∑ index ∈ range (2 ^ count), shared index * termValue functions index
  finalTerms_eq : proof.finalTerms = functions.map (fun list =>
    extension point shared :: list.map (extension point))
  verifies : DistinctNodes F (factors + 2) →
    verify transcript proof claim count terms (factors + 1) state = .ok (point, state')

/-- The prover of terms that share their first factor succeeds. -/
theorem proveSharedFirst_proved {memory : ℕ → F} {terms : List (List (SumcheckFactor F))}
    {count factors : ℕ} (hterms : SharedTerms count factors terms) (hfactors : 0 < factors)
    (state : transcript.State) :
    ∃ output, proveSharedFirst transcript memory terms state = .ok output ∧
      Proved transcript count terms.length factors (sharedFunction memory terms)
        (otherFunctions memory terms) state output.1.1 output.1.2.1 output.1.2.2 output.2 := by
  refine ⟨_, proveSharedFirst_eq transcript hterms hfactors state, ?_⟩
  exact {
    point_length := (length_honestRun _ _ _ _ _ _).2
    claim_eq := by
      show (summand terms.length factors).total count _ = _
      rw [Summand.total, Multilinear.cubeSum]
      exact sum_congr rfl fun index _ => summand_value hterms.shape_otherFunctions _ index
    finalTerms_eq := (hterms.extensions_eq _).symm
    verifies := fun hnodes => verify_honest hterms hnodes state }

/-- An accepted claim is the sum of the products of the tables behind the final values, unless a
challenge escapes. -/
theorem verify_sound {proof : Proof F} {claim : F} {count terms factors : ℕ}
    {state state' : transcript.State} {point : List F}
    (hverify : verify transcript proof claim count terms (factors + 1) state = .ok (point, state'))
    {shared : ℕ → F} {functions : List (List (ℕ → F))}
    (hfinal : proof.finalTerms = functions.map (fun list =>
      extension point shared :: list.map (extension point))) :
    claim = ∑ index ∈ range (2 ^ count), shared index * termValue functions index ∨
      Escapes (summand terms factors) (rowsOf shared functions) (roundsOf proof.rounds point) := by
  obtain ⟨rfl, hpoint, hterms, hfactors, haccepts, hdegree⟩ := verify_accepts hverify
  have hshape : Shape terms factors functions := by
    rw [hfinal] at hterms hfactors
    refine ⟨(List.length_map _).symm.trans hterms, fun list hlist => ?_⟩
    have hlength := hfactors _ (List.mem_map_of_mem hlist)
    rwa [List.length_cons, List.length_map, Nat.add_right_cancel_iff] at hlength
  have hfolded : Shape terms factors
      (functions.map (fun list => list.map (Multilinear.foldAll point))) := by
    refine ⟨(List.length_map _).trans hshape.1, fun list hlist => ?_⟩
    obtain ⟨term, hterm, rfl⟩ := List.mem_map.mp hlist
    exact (List.length_map _).trans (hshape.2 term hterm)
  have hvalue : (proof.finalTerms.map List.prod).sum =
      (summand terms factors).value (extension point (rowsOf shared functions)) := by
    rw [← Multilinear.foldAll_zero, foldAll_rowsOf, summand_value hfolded, termValue,
      ← List.sum_map_mul_left, hfinal]
    simp only [List.map_map, Function.comp_def, Multilinear.foldAll_zero, List.prod_cons]
  have hsound := sound_roundsOf (summand terms factors) (rowsOf shared functions) hpoint haccepts
    hdegree hvalue
  refine hsound.imp_left fun htotal => htotal.trans ?_
  rw [Summand.total, Multilinear.cubeSum]
  exact sum_congr rfl fun index _ => summand_value hshape shared index

end SumOfProductsSumcheck

namespace Shout

/-! ## Accepted reductions -/

/-- A function on the hypercube as a table. -/
def tabulate (count : ℕ) (f : ℕ → F) : List F := (List.range (2 ^ count)).map f

omit [DecidableEq F] in
theorem tableOf_tabulate {count index : ℕ} (f : ℕ → F) (hindex : index < 2 ^ count) :
    tableOf (tabulate count f) index = f index := by
  rw [tabulate, tableOf_eq (by rwa [List.length_map, List.length_range]), List.getElem_map,
    List.getElem_range]

omit [DecidableEq F] in
theorem extension_tabulate {count : ℕ} {point : List F} (hpoint : point.length = count)
    (f : ℕ → F) : extension point (tableOf (tabulate count f)) = extension point f :=
  Multilinear.extension_congr fun _ hindex => tableOf_tabulate f (hpoint ▸ hindex)

section Sound

variable {transcript : AkitaTranscript F} {readers : List (Reader F)} {table : List F}
  {cyclePoint tablePoint addressPoint : List F} {count terms factors : ℕ}
  {functions : List (List (ℕ → F))}

/-- The sumchecks of a lookup show that the mixed errors vanish at the point of the rows, unless a
challenge escapes. -/
theorem reduction_sound {tableProof : ProductSumcheck.Proof F}
    {addressProof : SumOfProductsSumcheck.Proof F} {claim : F}
    {state₁ state₂ state₃ state₄ : transcript.State}
    (htable : ProductSumcheck.verify transcript tableProof claim count state₁ =
      .ok (tablePoint, state₂))
    (hright : tableProof.finalRight = extension tablePoint (tableOf table))
    (haddress : SumOfProductsSumcheck.verify transcript addressProof tableProof.finalLeft
      cyclePoint.length terms (factors + 1) state₃ = .ok (addressPoint, state₄))
    (hfinal : addressProof.finalTerms = functions.map (fun list =>
      extension addressPoint (weight cyclePoint) :: list.map (extension addressPoint)))
    (hfunctions : ∀ row < 2 ^ cyclePoint.length,
      SumOfProductsSumcheck.termValue functions row =
        mixedEntries readers (fun address => equality address tablePoint) row)
    (hbits : ∀ reader ∈ readers, reader.bits.length = count)
    (hclaim : claim = extension cyclePoint (mixedValues readers)) :
    extension cyclePoint (mixedErrors (tableOf table) readers) = 0 ∨
      Escapes ProductSumcheck.summand
        (ProductSumcheck.rowsOf (tabulate count (reads cyclePoint readers), table))
        (roundsOf (tableProof.rounds.map Vector.toList) tablePoint) ∨
      Escapes (SumOfProductsSumcheck.summand terms factors)
        (SumOfProductsSumcheck.rowsOf (weight cyclePoint) functions)
        (roundsOf addressProof.rounds addressPoint) := by
  have hpoint : tablePoint.length = count := (ProductSumcheck.verify_accepts htable).2.1
  obtain hleft | hescapes := SumOfProductsSumcheck.verify_sound haddress hfinal
  · -- what is left of the table sumcheck is the extension of what the readers read
    have hreads : tableProof.finalLeft =
        extension tablePoint (tableOf (tabulate count (reads cyclePoint readers))) := by
      rw [hleft, extension_tabulate hpoint, extension_reads fun reader hreader =>
        (hbits reader hreader).trans hpoint.symm, extension]
      exact sum_congr rfl fun row hrow => by rw [hfunctions row (mem_range.mp hrow), smul_eq_mul]
    obtain hinner | hescapes := ProductSumcheck.verify_sound htable hreads hright
    · left
      rw [extension_mixedErrors hbits, ← hclaim, hinner, sub_eq_zero]
      exact sum_congr rfl fun index hindex => by rw [tableOf_tabulate _ (mem_range.mp hindex)]
    · exact Or.inr (Or.inl hescapes)
  · exact Or.inr (Or.inr hescapes)

end Sound

end Shout

end Zksm83
