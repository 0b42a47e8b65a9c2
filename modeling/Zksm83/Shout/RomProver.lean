import Zksm83.Shout.Rom

/-!
# Built ROM lookups

The prover of the ROM lookup reads addresses of twenty bits, makes the honest runs of both sumchecks
and opens what the verifier asks for. So whatever it builds is accepted (`proveOnWorker_verifies`).
-/

namespace Zksm83

open Finset Sumcheck TableLookup Challenges
open Multilinear (extension weight equality)

namespace Shout

namespace RomLookup

variable {F : Type} [Field F] [DecidableEq F] {akita : Pcs.Akita F}

/-! ## The prover -/

theorem readAddressEntries_lt {columns : List (List F)} {slots : List (Slot F)}
    {cycleWeights : List F} {entries : List (ℕ × F)}
    (hentries : readAddressEntries columns slots cycleWeights = .ok entries) :
    ∀ entry ∈ entries, entry.1 < 2 ^ 20 := by
  obtain ⟨-, hentries⟩ := Except.check_eq_ok.mp hentries
  obtain ⟨reads, hreads, hentries⟩ := Except.of_bind_eq_ok hentries
  obtain rfl := Except.ok.inj hentries
  intro entry hentry
  obtain ⟨slotEntries, hslotEntries, hentry⟩ := List.mem_flatten.mp hentry
  obtain ⟨index, hindex, rfl⟩ := List.getElem_of_mem hslotEntries
  have hsteps := Except.mapM_eq_ok.mp hreads
  have hstep := hsteps.get (hsteps.length_eq.symm ▸ hindex) hindex
  obtain ⟨selectors, -, hstep⟩ := Except.of_bind_eq_ok hstep
  obtain ⟨addresses, haddresses, hstep⟩ := Except.of_bind_eq_ok hstep
  obtain ⟨-, hstep⟩ := Except.check_eq_ok.mp hstep
  have hentry : entry ∈ reads.get ⟨index, hindex⟩ := hentry
  rw [← Except.ok.inj hstep] at hentry
  obtain ⟨row, hrow, rfl⟩ := List.mem_map.mp hentry
  have hmem := (List.of_mem_zip (List.of_mem_zip (List.mem_of_mem_filter hrow)).2).1
  have hlt := traceAddresses_lt haddresses _ hmem
  rwa [Vector.length_toList] at hlt

omit [Field F] in
theorem columnFactors_eq_ok {columns : List (List F)} {rowCount : ℕ}
    {affines : List (AffineColumn F)} {factors : List (SumOfProductsSumcheck.SumcheckFactor F)}
    (hmap : affines.mapM (columnFactor columns rowCount) = .ok factors) :
    factors = affines.map (fun affine => affine.factor rowCount) := by
  induction Except.mapM_eq_ok.mp hmap with
  | nil => rfl
  | cons hfirst hrest ih =>
    obtain ⟨-, -, hfirst⟩ := Except.of_bind_eq_ok hfirst
    rw [List.map_cons, ← ih (Except.mapM_eq_ok.mpr hrest), ← Except.ok.inj hfirst]

theorem addressBindingTerms_eq_ok {columns : List (List F)} {slots : List (Slot F)} {rowCount : ℕ}
    {tablePoint : List F} {terms : List (List (SumOfProductsSumcheck.SumcheckFactor F))}
    (hterms : addressBindingTerms columns slots rowCount tablePoint = .ok terms) :
    tablePoint.length = 20 ∧
      terms = (slots.map (fun slot => slot.term tablePoint)).map (factorTerm rowCount) := by
  obtain ⟨hpoint, hmap⟩ := Except.check_eq_ok.mp hterms
  have hsteps := Except.mapM_eq_ok.mp hmap
  refine ⟨not_not.mp (rejectIf_eq_ok.mp hpoint), ?_⟩
  rw [List.map_map]
  clear hterms hmap
  induction hsteps with
  | nil => rfl
  | cons hfirst _ ih =>
    obtain ⟨factors, hmap, hfirst⟩ := Except.of_bind_eq_ok hfirst
    rw [List.map_cons, ← ih, ← Except.ok.inj hfirst, columnFactors_eq_ok hmap]
    rfl

omit [DecidableEq F] in
/-- The values of a committed image are those of its one column. -/
theorem columnValues_of_image {layout : Pcs.PcsLayout} {image : List ℕ} {point values : List F}
    (hvalues : evaluateColumns [Pcs.paddedColumn layout [image] 0] point = .ok values) :
    Pcs.ColumnValues layout [image] point values := by
  rw [evaluateColumns_eq_ok hvalues]
  refine ⟨rfl, fun column hcolumn => ?_⟩
  obtain rfl := Nat.lt_one_iff.mp hcolumn
  rfl

/-- What is opened of committed columns is accepted. -/
theorem selected_verifies (hcomplete : ∀ layout, akita.Complete layout)
    {artifacts : ScheduleArtifacts} {columns : List (List ℕ)} {witness : Pcs.CommittedColumns akita}
    (hcommit : Pcs.commitColumns akita
      (Pcs.layoutFor artifacts.pair artifacts.single columns.length) columns = .ok witness)
    {point values : List F} {selected : List ℕ} {descriptor : List Byte}
    {opening : Pcs.OpeningProof akita}
    (hselected : Pcs.proveSelectedOpening witness point selected descriptor =
      .ok (values, opening)) :
    Pcs.verifySelectedOpening artifacts.pair artifacts.single witness.commitments point values
      selected descriptor opening = .ok () := by
  obtain ⟨groups, hwitness⟩ := Pcs.CommittedWitness.of_commit (hcomplete _) hcommit
  rw [Pcs.verifySelectedOpening, hwitness.logicalColumnCount]
  exact (Pcs.proveSelectedOpening_verifies (hcomplete _) hcommit hselected).1

/-- What the prover builds from a committed image and committed columns is accepted. -/
theorem proveOnWorker_verifies (hcomplete : ∀ layout, akita.Complete layout)
    (hnodes : DistinctNodes F 23) {artifacts : ScheduleArtifacts}
    {serialize : akita.Group → Except akita.Error (List Byte)} {transcript : LookupTranscript F}
    {layout : RomLookupColumns} {image : List Byte} {rom : CommittedRom akita}
    {columns : List (List ℕ)} {witness : Pcs.CommittedColumns akita} {proof : RomLookupProof akita}
    (hrom : commitRom artifacts image = .ok rom)
    (hcommit : Pcs.commitColumns akita
      (Pcs.layoutFor artifacts.pair artifacts.single columns.length) columns = .ok witness)
    (hprove : proveOnWorker artifacts serialize transcript layout rom witness = .ok proof) :
    verifyOnWorker artifacts serialize transcript .current layout rom.commitment
      witness.commitments proof = .ok () := by
  -- the image is committed as one column
  obtain ⟨-, hrom⟩ := Except.check_eq_ok.mp hrom
  obtain ⟨inner, hinner, hrom⟩ := Except.of_bind_eq_ok hrom
  obtain rfl := Except.ok.inj hrom
  have hinner := Except.mapError_eq_ok.mp hinner
  obtain ⟨entries, hwitness⟩ := Pcs.CommittedWitness.of_commit (hcomplete _) hinner
  unfold proveOnWorker at hprove
  obtain ⟨hlayout, hprove⟩ := Except.check_eq_ok.mp hprove
  obtain ⟨hvalidate, hprove⟩ := Except.check_eq_ok.mp hprove
  obtain ⟨descriptor, hdescriptor, hprove⟩ := Except.of_bind_eq_ok hprove
  obtain ⟨⟨coefficients, state₁⟩, hcoefficients, hprove⟩ := Except.of_bind_eq_ok hprove
  obtain ⟨traceColumns, htrace, hprove⟩ := Except.of_bind_eq_ok hprove
  obtain ⟨romColumns, hromColumns, hprove⟩ := Except.of_bind_eq_ok hprove
  obtain ⟨mixedTrace, -, hprove⟩ := Except.of_bind_eq_ok hprove
  obtain ⟨claimedOutput, -, hprove⟩ := Except.of_bind_eq_ok hprove
  obtain ⟨readAddress, hreads, hprove⟩ := Except.of_bind_eq_ok hprove
  obtain ⟨table, htable, hprove⟩ := Except.of_bind_eq_ok hprove
  obtain ⟨⟨⟨tableSumcheck, actualClaim, tablePoint⟩, state₂⟩, hsparse, hprove⟩ :=
    Except.of_bind_eq_ok hprove
  obtain ⟨hclaim, hprove⟩ := Except.check_eq_ok.mp hprove
  obtain ⟨tableValues, htableValues, hprove⟩ := Except.of_bind_eq_ok hprove
  obtain ⟨hvalue, hprove⟩ := Except.check_eq_ok.mp hprove
  obtain ⟨terms, hterms, hprove⟩ := Except.of_bind_eq_ok hprove
  obtain ⟨⟨⟨addressSumcheck, addressClaim, addressPoint⟩, state₃⟩, hshared, hprove⟩ :=
    Except.of_bind_eq_ok hprove
  obtain ⟨haddressClaim, hprove⟩ := Except.check_eq_ok.mp hprove
  obtain ⟨⟨cycleValues, cycleOpening⟩, hcycle, hprove⟩ := Except.of_bind_eq_ok hprove
  obtain ⟨hmixed, hprove⟩ := Except.check_eq_ok.mp hprove
  obtain ⟨⟨addressValues, addressOpening⟩, haddress, hprove⟩ := Except.of_bind_eq_ok hprove
  obtain ⟨hterminal, hprove⟩ := Except.check_eq_ok.mp hprove
  obtain ⟨tableOpening, hopening, hprove⟩ := Except.of_bind_eq_ok hprove
  obtain rfl := Except.ok.inj hprove
  have hrows : romColumns = [Pcs.paddedColumn (romLayout artifacts) [paddedImage image] 0] :=
    hwitness.fieldColumns_eq (Except.mapError_eq_ok.mp hromColumns)
  subst hrows
  obtain rfl := Option.some.inj (someOr_eq_ok.mp htable)
  -- the two sumchecks
  obtain ⟨output, hsparseOk, hproved⟩ := @ProductSumcheck.proveSparseLeft_proved F _ _
    transcript.toAkitaTranscript readAddress _ 20 (readAddressEntries_lt hreads)
    (Pcs.length_paddedColumn hwitness.lengths 0) _
  obtain rfl := Except.ok.inj (hsparseOk.symm.trans (Except.mapError_eq_ok.mp hsparse))
  obtain rfl := not_not.mp (rejectIf_eq_ok.mp hclaim)
  obtain ⟨hpoint, rfl⟩ := addressBindingTerms_eq_ok hterms
  rw [Uniform.length_equalityEvaluations] at hshared
  obtain ⟨output, hsharedOk, hbound⟩ := @proveSharedFirst_bound F _ _
    transcript.toAkitaTranscript (sampleCyclePoint transcript state₁).1 traceColumns
    ((layout.slots coefficients).map (fun slot => slot.term tablePoint)) 21
    (List.ne_nil_of_length_pos (by rw [List.length_map, layout.length_slots]; decide))
    (List.forall_mem_map.mpr fun slot _ => slot.length_term hpoint) (by decide) state₂
  obtain rfl := Except.ok.inj (hsharedOk.symm.trans (Except.mapError_eq_ok.mp hshared))
  obtain rfl := not_not.mp (rejectIf_eq_ok.mp haddressClaim)
  have hthree : DistinctNodes F 3 :=
    hnodes.mono (coe_subset.mpr (range_mono (show 3 ≤ 23 by decide)))
  have htableVerify := hproved.verifies hthree
  have haddressVerify := hbound.verifies hnodes
  have hlength : (sampleCyclePoint transcript state₁).1.length = 14 := length_samplePoint _ _ _ _
  rw [List.length_map, layout.length_slots, hlength] at haddressVerify
  have hopens := Pcs.proveOpening_independent_verifies rfl (hcomplete _) hinner
    (columnValues_of_image htableValues) (Except.mapError_eq_ok.mp hopening)
  have hcycle := selected_verifies hcomplete hcommit (Except.mapError_eq_ok.mp hcycle)
  have haddress := selected_verifies hcomplete hcommit (Except.mapError_eq_ok.mp haddress)
  rw [lookupTranscript_sides] at hcoefficients
  exact Except.check_eq_ok.mpr ⟨hlayout, Except.check_eq_ok.mpr ⟨hvalidate, Except.bind_eq_ok.mpr
    ⟨descriptor, hdescriptor, Except.bind_eq_ok.mpr ⟨_, hcoefficients, Except.bind_eq_ok.mpr
      ⟨_, Except.mapError_eq_ok.mpr htableVerify, Except.check_eq_ok.mpr
        ⟨Except.mapError_eq_ok.mpr hopens, Except.check_eq_ok.mpr ⟨hvalue, Except.bind_eq_ok.mpr
          ⟨_, Except.mapError_eq_ok.mpr haddressVerify, Except.check_eq_ok.mpr
            ⟨Except.mapError_eq_ok.mpr hcycle, Except.check_eq_ok.mpr ⟨hmixed,
              Except.check_eq_ok.mpr ⟨Except.mapError_eq_ok.mpr haddress, hterminal⟩⟩⟩⟩⟩⟩⟩⟩⟩⟩⟩

end RomLookup

end Shout

end Zksm83
