import Zksm83.Shout.Rom
import Zksm83.Sumcheck.Guarantees

/-!
# Accepted ROM lookups

What the verifier of the ROM lookup learns: the opened values are those of the committed columns, so
the last factors and the claim belong to the readers of the five slots. Read `rom_lookup` first. The
blank cartridge shows that proofs are accepted.
-/

namespace Zksm83

open Finset Sumcheck TableLookup Challenges
open Multilinear (extension weight equality)

namespace Shout

namespace RomLookup

variable {F : Type} [Field F] [DecidableEq F] {akita : Pcs.Akita F}

/-! ## Slots -/

theorem slotCoefficients_eq_ok {transcript : LookupTranscript F} {state state' : transcript.State}
    {coefficients : Vector F 5}
    (hcoefficients : slotCoefficients transcript state = .ok (coefficients, state')) :
    coefficients = Vector.ofFn (fun slot : Fin 5 =>
        (transcript.challengeScalar (asciiBytes "rom-slot-mix") state).1 ^ slot.val) ∧
      state' = (transcript.challengeScalar (asciiBytes "rom-slot-mix") state).2 := by
  obtain ⟨⟨challenge, next⟩, hchallenge, hrest⟩ := Except.of_bind_eq_ok hcoefficients
  obtain ⟨-, hchallenge⟩ := Except.check_eq_ok.mp hchallenge
  obtain ⟨rfl, rfl⟩ := Prod.mk.inj (Except.ok.inj hchallenge)
  obtain ⟨rfl, rfl⟩ := Prod.mk.inj (Except.ok.inj hrest)
  exact ⟨rfl, rfl⟩

section Slots

variable {layout : RomLookupColumns} {coefficients : Vector F 5}

omit [Field F] [DecidableEq F] in
theorem value_of_mem_slots {slot : Slot F} (hslot : slot ∈ layout.slots coefficients) :
    slot.value ∈ layout.values.toList := by
  obtain ⟨index, -, rfl⟩ := List.mem_map.mp hslot
  exact Vector.mem_toList_iff.mpr (Vector.getElem_mem index.isLt)

omit [DecidableEq F] in
theorem column_of_mem_term {slot : Slot F} (hslot : slot ∈ layout.slots coefficients)
    {tablePoint : List F} {affine : AffineColumn F} (haffine : affine ∈ slot.term tablePoint) :
    affine.column ∈ layout.addressOpeningColumns := by
  obtain ⟨index, -, rfl⟩ := List.mem_map.mp hslot
  obtain rfl | hbit := List.mem_cons.mp haffine
  · exact List.mem_append_left _ (Vector.mem_toList_iff.mpr (Vector.getElem_mem index.isLt))
  · exact List.mem_append_right _ (List.mem_flatMap.mpr
      ⟨_, Vector.mem_toList_iff.mpr (Vector.getElem_mem index.isLt),
        column_of_mem_bitColumns hbit⟩)

end Slots

/-- The last factors of a slot are its columns at the opened values. -/
theorem verifySlotTerminal_eq_ok {factors : List F} {slot : Slot F} {expectedWeight : F}
    {tablePoint traceValues : List F} (hfactors : factors.length = 22)
    (hpoint : tablePoint.length = 20)
    (hverify : verifySlotTerminal factors slot expectedWeight tablePoint traceValues = .ok ()) :
    factors = expectedWeight :: (slot.term tablePoint).map (fun affine =>
      affine.value (fun column => traceValues.getD column 0)) := by
  obtain ⟨hweight, hverify⟩ := Except.check_eq_ok.mp hverify
  obtain ⟨selector, hselector, hverify⟩ := Except.of_bind_eq_ok hverify
  obtain ⟨hscaled, hbits⟩ := Except.check_eq_ok.mp hverify
  have hweight := not_not.mp (rejectIf_eq_ok.mp hweight)
  have hscaled := not_not.mp (rejectIf_eq_ok.mp hscaled)
  have hselector : traceValues.getD slot.selector 0 = selector := by
    rw [List.getD_eq_getElem?_getD, someOr_eq_ok.mp hselector, Option.getD_some]
  have hterm : (slot.term tablePoint).map (fun affine =>
      affine.value (fun column => traceValues.getD column 0)) =
      slot.coefficient * selector :: (slot.addressBits.toList.zip tablePoint).map (fun entry =>
        bitEquality (traceValues.getD entry.1 0) entry.2) := by
    rw [Slot.term, List.map_cons, AffineColumn.value, hselector, add_zero, bitColumns, List.map_map]
    refine congrArg _ (List.map_congr_left fun entry _ => ?_)
    rw [Function.comp_apply, bitColumn_value, one_mul]
  rw [hterm]
  have hzip : (slot.addressBits.toList.zip tablePoint).length = 20 := by
    rw [List.length_zip, Vector.length_toList, hpoint, Nat.min_self]
  refine List.ext_getElem? fun index => ?_
  obtain _ | _ | offset := index
  · exact hweight
  · exact hscaled
  · rw [List.getElem?_cons_succ, List.getElem?_cons_succ, List.getElem?_map]
    by_cases hoffset : offset < (slot.addressBits.toList.zip tablePoint).length
    · have hbit := Except.forM_eq_ok.mp hbits
        ((slot.addressBits.toList.zip tablePoint)[offset], offset)
        (List.mem_zipIdx_iff_getElem?.mpr (List.getElem?_eq_getElem hoffset))
      obtain ⟨bit, hvalue, hfactor⟩ := Except.of_bind_eq_ok hbit
      have hfactor := not_not.mp (rejectIf_eq_ok.mp hfactor)
      rw [hfactor, List.getElem?_eq_getElem hoffset, Option.map_some,
        List.getD_eq_getElem?_getD, someOr_eq_ok.mp hvalue, Option.getD_some]
    · rw [List.getElem?_eq_none (by omega), List.getElem?_eq_none (by omega), Option.map_none]

theorem verifyAddressTerminal_eq_ok {finalTerms : List (List F)} {slots : List (Slot F)}
    {cyclePoint tablePoint addressPoint traceValues : List F}
    (hfactors : ∀ term ∈ finalTerms, term.length = 22) (hslots : slots.length = 5)
    (hlength : cyclePoint.length = addressPoint.length)
    (hverify : verifyAddressTerminal finalTerms slots cyclePoint tablePoint addressPoint
      traceValues = .ok ()) :
    finalTerms = finalValues (equality cyclePoint addressPoint)
      (slots.map (fun slot => slot.term tablePoint)) (fun column => traceValues.getD column 0) := by
  obtain ⟨hshape, hverify⟩ := Except.check_eq_ok.mp hverify
  obtain ⟨weight, hweight, hverify⟩ := Except.of_bind_eq_ok hverify
  have hshape := rejectIf_eq_ok.mp hshape
  push Not at hshape
  have hweight := Except.mapError_eq_ok.mp hweight
  rw [Uniform.equalityEvaluation_eq hlength, Multilinear.extension_weight hlength] at hweight
  obtain rfl := Except.ok.inj hweight
  rw [finalValues, List.map_map]
  refine List.ext_getElem (by rw [List.length_map, hshape.2, hslots]) fun index hterm hslot => ?_
  rw [List.length_map] at hslot
  rw [List.getElem_map]
  have hentry : (finalTerms[index], slots[index]) ∈ finalTerms.zip slots := by
    rw [← List.getElem_zip (h := by rw [List.length_zip]; omega)]
    exact List.getElem_mem _
  exact verifySlotTerminal_eq_ok (hfactors _ (List.getElem_mem hterm)) hshape.1
    (Except.forM_eq_ok.mp hverify _ hentry)

theorem verifySlotTerminal_of_eq {slot : Slot F} {expectedWeight : F}
    {tablePoint traceValues : List F} (hselector : slot.selector < traceValues.length)
    (hbits : ∀ column ∈ slot.addressBits.toList, column < traceValues.length) :
    verifySlotTerminal (expectedWeight :: (slot.term tablePoint).map (fun affine =>
      affine.value (fun column => traceValues.getD column 0))) slot expectedWeight tablePoint
      traceValues = .ok () := by
  have hvalue {column : ℕ} (hcolumn : column < traceValues.length) :
      traceValue traceValues column = .ok (traceValues.getD column 0) := by
    rw [List.getD_eq_getElem _ _ hcolumn]
    exact someOr_eq_ok.mpr (List.getElem?_eq_getElem hcolumn)
  refine Except.check_eq_ok.mpr ⟨rejectIf_eq_ok.mpr (not_not_intro rfl), Except.bind_eq_ok.mpr
    ⟨_, hvalue hselector, Except.check_eq_ok.mpr ⟨rejectIf_eq_ok.mpr (not_not_intro ?_),
      Except.forM_eq_ok.mpr ?_⟩⟩⟩
  · rw [Slot.term, List.map_cons, AffineColumn.value, add_zero]
    rfl
  · rintro ⟨⟨column, point⟩, offset⟩ hentry
    have hget : (slot.addressBits.toList.zip tablePoint)[offset]? = some (column, point) :=
      List.mem_zipIdx_iff_getElem?.mp hentry
    refine Except.bind_eq_ok.mpr
      ⟨_, hvalue (hbits _ (List.of_mem_zip (List.mem_of_getElem? hget)).1),
        rejectIf_eq_ok.mpr (not_not_intro ?_)⟩
    show (_ :: (slot.term tablePoint).map _)[offset + 2]? = _
    rw [List.getElem?_cons_succ, Slot.term, List.map_cons, List.getElem?_cons_succ, bitColumns,
      List.map_map, List.getElem?_map, hget, Option.map_some, Function.comp_apply,
      bitColumn_value, one_mul]

/-- The columns at the opened values are accepted as the last factors. -/
theorem verifyAddressTerminal_of_eq {slots : List (Slot F)}
    {cyclePoint tablePoint addressPoint traceValues : List F} (hslots : slots.length = 5)
    (hpoint : tablePoint.length = 20) (hlength : cyclePoint.length = addressPoint.length)
    (hcolumns : ∀ slot ∈ slots, slot.selector < traceValues.length ∧
      ∀ column ∈ slot.addressBits.toList, column < traceValues.length) :
    verifyAddressTerminal (finalValues (equality cyclePoint addressPoint)
      (slots.map (fun slot => slot.term tablePoint)) (fun column => traceValues.getD column 0))
      slots cyclePoint tablePoint addressPoint traceValues = .ok () := by
  refine Except.check_eq_ok.mpr ⟨rejectIf_eq_ok.mpr ?_, Except.bind_eq_ok.mpr
    ⟨equality cyclePoint addressPoint, Except.mapError_eq_ok.mpr ?_, Except.forM_eq_ok.mpr ?_⟩⟩
  · rw [finalValues, List.length_map, List.length_map]
    exact fun hor => hor.elim (fun hne => hne hpoint) (fun hne => hne hslots)
  · rw [Uniform.equalityEvaluation_eq hlength, Multilinear.extension_weight hlength]
  · intro entry hentry
    have hzip (f : Slot F → List F) :
        (slots.map f).zip slots = slots.map (fun slot => (f slot, slot)) := by
      rw [← List.zip_map', List.map_id']
    rw [finalValues, List.map_map, hzip] at hentry
    obtain ⟨slot, hslot, rfl⟩ := List.mem_map.mp hentry
    exact verifySlotTerminal_of_eq (hcolumns slot hslot).1 (hcolumns slot hslot).2

/-! ## Reads of the committed columns -/

def RomLookupColumns.readers (layout : RomLookupColumns) (mix : F) (table : ℕ → ℕ → F) :
    List (Reader F) :=
  (layout.slots (Vector.ofFn (fun slot : Fin 5 => mix ^ slot.val))).map
    (fun slot => slot.reader table)

omit [DecidableEq F] in
theorem RomLookupColumns.binds (layout : RomLookupColumns) (mix : F) (table : ℕ → ℕ → F)
    (tablePoint : List F) : List.Forall₂ (Binds table tablePoint) (layout.readers mix table)
      ((layout.slots (Vector.ofFn (fun slot : Fin 5 => mix ^ slot.val))).map
        (fun slot => slot.term tablePoint)) := by
  rw [RomLookupColumns.readers, List.forall₂_map_left_iff, List.forall₂_map_right_iff]
  exact List.forall₂_same.mpr fun slot _ => slot.binds table tablePoint

def RomLookupColumns.address (layout : RomLookupColumns) (table : ℕ → ℕ → F) (slot : Fin 5)
    (row : ℕ) : List F :=
  (layout.addressBits.get slot).toList.map (fun column => table column row)

/-- The value of a slot is the selected byte of the image, wherever the address is one of bits. -/
def ReadsRom (layout : RomLookupColumns) (table : ℕ → ℕ → F) (image : List F) : Prop :=
  ∀ slot : Fin 5, ∀ row < 2 ^ 14, Bits (layout.address table slot row) →
    table (layout.values.get slot) row =
      table (layout.selectors.get slot) row * tableOf image (number (layout.address table slot row))

/-- The challenges of a proof: the one that mixes the slots, the point of the rows, and the points
of the two sumchecks. -/
structure Draws (transcript : LookupTranscript F) (state : transcript.State)
    (proof : RomLookupProof akita) (mix : F) (cyclePoint tablePoint addressPoint : List F) :
    Prop where
  mix_eq : mix = (transcript.challengeScalar (asciiBytes "rom-slot-mix") state).1
  cycle_eq : cyclePoint = (sampleCyclePoint transcript
    (transcript.challengeScalar (asciiBytes "rom-slot-mix") state).2).1
  points : ∃ state' state'', ProductSumcheck.verify transcript.toAkitaTranscript
      proof.tableSumcheck proof.claimedOutput 20 (appendClaim transcript proof.claimedOutput
        (sampleCyclePoint transcript
          (transcript.challengeScalar (asciiBytes "rom-slot-mix") state).2).2) =
        .ok (tablePoint, state') ∧
    SumOfProductsSumcheck.verify transcript.toAkitaTranscript proof.addressSumcheck
      proof.tableSumcheck.finalLeft 14 5 22 state' = .ok (addressPoint, state'')

/-- A challenge was a root of a polynomial that was fixed before it and is not zero. -/
inductive Unlucky (layout : RomLookupColumns) (table : ℕ → ℕ → F) (image : List F)
    (proof : RomLookupProof akita) (mix : F) (cyclePoint tablePoint addressPoint : List F) : Prop
  | mix (row : ℕ) (hrow : row < 2 ^ 14) (hhits : Hits 4 (powerPolynomial
      ((layout.readers mix table).map (fun reader => reader.error (tableOf image) row))) mix)
  | cycle (hhits : PointHits (mixedErrors (tableOf image) (layout.readers mix table)) cyclePoint)
  | table (hescapes : Escapes ProductSumcheck.summand
      (ProductSumcheck.rowsOf (tabulate 20 (reads cyclePoint (layout.readers mix table)), image))
      (roundsOf (proof.tableSumcheck.rounds.map Vector.toList) tablePoint))
  | address (hescapes : Escapes (SumOfProductsSumcheck.summand 5 21)
      (SumOfProductsSumcheck.rowsOf (weight cyclePoint) (affineFunctions table
        ((layout.slots (Vector.ofFn (fun slot : Fin 5 => mix ^ slot.val))).map
          (fun slot => slot.term tablePoint))))
      (roundsOf proof.addressSumcheck.rounds addressPoint))

section Errors

variable {layout : RomLookupColumns} {mix : F} {table : ℕ → ℕ → F} {image : List F}

omit [DecidableEq F] in
theorem length_errors (row : ℕ) : ((layout.readers mix table).map
    (fun reader => reader.error (tableOf image) row)).length = 5 := by
  rw [List.length_map, RomLookupColumns.readers, List.length_map, layout.length_slots]

omit [DecidableEq F] in
/-- The slots are mixed with the powers of the challenge. -/
theorem mixedErrors_readers (row : ℕ) :
    mixedErrors (tableOf image) (layout.readers mix table) row =
      ∑ index ∈ range ((layout.readers mix table).map
          (fun reader => reader.error (tableOf image) row)).length,
        mix ^ index * ((layout.readers mix table).map
          (fun reader => reader.error (tableOf image) row)).getD index 0 := by
  rw [length_errors, ← Fin.sum_univ_eq_sum_range, Fin.sum_univ_def, mixedErrors,
    RomLookupColumns.readers, RomLookupColumns.slots, List.map_map, List.map_map, List.map_map]
  refine congrArg List.sum (List.map_congr_left fun slot _ => ?_)
  rw [List.getD_eq_getElem _ _ (by
    rw [List.length_map, List.length_map, List.length_finRange]; exact slot.isLt),
    List.getElem_map, List.getElem_map, List.getElem_finRange]
  show (Vector.ofFn fun slot : Fin 5 => mix ^ slot.val)[slot] * _ = _
  rw [Fin.getElem_fin, Vector.getElem_ofFn]
  rfl

/-- Errors that vanish are right reads. -/
theorem readsRom_of_errors (herrors : ∀ row < 2 ^ 14, ∀ reader ∈ layout.readers mix table,
    reader.error (tableOf image) row = 0) : ReadsRom layout table image := by
  intro slot row hrow hbits
  have hslot := herrors row hrow _ (List.mem_map_of_mem (List.mem_map_of_mem
    (List.mem_finRange slot)))
  have haddress : (Slot.reader (F := F) ⟨(Vector.ofFn fun slot : Fin 5 => mix ^ slot.val)[slot],
      layout.selectors[slot], layout.addressBits[slot], layout.values[slot]⟩ table).address row =
      layout.address table slot row := List.map_map
  rw [Reader.error, haddress, extension_of_bits hbits, sub_eq_zero] at hslot
  exact hslot

omit [DecidableEq F] in
/-- A row whose mixed errors vanish has no errors, or the challenge of the mix was unlucky. -/
theorem errors_or_hits {row : ℕ}
    (hzero : mixedErrors (tableOf image) (layout.readers mix table) row = 0) :
    (∀ reader ∈ layout.readers mix table, reader.error (tableOf image) row = 0) ∨
      Hits 4 (powerPolynomial
        ((layout.readers mix table).map (fun reader => reader.error (tableOf image) row))) mix := by
  rw [mixedErrors_readers] at hzero
  obtain hvalues | hhits := zero_or_hits hzero
  · exact Or.inl fun reader hreader => hvalues _ (List.mem_map_of_mem hreader)
  · rw [length_errors] at hhits
    exact Or.inr hhits

theorem readsRom_or_hits
    (hzero : ∀ row < 2 ^ 14, mixedErrors (tableOf image) (layout.readers mix table) row = 0) :
    ReadsRom layout table image ∨ ∃ row < 2 ^ 14, Hits 4 (powerPolynomial
      ((layout.readers mix table).map (fun reader => reader.error (tableOf image) row))) mix := by
  by_cases herrors : ∀ row < 2 ^ 14, ∀ reader ∈ layout.readers mix table,
      reader.error (tableOf image) row = 0
  · exact Or.inl (readsRom_of_errors herrors)
  · push Not at herrors
    obtain ⟨row, hrow, reader, hreader, hne⟩ := herrors
    obtain hnone | hhits := errors_or_hits (hzero row hrow)
    · exact absurd (hnone reader hreader) hne
    · exact Or.inr ⟨row, hrow, hhits⟩

end Errors

/-- Where the checks accept values and these are those of the columns, the reads are right, or a
challenge was unlucky. -/
theorem readsRom_or_unlucky {transcript : LookupTranscript F} {layout : RomLookupColumns} {mix : F}
    {table : ℕ → ℕ → F} {image : List F} {proof : RomLookupProof akita}
    {cyclePoint tablePoint addressPoint : List F} {state₁ state₂ state₃ : transcript.State}
    (hcycle : cyclePoint.length = 14)
    (htable : ProductSumcheck.verify transcript.toAkitaTranscript proof.tableSumcheck
      proof.claimedOutput 20 state₁ = .ok (tablePoint, state₂))
    (hright : proof.tableSumcheck.finalRight = extension tablePoint (tableOf image))
    (haddress : SumOfProductsSumcheck.verify transcript.toAkitaTranscript proof.addressSumcheck
      proof.tableSumcheck.finalLeft 14 5 22 state₂ = .ok (addressPoint, state₃))
    (hmixed : requireMixedValue proof.traceCycleValues
      (layout.slots (Vector.ofFn (fun slot : Fin 5 => mix ^ slot.val))) proof.claimedOutput =
        .ok ())
    (hcycleValues : ∀ column ∈ layout.values.toList,
      proof.traceCycleValues.getD column 0 = extension cyclePoint (table column))
    (hterminal : verifyAddressTerminal proof.addressSumcheck.finalTerms
      (layout.slots (Vector.ofFn (fun slot : Fin 5 => mix ^ slot.val))) cyclePoint tablePoint
      addressPoint proof.traceAddressValues = .ok ())
    (haddressValues : ∀ column ∈ layout.addressOpeningColumns,
      proof.traceAddressValues.getD column 0 = extension addressPoint (table column)) :
    ReadsRom layout table image ∨
      Unlucky layout table image proof mix cyclePoint tablePoint addressPoint := by
  obtain ⟨-, hpoint, -, hfactors, -, -⟩ := SumOfProductsSumcheck.verify_accepts haddress
  have hlength : cyclePoint.length = addressPoint.length := hcycle.trans hpoint.symm
  -- the values of the slots at the point of the rows give the claim
  have hclaim : proof.claimedOutput = extension cyclePoint
      (mixedValues (layout.readers mix table)) := by
    obtain ⟨actual, hactual, hequal⟩ := Except.of_bind_eq_ok hmixed
    rw [← not_not.mp (rejectIf_eq_ok.mp hequal), mixValues_eq_ok hactual, extension_mixedValues,
      RomLookupColumns.readers, List.map_map, List.map_map]
    refine congrArg List.sum (List.map_congr_left fun slot hslot => ?_)
    exact congrArg _ (hcycleValues _ (value_of_mem_slots hslot))
  -- and those at the other point give the last factors
  have hfinal : proof.addressSumcheck.finalTerms = (affineFunctions table
      ((layout.slots (Vector.ofFn (fun slot : Fin 5 => mix ^ slot.val))).map
        (fun slot => slot.term tablePoint))).map (fun list =>
          extension addressPoint (weight cyclePoint) :: list.map (extension addressPoint)) := by
    rw [verifyAddressTerminal_eq_ok hfactors (layout.length_slots _) hlength hterminal,
      ← finalValues_extension hlength]
    refine finalValues_congr (List.forall_mem_map.mpr fun slot hslot affine haffine => ?_)
    exact haddressValues _ (column_of_mem_term hslot haffine)
  obtain hzero | hescapes | hescapes := @reduction_sound F _ _ transcript.toAkitaTranscript
    (layout.readers mix table) image _ _ _ 20 5 21 _ _ _ _ _ _ _ _ htable hright
    (hcycle.symm ▸ haddress) hfinal
    (fun row _ => termValue_binds (layout.binds mix table tablePoint) row)
    (List.forall_mem_map.mpr fun slot _ =>
      (List.length_map _).trans slot.addressBits.length_toList) hclaim
  · obtain hmixedErrors | hhits := zero_or_pointHits _ hzero
    · rw [hcycle] at hmixedErrors
      obtain hreads | ⟨row, hrow, hhits⟩ := readsRom_or_hits hmixedErrors
      · exact Or.inl hreads
      · exact Or.inr (.mix row hrow hhits)
    · exact Or.inr (.cycle hhits)
  · exact Or.inr (.table hescapes)
  · exact Or.inr (.address hescapes)

/-- The reads of an accepted proof are right, or a challenge was unlucky. -/
theorem rom_lookup {committed : akita.Group → List (List F)}
    (hsound : ∀ layout, akita.Sound layout committed) {artifacts : ScheduleArtifacts}
    {serialize : akita.Group → Except akita.Error (List Byte)} {transcript : LookupTranscript F}
    {protocol : NativeProtocolVersion} {layout : RomLookupColumns} {rom : RomCommitment akita}
    {trace : Pcs.ColumnCommitments akita.Group} {proof : RomLookupProof akita}
    (haccept : verifyOnWorker artifacts serialize transcript protocol layout rom trace proof =
      .ok ()) :
    ∃ image descriptor mix cyclePoint tablePoint addressPoint,
      Pcs.committedColumn committed (romLayout artifacts) rom.inner 0 = some image ∧
      instanceDescriptor artifacts serialize protocol layout rom trace = .ok descriptor ∧
      Draws transcript (lookupTranscript transcript protocol descriptor .verifier) proof mix
        cyclePoint tablePoint addressPoint ∧
      (ReadsRom layout (committedTable committed
          (Pcs.layoutFor artifacts.pair artifacts.single trace.logicalColumnCount) trace) image ∨
        Unlucky layout (committedTable committed
          (Pcs.layoutFor artifacts.pair artifacts.single trace.logicalColumnCount) trace) image
          proof mix cyclePoint tablePoint addressPoint) := by
  unfold verifyOnWorker at haccept
  obtain ⟨-, haccept⟩ := Except.check_eq_ok.mp haccept
  obtain ⟨-, haccept⟩ := Except.check_eq_ok.mp haccept
  obtain ⟨descriptor, hdescriptor, haccept⟩ := Except.of_bind_eq_ok haccept
  obtain ⟨⟨coefficients, state₁⟩, hcoefficients, haccept⟩ := Except.of_bind_eq_ok haccept
  obtain ⟨rfl, rfl⟩ := slotCoefficients_eq_ok hcoefficients
  obtain ⟨⟨tablePoint, state₂⟩, htable, haccept⟩ := Except.of_bind_eq_ok haccept
  obtain ⟨hopening, haccept⟩ := Except.check_eq_ok.mp haccept
  obtain ⟨hvalue, haccept⟩ := Except.check_eq_ok.mp haccept
  obtain ⟨⟨addressPoint, state₃⟩, haddress, haccept⟩ := Except.of_bind_eq_ok haccept
  obtain ⟨hcycleOpening, haccept⟩ := Except.check_eq_ok.mp haccept
  obtain ⟨hmixed, haccept⟩ := Except.check_eq_ok.mp haccept
  obtain ⟨haddressOpening, hterminal⟩ := Except.check_eq_ok.mp haccept
  have htable := Except.mapError_eq_ok.mp htable
  have hopening := Except.mapError_eq_ok.mp hopening
  have haddress := Except.mapError_eq_ok.mp haddress
  have hcycleOpening := Except.mapError_eq_ok.mp hcycleOpening
  have haddressOpening := Except.mapError_eq_ok.mp haddressOpening
  obtain ⟨-, hcount, hcolumns⟩ := Pcs.verifyOpening_whole (hsound _) hopening
  have hvalue := rejectIf_eq_ok.mp hvalue
  push Not at hvalue
  obtain ⟨image, himage, hentry⟩ := hcolumns 0 (by omega)
  rw [← List.head?_eq_getElem?, hvalue.2] at hentry
  refine ⟨image, descriptor, _, _, tablePoint, addressPoint, himage, hdescriptor,
    ⟨rfl, rfl, _, _, htable, haddress⟩, ?_⟩
  exact readsRom_or_unlucky (length_samplePoint _ _ _ _) htable (Option.some.inj hentry) haddress
    hmixed (fun column hcolumn => verifySelectedOpening_committed (hsound _) hcycleOpening hcolumn)
    hterminal
    (fun column hcolumn => verifySelectedOpening_committed (hsound _) haddressOpening hcolumn)

/-! ## A blank cartridge -/

def blankArtifacts : ScheduleArtifacts := ⟨[20, 1, 0], [9, 128, 0], [14, 128, 1], [14, 128, 0]⟩

def blankLayout : RomLookupColumns where
  selectors := Vector.ofFn (fun slot => slot.val)
  addressBits := Vector.ofFn (fun slot => Vector.ofFn (fun bit => 5 + 20 * slot.val + bit.val))
  values := Vector.ofFn (fun slot => 105 + slot.val)

def blankRom : RomCommitment (@Pcs.transparent ℚ _ _) :=
  ⟨1048576, ⟨20, 1, 1, [(⟨20, 1⟩, [[]])]⟩⟩

def blankTrace : Pcs.ColumnCommitments (@Pcs.transparent ℚ _ _).Group :=
  ⟨14, 110, 128, [(⟨14, 128⟩, List.replicate 128 [])]⟩

/-- Every challenge is one. -/
def constantTranscript : LookupTranscript ℚ where
  State := Unit
  appendBytes _ _ _ := ()
  appendField _ _ _ := ()
  challengeScalar _ _ := (1, ())
  unbound _ _ _ := ()
  sides _ _ := rfl

theorem blank_descriptor : ∃ descriptor, instanceDescriptor blankArtifacts
    (fun _ => .ok []) .v2 blankLayout blankRom blankTrace = .ok descriptor := by
  exact ⟨_, rfl⟩

theorem blank_validate : blankLayout.validate 110 = .ok () := by
  decide

theorem blank_extension (point : List ℚ) : extension point (tableOf ([] : List ℚ)) = 0 :=
  Multilinear.extension_const point 0

/-- A group of columns without rows is accepted with values that are all zero. -/
theorem blank_group {layout : Pcs.PcsLayout} {width : ℕ} {shape : Pcs.PolynomialGroupLayout}
    {scheme : List Byte} {point logicalValues : List ℚ} {descriptor : List Byte}
    (hmode : layout.openingMode = .independent) (hshort : point.length < 2 ^ 64)
    (hvalues : Pcs.paddedGroupValues layout logicalValues 0 =
      (.ok (List.replicate width 0) : Except (Pcs.PcsError Unit) (List ℚ))) :
    @Pcs.verifyGroupBatch ℚ _ _ Pcs.transparent layout scheme ()
      [(shape, List.replicate width [])] point logicalValues descriptor 0
      ⟨(), List.replicate width 0, ()⟩ = .ok () := by
  have hone : layout.groupsPerOpening = 1 := by rw [Pcs.PcsLayout.groupsPerOpening, hmode]
  have htranscript : ∃ instanceBytes, Pcs.openingDescriptor (ε := Unit) (fun _ : ℚ => []) layout
      descriptor point 0 [] = .ok instanceBytes := by
    unfold Pcs.openingDescriptor
    rw [hmode]
    exact ⟨_, Except.bind_eq_ok.mpr ⟨_, rfl, Except.bind_eq_ok.mpr ⟨_, rfl,
      Except.bind_eq_ok.mpr ⟨_, Except.bind_eq_ok.mpr ⟨_,
        Pcs.checked_eq_ok.mpr ⟨hshort, rfl⟩, rfl⟩, rfl⟩⟩⟩⟩
  obtain ⟨instanceBytes, hbytes⟩ := htranscript
  unfold Pcs.verifyGroupBatch
  rw [hone]
  refine Except.check_eq_ok.mpr ⟨rfl, Except.bind_eq_ok.mpr ⟨0, rfl, Except.bind_eq_ok.mpr
    ⟨[List.replicate width 0], Except.mapM_eq_ok.mpr (.cons hvalues .nil), Except.check_eq_ok.mpr
      ⟨rejectIf_eq_ok.mpr (not_not_intro (List.append_nil _).symm), Except.bind_eq_ok.mpr
        ⟨_, rfl, Except.bind_eq_ok.mpr ⟨_, rfl, Except.bind_eq_ok.mpr ⟨_, rfl,
          Except.bind_eq_ok.mpr ⟨_, Except.bind_eq_ok.mpr ⟨_, hbytes, rfl⟩, ?_⟩⟩⟩⟩⟩⟩⟩⟩
  refine Except.mapError_eq_ok.mpr (Pcs.checkClaims_eq_ok.mpr fun claim hclaim => ?_)
  obtain rfl := List.mem_singleton.mp hclaim
  show List.replicate width 0 = Pcs.evaluations point (List.replicate width [])
  rw [Pcs.evaluations, List.map_replicate, blank_extension]

theorem blankRom_opens {point : List ℚ} (hpoint : point.length = 20) (descriptor : List Byte) :
    Pcs.verifyOpeningWithBackend (romLayout blankArtifacts) blankRom.inner point [0] descriptor
      ⟨[⟨(), [0], ()⟩]⟩ = .ok () := by
  refine Except.check_eq_ok.mpr ⟨Except.check_eq_ok.mpr ⟨rfl, Except.bind_eq_ok.mpr ⟨1, rfl,
    rejectIf_eq_ok.mpr ?_⟩⟩, Except.bind_eq_ok.mpr ⟨_, rfl, Except.forM_eq_ok.mpr ?_⟩⟩
  · rintro (hnot | hnot | hnot)
    · exact hnot hpoint
    · exact hnot rfl
    · exact hnot rfl
  · intro entry hentry
    obtain rfl := List.mem_singleton.mp hentry
    have hvalues : Pcs.paddedGroupValues (romLayout blankArtifacts) [(0 : ℚ)] 0 =
      (.ok (List.replicate 1 0) : Except (Pcs.PcsError Unit) (List ℚ)) := rfl
    exact blank_group rfl (by rw [hpoint]; norm_num) hvalues

/-- The openings that selected columns of the blank trace need. -/
def blankSelection (selected : List ℕ) : Except (Pcs.PcsError Unit) (List ℕ) :=
  Pcs.selectedOpeningIndices (@Pcs.transparent ℚ _ _).groupLayout
    (Pcs.layoutFor blankArtifacts.pair blankArtifacts.single 110) blankTrace selected

theorem blankTrace_opens {point : List ℚ} (hpoint : point.length = 14) (descriptor : List Byte)
    {selected : List ℕ} (hselected : blankSelection selected = .ok [0]) :
    Pcs.verifySelectedOpening blankArtifacts.pair blankArtifacts.single blankTrace point
      (List.replicate 110 0) selected descriptor ⟨[⟨(), List.replicate 128 0, ()⟩]⟩ = .ok () := by
  refine Except.bind_eq_ok.mpr ⟨[0], hselected, Except.check_eq_ok.mpr ⟨Except.check_eq_ok.mpr
    ⟨rfl, Except.check_eq_ok.mpr ⟨rejectIf_eq_ok.mpr ?_, rfl⟩⟩, Except.bind_eq_ok.mpr
      ⟨_, rfl, Except.forM_eq_ok.mpr ?_⟩⟩⟩
  · rintro (hnot | hnot | hnot | hnot)
    · exact hnot hpoint
    · exact hnot rfl
    · cases hnot
    · exact hnot rfl
  · intro entry hentry
    obtain rfl := List.mem_singleton.mp hentry
    refine Except.bind_eq_ok.mpr ⟨0, rfl, Except.bind_eq_ok.mpr ⟨1, rfl,
      Except.bind_eq_ok.mpr ⟨_, rfl, ?_⟩⟩⟩
    have hvalues : Pcs.paddedGroupValues
        (Pcs.layoutFor blankArtifacts.pair blankArtifacts.single 110)
        (List.replicate 110 (0 : ℚ)) 0 =
      (.ok (List.replicate 128 0) : Except (Pcs.PcsError Unit) (List ℚ)) := by
      refine Except.bind_eq_ok.mpr ⟨0, rfl, Except.bind_eq_ok.mpr ⟨128, rfl,
        Except.check_eq_ok.mpr ⟨rejectIf_eq_ok.mpr (Nat.not_lt_zero _), congrArg Except.ok ?_⟩⟩⟩
      rw [List.length_replicate, List.drop_zero, List.take_replicate]
      exact List.replicate_append_replicate
    exact blank_group rfl (by rw [hpoint]; norm_num) hvalues

theorem blank_cycle : blankSelection blankLayout.values.toList = .ok [0] := rfl

theorem blank_address : blankSelection blankLayout.addressOpeningColumns = .ok [0] := rfl

/-- The slots of the blank layout, mixed with ones. -/
def blankSlots : List (Slot ℚ) :=
  blankLayout.slots (Vector.ofFn (fun slot : Fin 5 => (1 : ℚ) ^ slot.val))

theorem length_blankSlots : blankSlots.length = 5 := blankLayout.length_slots _

theorem lt_of_mem_blankSlots : ∀ slot ∈ blankSlots, slot.value < 110 ∧ slot.selector < 110 ∧
    ∀ column ∈ slot.addressBits.toList, column < 110 := by
  decide

theorem blank_getD (column : ℕ) : (List.replicate 110 (0 : ℚ)).getD column 0 = 0 := by
  rw [List.getD_eq_getElem?_getD, List.getElem?_replicate]
  split <;> rfl

theorem blank_mixed : requireMixedValue (List.replicate 110 0) blankSlots 0 = .ok () := by
  obtain ⟨result, hresult⟩ := @exists_mixValues ℚ _ (List.replicate 110 0)
    (blankSlots.map (fun slot => (slot.value, slot.coefficient)))
    (List.forall_mem_map.mpr fun slot hslot => by
      rw [List.length_replicate]
      exact (lt_of_mem_blankSlots slot hslot).1)
  have hsum : result = 0 := by
    rw [mixValues_eq_ok hresult, List.map_map]
    refine List.sum_eq_zero (List.forall_mem_map.mpr fun slot _ => ?_)
    rw [Function.comp_apply, blank_getD, mul_zero]
  exact Except.bind_eq_ok.mpr ⟨0, hsum ▸ hresult, rejectIf_eq_ok.mpr (not_not_intro rfl)⟩

/-- Columns without rows read nothing. -/
theorem blank_termValue (point tablePoint : List ℚ) :
    extension point (SumOfProductsSumcheck.termValue (affineFunctions
      (fun column => tableOf (([] : List (List ℚ)).getD column []))
      (blankSlots.map (fun slot => slot.term tablePoint)))) = 0 := by
  refine (Multilinear.extension_congr fun row _ => ?_).trans (Multilinear.extension_const _ 0)
  rw [blankSlots, termValue_binds (blankLayout.binds 1 _ tablePoint), mixedEntries,
    RomLookupColumns.readers, List.map_map]
  refine List.sum_eq_zero (List.forall_mem_map.mpr fun slot _ => ?_)
  show slot.coefficient * tableOf ([] : List ℚ) row * _ = 0
  rw [show tableOf ([] : List ℚ) row = 0 from rfl, mul_zero, zero_mul]

theorem blank_values (point : List ℚ) :
    (fun column => extension point (tableOf (([] : List (List ℚ)).getD column []))) =
      fun column => (List.replicate 110 (0 : ℚ)).getD column 0 := by
  funext column
  rw [List.getD_nil, blank_extension, blank_getD]

/-- The blank cartridge is accepted with the sumchecks of the honest prover. -/
theorem blank_accepts : ∃ proof, verifyOnWorker blankArtifacts (fun _ => .ok [])
    constantTranscript .v2 blankLayout blankRom blankTrace proof = .ok () := by
  obtain ⟨descriptor, hdescriptor⟩ := blank_descriptor
  -- the two honest sumchecks
  have hlength : (tabulate 20 (fun _ => (0 : ℚ))).length = 2 ^ 20 := by
    rw [tabulate, List.length_map, List.length_range]
  obtain ⟨table, -, htable⟩ := @ProductSumcheck.prove_proved ℚ _ _
    constantTranscript.toAkitaTranscript _ _ 20 hlength hlength ()
  obtain ⟨address, -, haddress⟩ := @proveSharedFirst_bound ℚ _ _
    constantTranscript.toAkitaTranscript (sampleCyclePoint constantTranscript ()).1 []
    (blankSlots.map (fun slot => slot.term table.1.2.2)) 21
    (List.ne_nil_of_length_pos (by rw [List.length_map, length_blankSlots]; decide))
    (List.forall_mem_map.mpr fun slot _ => slot.length_term htable.point_length) (by omega) table.2
  -- both claims are zero, as all tables are
  have hnodes (count : ℕ) : DistinctNodes ℚ count := distinctNodes_charZero count
  have hclaim : table.1.2.1 = 0 := by
    rw [htable.claim_eq]
    exact sum_eq_zero fun index hindex => by
      rw [tableOf_tabulate _ (mem_range.mp hindex), zero_mul]
  have hzero : extension table.1.2.2 (tableOf (tabulate 20 (fun _ => (0 : ℚ)))) = 0 := by
    rw [extension_tabulate htable.point_length, Multilinear.extension_const]
  have haddressClaim : address.1.2.1 = 0 := haddress.claim_eq.trans (blank_termValue _ _)
  have hcycle : (sampleCyclePoint constantTranscript ()).1.length = 14 := length_samplePoint _ _ _ _
  have htableVerify := htable.verifies (hnodes _)
  have haddressVerify := haddress.verifies (hnodes _)
  rw [hclaim] at htableVerify
  rw [haddressClaim, List.length_map, length_blankSlots, hcycle] at haddressVerify
  refine ⟨⟨0, table.1.1, address.1.1, [0], List.replicate 110 0, List.replicate 110 0,
    ⟨[⟨(), [0], ()⟩]⟩, ⟨[⟨(), List.replicate 128 0, ()⟩]⟩, ⟨[⟨(), List.replicate 128 0, ()⟩]⟩⟩, ?_⟩
  refine Except.check_eq_ok.mpr ⟨blank_validate, Except.check_eq_ok.mpr ⟨rfl,
    Except.bind_eq_ok.mpr ⟨descriptor, hdescriptor, Except.bind_eq_ok.mpr
      ⟨(Vector.ofFn (fun slot : Fin 5 => (1 : ℚ) ^ slot.val), ()), ?_, Except.bind_eq_ok.mpr
        ⟨(table.1.2.2, table.2), Except.mapError_eq_ok.mpr htableVerify, Except.check_eq_ok.mpr
          ⟨Except.mapError_eq_ok.mpr (blankRom_opens htable.point_length _), Except.check_eq_ok.mpr
            ⟨rejectIf_eq_ok.mpr ?_, Except.bind_eq_ok.mpr ⟨(address.1.2.2, address.2),
              Except.mapError_eq_ok.mpr ?_, Except.check_eq_ok.mpr
                ⟨Except.mapError_eq_ok.mpr (blankTrace_opens hcycle _ blank_cycle),
                  Except.check_eq_ok.mpr ⟨blank_mixed, Except.check_eq_ok.mpr
                    ⟨Except.mapError_eq_ok.mpr (blankTrace_opens
                      (haddress.point_length.trans hcycle) _ blank_address), ?_⟩⟩⟩⟩⟩⟩⟩⟩⟩⟩⟩
  · exact Except.bind_eq_ok.mpr ⟨(1, ()), Except.check_eq_ok.mpr
      ⟨rejectIf_eq_ok.mpr one_ne_zero, rfl⟩, rfl⟩
  · rintro (hnot | hnot)
    · exact hnot rfl
    · exact hnot (congrArg some (htable.finalRight_eq.trans hzero).symm)
  · show SumOfProductsSumcheck.verify _ address.1.1 table.1.1.finalLeft 14 5 22 table.2 = _
    rw [htable.finalLeft_eq, hzero]
    exact haddressVerify
  · show verifyAddressTerminal address.1.1.finalTerms _ _ _ _ _ = _
    rw [haddress.finalTerms_eq, blank_values]
    exact verifyAddressTerminal_of_eq length_blankSlots htable.point_length
      haddress.point_length.symm (fun slot hslot => by
        rw [List.length_replicate]
        exact (lt_of_mem_blankSlots slot hslot).2)

/-- What the accepted proof of the blank cartridge shows. -/
theorem rom_lookup_blank : ∃ proof, verifyOnWorker blankArtifacts (fun _ => .ok [])
      constantTranscript .v2 blankLayout blankRom blankTrace proof = .ok () ∧
    ∃ image descriptor mix cyclePoint tablePoint addressPoint,
      Pcs.committedColumn Pcs.transparentTables (romLayout blankArtifacts) blankRom.inner 0 =
        some image ∧
      instanceDescriptor blankArtifacts (fun _ => .ok []) .v2 blankLayout blankRom blankTrace =
        .ok descriptor ∧
      Draws constantTranscript (lookupTranscript constantTranscript .v2 descriptor .verifier) proof
        mix cyclePoint tablePoint addressPoint ∧
      (ReadsRom blankLayout (committedTable Pcs.transparentTables
          (Pcs.layoutFor blankArtifacts.pair blankArtifacts.single 110) blankTrace) image ∨
        Unlucky blankLayout (committedTable Pcs.transparentTables
          (Pcs.layoutFor blankArtifacts.pair blankArtifacts.single 110) blankTrace) image proof mix
            cyclePoint tablePoint addressPoint) := by
  obtain ⟨proof, haccept⟩ := blank_accepts
  exact ⟨proof, haccept, rom_lookup Pcs.transparent_sound haccept⟩

end RomLookup

end Shout

end Zksm83
