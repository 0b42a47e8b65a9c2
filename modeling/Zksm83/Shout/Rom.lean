import Zksm83.Receipt.Identity
import Zksm83.Shout.Binding

/-!
# The ROM lookup

Each of the five bus slots of a row may read the cartridge. One proof covers all reads: the
selected values are mixed over the slots, a sumcheck reduces them to the committed image at one
point, and a second one reduces what was read there to the selectors and the address bits. Read
`rom_lookup` last: an accepted proof shows that every read returns the selected byte, or one of its
challenges was unlucky. After `rom_lookup.rs`.
-/

namespace Zksm83

open Finset Sumcheck TableLookup Challenges
open Multilinear (extension weight equality)

namespace Shout

namespace RomLookup

/-! ## Columns -/

/-- Trace positions of the five slots: selectors, address bits with the lowest first, and values. -/
structure RomLookupColumns where
  selectors : Vector ℕ 5
  addressBits : Vector (Vector ℕ 20) 5
  values : Vector ℕ 5

namespace RomLookupColumns

def validate (layout : RomLookupColumns) (columnCount : ℕ) : Except LookupError Unit :=
  validateIndices (layout.selectors.toList ++ layout.addressBits.toList.flatMap Vector.toList ++
    layout.values.toList) columnCount

def addressOpeningColumns (layout : RomLookupColumns) : List ℕ :=
  layout.selectors.toList ++ layout.addressBits.toList.flatMap Vector.toList

end RomLookupColumns

/-- The columns of one slot, with the coefficient of the slot. -/
structure Slot (F : Type) where
  coefficient : F
  selector : ℕ
  addressBits : Vector ℕ 20
  value : ℕ

/-- The slots, with the powers of the challenge that mixes them. -/
def RomLookupColumns.slots {F : Type} (layout : RomLookupColumns) (coefficients : Vector F 5) :
    List (Slot F) :=
  (List.finRange 5).map (fun slot =>
    ⟨coefficients[slot], layout.selectors[slot], layout.addressBits[slot], layout.values[slot]⟩)

@[simp] theorem RomLookupColumns.length_slots {F : Type} (layout : RomLookupColumns)
    (coefficients : Vector F 5) : (layout.slots coefficients).length = 5 :=
  (List.length_map _).trans (List.length_finRange)

variable {F : Type} [Field F] [DecidableEq F]

namespace Slot

variable (slot : Slot F)

omit [DecidableEq F] in
/-- What a slot reads, from a table of columns. -/
def reader (table : ℕ → ℕ → F) : Reader F where
  coefficient := slot.coefficient
  selector := table slot.selector
  bits := slot.addressBits.toList.map table
  value := table slot.value

omit [DecidableEq F] in
/-- The columns behind the factors of a slot: its selector, scaled, and its address bits. -/
def term (tablePoint : List F) : List (AffineColumn F) :=
  ⟨slot.selector, slot.coefficient, 0⟩ :: bitColumns slot.addressBits.toList tablePoint

omit [DecidableEq F] in
theorem length_term {tablePoint : List F} (hpoint : tablePoint.length = 20) :
    (slot.term tablePoint).length = 21 := by
  rw [term, List.length_cons, bitColumns, List.length_map, List.length_zip, Vector.length_toList,
    hpoint]
  rfl

omit [DecidableEq F] in
theorem binds (table : ℕ → ℕ → F) (tablePoint : List F) :
    Binds table tablePoint (slot.reader table) (slot.term tablePoint) := by
  intro row
  rw [term, List.map_cons, List.prod_cons, prod_bitColumns, AffineColumn.value, add_zero,
    Reader.address]
  show _ * equality (slot.addressBits.toList.map fun column => table column row) tablePoint =
    _ * _ * equality ((slot.addressBits.toList.map table).map fun bit => bit row) tablePoint
  rw [List.map_map]
  rfl

end Slot

/-! ## Commitments -/

def romLookupTranscriptDomainV2 : String := "zksm83-native-rom-shout/v2"
def akitaRomScheduleSha256 : String :=
  "141f4ffaf9b1546351a35582352a6337b2855aab3d77cd456bfe30241d4c40af"

variable {akita : Pcs.Akita F} (artifacts : ScheduleArtifacts)
  (serialize : akita.Group → Except akita.Error (List Byte))

def romLayout : Pcs.PcsLayout :=
  ⟨20, 1, artifacts.rom, asciiBytes "zksm83/native-rom-commitment/v1",
    asciiBytes "zksm83-native-rom-opening/v1", .independent⟩

/-- The commitment to an image, with the length of the image before it was padded. -/
structure RomCommitment (akita : Pcs.Akita F) where
  logicalByteLength : UInt64
  inner : Pcs.ColumnCommitments akita.Group

structure CommittedRom (akita : Pcs.Akita F) where
  inner : Pcs.CommittedColumns akita
  commitment : RomCommitment akita

def validateRomLength (length : ℕ) : Except LookupError Unit :=
  rejectIf (length ≠ rom256KibImageBytes ∧ length ≠ romImageBytes) .invalidRomLength

def RomCommitment.validate (rom : RomCommitment akita) : Except LookupError Unit := do
  validateRomLength rom.logicalByteLength.toNat
  (rom.inner.validate akita.groupLayout (romLayout artifacts) :
    Except (Pcs.PcsError akita.Error) Unit).mapError (fun _ => .pcs)

def RomCommitment.canonicalBytes (rom : RomCommitment akita) : Except LookupError (List Byte) := do
  let inner ← (Shout.canonicalBytes serialize (romLayout artifacts) rom.inner).mapError
    (fun _ => .pcs)
  return leBytes 8 rom.logicalByteLength.toNat ++ inner

/-- An image is padded with zeros to the size of the table. -/
def paddedImage (image : List Byte) : List ℕ :=
  image.map Fin.val ++ List.replicate (romImageBytes - image.length) 0

def commitRom (image : List Byte) : Except LookupError (CommittedRom akita) := do
  validateRomLength image.length
  let inner ← (Pcs.commitColumns akita (romLayout artifacts) [paddedImage image]).mapError
    (fun _ => .pcs)
  return ⟨inner, ⟨UInt64.ofNat image.length, inner.commitments⟩⟩

/-! ## The instance -/

def instanceDescriptor (protocol : NativeProtocolVersion) (layout : RomLookupColumns)
    (rom : RomCommitment akita) (trace : Pcs.ColumnCommitments akita.Group) :
    Except LookupError (List Byte) := do
  let descriptor ← pushBytes [] (asciiBytes protocol.protocolId)
  let descriptor ← pushBytes descriptor (asciiBytes akitaRomScheduleSha256)
  let descriptor ← pushUsize descriptor romImageBytes
  let descriptor ← pushIndices descriptor layout.selectors.toList
  let descriptor ← layout.addressBits.toList.foldlM
    (fun descriptor bits => pushIndices descriptor bits.toList) descriptor
  let descriptor ← pushIndices descriptor layout.values.toList
  let romBytes ← rom.canonicalBytes artifacts serialize
  let descriptor ← pushBytes descriptor romBytes
  let traceBytes ← (Shout.canonicalBytes serialize
    (Pcs.layoutFor artifacts.pair artifacts.single trace.logicalColumnCount) trace).mapError
    (fun _ => .sharedOpening)
  pushBytes descriptor traceBytes

section Transcript

variable (transcript : LookupTranscript F)

def lookupTranscript (protocol : NativeProtocolVersion) (descriptor : List Byte)
    (side : Pcs.TranscriptSide) : transcript.State :=
  match protocol with
  | .v2 => transcript.unbound side (asciiBytes romLookupTranscriptDomainV2) descriptor

omit [Field F] [DecidableEq F] in
theorem lookupTranscript_sides (protocol : NativeProtocolVersion) (descriptor : List Byte) :
    lookupTranscript transcript protocol descriptor .prover =
      lookupTranscript transcript protocol descriptor .verifier :=
  transcript.sides _ _

def slotCoefficients (state : transcript.State) :
    Except LookupError (Vector F 5 × transcript.State) := do
  let (challenge, state) ← nonzeroChallenge transcript.toAkitaTranscript
    (asciiBytes "rom-slot-mix") state
  return (Vector.ofFn (fun slot => challenge ^ slot.val), state)

def sampleCyclePoint : transcript.State → List F × transcript.State :=
  samplePoint transcript.toAkitaTranscript (asciiBytes "rom-cycle-point") 14

def appendClaim (claim : F) : transcript.State → transcript.State :=
  transcript.appendField (asciiBytes "rom-claimed-output") claim

end Transcript

/-! ## Reads -/

def mixColumns (columns : List (List F)) (slots : List (Slot F)) :
    Except LookupError (List F) := do
  let rowCount ← firstRowCount columns
  mixEntries columns rowCount (slots.map (fun slot => (slot.value, slot.coefficient)))

/-- The reads of a slot, each at its address; a row that is not selected reads nothing. -/
def slotReads (coefficient : F) (rows : List (F × ℕ × F)) :
    Except LookupError (List (ℕ × F)) := do
  rows.forM (fun row => requireBoolean row.1)
  return (rows.filter (fun row => row.1 ≠ 0)).map (fun row =>
    (row.2.1, row.2.2 * coefficient * row.1))

def readAddressEntries (columns : List (List F)) (slots : List (Slot F)) (cycleWeights : List F) :
    Except LookupError (List (ℕ × F)) := do
  rejectIf (2 ^ 64 ≤ cycleWeights.length * 5) .shape
  let reads ← slots.mapM (fun slot => do
    let selectors ← column columns slot.selector cycleWeights.length
    let addresses ←
      traceAddressesWith setBit columns slot.addressBits.toList cycleWeights.length
    slotReads slot.coefficient (selectors.zip (addresses.zip cycleWeights)))
  return reads.flatten

/-- The terms of the second sumcheck, each the weights and the columns of a slot. -/
def addressBindingTerms (columns : List (List F)) (slots : List (Slot F)) (rowCount : ℕ)
    (tablePoint : List F) :
    Except LookupError (List (List (SumOfProductsSumcheck.SumcheckFactor F))) := do
  rejectIf (tablePoint.length ≠ 20) .shape
  slots.mapM (fun slot => do
    let factors ← (slot.term tablePoint).mapM (columnFactor columns rowCount)
    return .values (weightSource rowCount) :: factors)

def requireMixedValue (values : List F) (slots : List (Slot F)) (expected : F) :
    Except LookupError Unit := do
  let actual ← mixValues values (slots.map (fun slot => (slot.value, slot.coefficient)))
  rejectIf (actual ≠ expected) .outputClaimMismatch

def requireTableValue (values : List F) (expected : F) : Except LookupError Unit :=
  rejectIf (values.length ≠ 1 ∨ values.head? ≠ some expected) .tableOpeningMismatch

/-- The last factors of a slot must be those that its opened columns give. -/
def verifySlotTerminal (factors : List F) (slot : Slot F) (expectedWeight : F)
    (tablePoint traceValues : List F) : Except LookupError Unit := do
  rejectIf (factors[0]? ≠ some expectedWeight) .addressBindingMismatch
  let selector ← traceValue traceValues slot.selector
  rejectIf (factors[1]? ≠ some (slot.coefficient * selector)) .addressBindingMismatch
  (slot.addressBits.toList.zip tablePoint).zipIdx.forM (fun entry => do
    let bit ← traceValue traceValues entry.1.1
    rejectIf (factors[entry.2 + 2]? ≠ some (bitEquality bit entry.1.2)) .addressBindingMismatch)

def verifyAddressTerminal (finalTerms : List (List F)) (slots : List (Slot F))
    (cyclePoint tablePoint addressPoint traceValues : List F) : Except LookupError Unit := do
  rejectIf (tablePoint.length ≠ 20 ∨ finalTerms.length ≠ 5) .shape
  let expectedWeight ← equalityEvaluation cyclePoint addressPoint
  (finalTerms.zip slots).forM (fun entry =>
    verifySlotTerminal entry.1 entry.2 expectedWeight tablePoint traceValues)

/-! ## The prover and the verifier -/

structure RomLookupProof (akita : Pcs.Akita F) where
  claimedOutput : F
  tableSumcheck : ProductSumcheck.Proof F
  addressSumcheck : SumOfProductsSumcheck.Proof F
  tableValues : List F
  traceCycleValues : List F
  traceAddressValues : List F
  tableOpening : Pcs.OpeningProof akita
  traceCycleOpening : Pcs.OpeningProof akita
  traceAddressOpening : Pcs.OpeningProof akita

variable (transcript : LookupTranscript F)

def proveOnWorker (layout : RomLookupColumns) (rom : CommittedRom akita)
    (witness : Pcs.CommittedColumns akita) : Except LookupError (RomLookupProof akita) := do
  layout.validate witness.commitments.logicalColumnCount
  rom.commitment.validate artifacts
  let protocol := NativeProtocolVersion.current
  let descriptor ←
    instanceDescriptor artifacts serialize protocol layout rom.commitment witness.commitments
  let state := lookupTranscript transcript protocol descriptor .prover
  let (coefficients, state) ← slotCoefficients transcript state
  let slots := layout.slots coefficients
  let (cyclePoint, state) := sampleCyclePoint transcript state
  let traceColumns ← (Pcs.fieldColumns witness).mapError (fun _ => .sharedOpening)
  let romColumns ← (Pcs.fieldColumns rom.inner).mapError (fun _ => .pcs)
  let mixedTrace ← mixColumns traceColumns slots
  let claimedOutput ← evaluateMle mixedTrace cyclePoint
  let state := appendClaim transcript claimedOutput state
  let cycleWeights := Uniform.equalityEvaluations cyclePoint
  let readAddress ← readAddressEntries traceColumns slots cycleWeights
  let table ← someOr romColumns.head? .shape
  let ((tableSumcheck, actualClaim, tablePoint), state) ←
    (ProductSumcheck.proveSparseLeft transcript.toAkitaTranscript readAddress romImageBytes table
      state).mapError ofSumcheckError
  rejectIf (actualClaim ≠ claimedOutput) .outputClaimMismatch
  let tableValues ← evaluateColumns romColumns tablePoint
  requireTableValue tableValues tableSumcheck.finalRight
  let terms ← addressBindingTerms traceColumns slots cycleWeights.length tablePoint
  let ((addressSumcheck, addressClaim, addressPoint), _) ←
    (SumOfProductsSumcheck.proveSharedFirst transcript.toAkitaTranscript
      (memoryOf cycleWeights traceColumns) terms state).mapError ofSumcheckError
  rejectIf (addressClaim ≠ tableSumcheck.finalLeft) .addressBindingMismatch
  let (traceCycleValues, traceCycleOpening) ←
    (Pcs.proveSelectedOpening witness cyclePoint layout.values.toList descriptor).mapError
      (fun _ => .sharedOpening)
  requireMixedValue traceCycleValues slots claimedOutput
  let (traceAddressValues, traceAddressOpening) ←
    (Pcs.proveSelectedOpening witness addressPoint layout.addressOpeningColumns
      descriptor).mapError (fun _ => .sharedOpening)
  verifyAddressTerminal addressSumcheck.finalTerms slots cyclePoint tablePoint addressPoint
    traceAddressValues
  let tableOpening ← (Pcs.proveOpeningWithBackend (romLayout artifacts) rom.inner tablePoint
    tableValues descriptor).mapError (fun _ => .pcs)
  return {
    claimedOutput, tableSumcheck, addressSumcheck, tableValues, traceCycleValues
    traceAddressValues, tableOpening, traceCycleOpening, traceAddressOpening }

def verifyOnWorker (protocol : NativeProtocolVersion) (layout : RomLookupColumns)
    (rom : RomCommitment akita) (trace : Pcs.ColumnCommitments akita.Group)
    (proof : RomLookupProof akita) : Except LookupError Unit := do
  layout.validate trace.logicalColumnCount
  rom.validate artifacts
  let descriptor ← instanceDescriptor artifacts serialize protocol layout rom trace
  let state := lookupTranscript transcript protocol descriptor .verifier
  let (coefficients, state) ← slotCoefficients transcript state
  let slots := layout.slots coefficients
  let (cyclePoint, state) := sampleCyclePoint transcript state
  let state := appendClaim transcript proof.claimedOutput state
  let (tablePoint, state) ←
    (ProductSumcheck.verify transcript.toAkitaTranscript proof.tableSumcheck proof.claimedOutput 20
      state).mapError ofSumcheckError
  (Pcs.verifyOpeningWithBackend (romLayout artifacts) rom.inner tablePoint proof.tableValues
    descriptor proof.tableOpening).mapError (fun _ => .pcs)
  requireTableValue proof.tableValues proof.tableSumcheck.finalRight
  let (addressPoint, _) ←
    (SumOfProductsSumcheck.verify transcript.toAkitaTranscript proof.addressSumcheck
      proof.tableSumcheck.finalLeft 14 5 22 state).mapError ofSumcheckError
  (Pcs.verifySelectedOpening artifacts.pair artifacts.single trace cyclePoint
    proof.traceCycleValues layout.values.toList descriptor proof.traceCycleOpening).mapError
      (fun _ => .sharedOpening)
  requireMixedValue proof.traceCycleValues slots proof.claimedOutput
  (Pcs.verifySelectedOpening artifacts.pair artifacts.single trace addressPoint
    proof.traceAddressValues layout.addressOpeningColumns descriptor
      proof.traceAddressOpening).mapError (fun _ => .sharedOpening)
  verifyAddressTerminal proof.addressSumcheck.finalTerms slots cyclePoint tablePoint addressPoint
    proof.traceAddressValues

end RomLookup

end Shout

end Zksm83
