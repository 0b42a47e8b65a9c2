import Zksm83.Receipt.Segments

/-!
# Round trips

Everything on the wire is read back from its encoding and from nothing else, as long as its
sequences and counts are within the bounds of the reader. The writer checks none of these bounds:
what is beyond them is written and not read back.
-/

namespace Zksm83

open Wire (codec fits)

/-- The types with an encoding of their own. -/
inductive WireType where
  | u64
  | usize
  | nativeField
  | productRound
  | committedGroup
  | openingScheduleSelection
  | batchedProof
  | vec (element : WireType)
  | columnCommitments
  | witnessCommitments
  | groupOpeningProof
  | openingProof
  | productSumcheckProof
  | sumOfProductsSumcheckProof
  | uniformRelationProof
  | compositeUniformRelationProof
  | fixedIsaCommitments
  | isaLookupProof
  | executionLookupProof
  | romCommitment
  | romLookupProof
  | memoryCommitment
  | clockProof
  | boundaryColumnOpening
  | boundaryProof
  | multisetSumProof
  | packedMutableMemoryProof
  | continuitySumProof
  | packedContinuityProof
  | protocolLogCommitments
  | tableColumnOpening
  | tableRelationProof
  | protocolLogSumProof
  | packedProtocolLogProof
  | packedBlockProof
  | commitmentKind
  | commitmentIdentity
  | protocolLogIdentities
  | protocolLogCounts
  | nativeStateBoundary
  | nativeBoundary
  | nativeSegmentReceipt

namespace WireType

variable (akita : Akita)

/-- The values of a type, with their encoding. -/
def values : WireType → (α : Type) × Wire α
  | .u64 => ⟨UInt64, inferInstance⟩
  | .usize => ⟨ℕ, inferInstance⟩
  | .nativeField => ⟨akita.NativeField, inferInstance⟩
  | .productRound => ⟨Vector akita.NativeField 3, inferInstance⟩
  | .committedGroup => ⟨akita.CommittedGroup, inferInstance⟩
  | .openingScheduleSelection => ⟨OpeningScheduleSelection akita, inferInstance⟩
  | .batchedProof => ⟨akita.BatchedProof, inferInstance⟩
  | .vec element => ⟨List (values element).1, @instWireList _ (values element).2⟩
  | .columnCommitments => ⟨ColumnCommitments akita, inferInstance⟩
  | .witnessCommitments => ⟨WitnessCommitments akita, inferInstance⟩
  | .groupOpeningProof => ⟨GroupOpeningProof akita, inferInstance⟩
  | .openingProof => ⟨OpeningProof akita, inferInstance⟩
  | .productSumcheckProof => ⟨ProductSumcheckProof akita, inferInstance⟩
  | .sumOfProductsSumcheckProof => ⟨SumOfProductsSumcheckProof akita, inferInstance⟩
  | .uniformRelationProof => ⟨UniformRelationProof akita, inferInstance⟩
  | .compositeUniformRelationProof => ⟨CompositeUniformRelationProof akita, inferInstance⟩
  | .fixedIsaCommitments => ⟨FixedIsaCommitments akita, inferInstance⟩
  | .isaLookupProof => ⟨IsaLookupProof akita, inferInstance⟩
  | .executionLookupProof => ⟨ExecutionLookupProof akita, inferInstance⟩
  | .romCommitment => ⟨RomCommitment akita, inferInstance⟩
  | .romLookupProof => ⟨RomLookupProof akita, inferInstance⟩
  | .memoryCommitment => ⟨MemoryCommitment akita, inferInstance⟩
  | .clockProof => ⟨ClockProof akita, inferInstance⟩
  | .boundaryColumnOpening => ⟨Boundary.ColumnOpening akita, inferInstance⟩
  | .boundaryProof => ⟨BoundaryProof akita, inferInstance⟩
  | .multisetSumProof => ⟨MultisetSumProof akita, inferInstance⟩
  | .packedMutableMemoryProof => ⟨PackedMutableMemoryProof akita, inferInstance⟩
  | .continuitySumProof => ⟨ContinuitySumProof akita, inferInstance⟩
  | .packedContinuityProof => ⟨PackedContinuityProof akita, inferInstance⟩
  | .protocolLogCommitments => ⟨ProtocolLogCommitments akita, inferInstance⟩
  | .tableColumnOpening => ⟨TableRelation.ColumnOpening akita, inferInstance⟩
  | .tableRelationProof => ⟨TableRelationProof akita, inferInstance⟩
  | .protocolLogSumProof => ⟨ProtocolLogSumProof akita, inferInstance⟩
  | .packedProtocolLogProof => ⟨PackedProtocolLogProof akita, inferInstance⟩
  | .packedBlockProof => ⟨PackedBlockProof akita, inferInstance⟩
  | .commitmentKind => ⟨CommitmentKind, inferInstance⟩
  | .commitmentIdentity => ⟨CommitmentIdentity, inferInstance⟩
  | .protocolLogIdentities => ⟨ProtocolLogIdentities, inferInstance⟩
  | .protocolLogCounts => ⟨ProtocolLogCounts, inferInstance⟩
  | .nativeStateBoundary => ⟨NativeStateBoundary, inferInstance⟩
  | .nativeBoundary => ⟨NativeBoundary, inferInstance⟩
  | .nativeSegmentReceipt => ⟨NativeSegmentReceipt akita, inferInstance⟩

/-- The Lean type of the values. -/
abbrev Value (type : WireType) : Type := (type.values akita).1

instance (type : WireType) : Wire (type.Value akita) := (type.values akita).2

end WireType

/-- The encodings of the values of every type, under any bound on their size, and the encodings of
receipts are canonical for the values that fit: sequences and counts within `maxSequenceLength`, and
at most `maxNativeSegmentCount` segments. -/
theorem receipt_wire_roundTrip (akita : Akita) :
    (∀ (type : WireType) (maximum : ℕ),
      Canonical (fun value : type.Value akita => encodeWire value maximum) (decodeWire maximum)
        fits) ∧
    Canonical (@encodeReceipt akita) decodeReceipt NativeReceipt.Fits :=
  ⟨fun _ maximum => (wire_roundTrips maximum).canonical (wire_prefixFree maximum),
    receipt_roundTrips.canonical receipt_prefixFree⟩

/-! ## Beyond the bounds -/

/-- A receipt with too many segments is written, and what is written is not read back. -/
theorem decodeReceipt_of_many {akita : Akita} {receipt : NativeReceipt akita} {bytes : List Byte}
    (hrom : fits receipt.rom)
    (hmany : maxNativeSegmentCount < receipt.segments.length)
    (hencode : encodeReceipt receipt = .ok bytes) (other : NativeReceipt akita) :
    decodeReceipt bytes ≠ .ok other := by
  intro hdecode
  obtain ⟨fields, hfields, rfl, -⟩ := encodeReceipt_eq_ok.mp hencode
  obtain ⟨fields', hbytes, -, hread⟩ := decodeReceipt_eq_ok.mp hdecode
  rw [protocol_eq receipt.version, List.append_cancel_left_eq] at hbytes
  obtain ⟨statementBytes, romBytes, count, frames, hstatement, hromBytes, hcount, -, rfl⟩ :=
    encode_receiptFields.mp hfields
  rw [← hbytes] at hread
  obtain ⟨first, second, length, third, hstatement', hrom', hlength', -⟩ :=
    decode_receiptFields.mp hread
  rw [statementFrame_exact.decode_encode trivial hstatement, Except.ok.injEq,
    Prod.mk.injEq] at hstatement'
  obtain ⟨-, rfl⟩ := hstatement'
  rw [romFrame_exact.decode_encode hrom hromBytes, Except.ok.injEq, Prod.mk.injEq] at hrom'
  obtain ⟨-, rfl⟩ := hrom'
  -- the count that was read is the one that was written, since both are words
  obtain ⟨hle, count', hcount', hsame⟩ := segmentCount_exact.encode_decode hlength'
  obtain ⟨hlt, rfl⟩ := Wire.encode_usize.mp (Except.mapError_eq_ok.mp hcount)
  obtain ⟨hlt', rfl⟩ := Wire.encode_usize.mp (Except.mapError_eq_ok.mp hcount')
  obtain ⟨hword, -⟩ := List.append_inj hsame (by simp)
  have hequal := leBytes_injective (by simpa using hlt) (by simpa using hlt') hword
  omega

/-- A count beyond the bound of sequences is written, and what is written is not read back. -/
theorem decodeWire_count {count maximum : ℕ} (hword : count < 2 ^ 64) (hsize : 8 ≤ maximum)
    (hmany : maxSequenceLength < count) :
    encodeWire count maximum = .ok (leBytes 8 count) ∧
      ∀ other : ℕ, decodeWire maximum (leBytes 8 count) ≠ .ok other := by
  refine ⟨encodeWire_eq_ok.mpr ⟨Wire.encode_usize.mpr ⟨hword, rfl⟩, by simpa⟩, ?_⟩
  intro other hdecode
  obtain ⟨hfits, hencode⟩ := decode_eq_ok.mp (decodeWire_eq_ok.mp hdecode).2
  obtain ⟨hother, hbytes⟩ := Wire.encode_usize.mp hencode
  have hequal := leBytes_injective (by simpa using hword) (by simpa using hother) hbytes
  exact absurd (hequal ▸ hmany) (not_lt.mpr hfits)

/-- The empty serialization of the only value of a type. -/
def emptyCodec : AkitaCodec (fun _ : Unit => ()) where
  serializeCompressed _ := .ok []
  deserializeCompressedExact _ bytes := if bytes = [] then .ok () else .error ""
  inverse _ _ bytes := by
    by_cases h : bytes = []
    · simp [h]
    · simp [h, Ne.symm h]

/-- A library whose types have a single value each, with the empty serialization. -/
def emptyAkita : Akita where
  NativeField := Unit
  CommittedGroup := Unit
  BatchedProof := Unit
  BatchedProofShape := Unit
  shape _ := ()
  field := emptyCodec
  group := emptyCodec
  proof := emptyCodec
  proofShape := emptyCodec
  length_field h := by
    have hbytes := Except.ok.inj (show (Except.ok [] : Except String (List Byte)) = _ from h)
    subst hbytes
    decide
  numVars _ := 0
  numPolynomials _ := 0
  scheduleRowDigestBytes := 32

/-- What decodes some bytes and leaves nothing encodes to these bytes. -/
theorem exists_of_decode {α : Type} [Wire α] {bytes : List Byte}
    (hdecode : ((codec.decode bytes : Except WireError (α × List Byte)).toOption.map
      (fun result => result.2)) = some []) :
    ∃ (value : α) (bytes' : List Byte), fits value ∧ codec.encode value = .ok bytes' ∧
      bytes'.length = bytes.length := by
  match hresult : (codec.decode bytes : Except WireError (α × List Byte)) with
  | .error _ =>
    rw [hresult] at hdecode
    cases hdecode
  | .ok (value, rest) =>
    rw [hresult] at hdecode
    obtain rfl : rest = [] := Option.some.inj hdecode
    obtain ⟨hfits, hencode⟩ := decode_eq_ok.mp hresult
    exact ⟨value, bytes, hfits, hencode, rfl⟩

set_option maxRecDepth 20000 in
theorem exists_zeroSegment : ∃ (segment : NativeSegmentReceipt emptyAkita) (bytes : List Byte),
    fits segment ∧ codec.encode segment = .ok bytes ∧ bytes.length = 2560 :=
  @List.length_replicate Byte 2560 0 ▸ exists_of_decode (by decide +kernel)

theorem exists_zeroRom : ∃ (rom : RomCommitment emptyAkita) (bytes : List Byte),
    fits rom ∧ codec.encode rom = .ok bytes ∧ bytes.length = 40 :=
  @List.length_replicate Byte 40 0 ▸ exists_of_decode (by decide +kernel)

/-- A frame holds its length and its content. -/
theorem framed_encode {α : Type} {maximum : ℕ} {encode : α → Except NativeReceiptError (List Byte)}
    {decode : List Byte → Except NativeReceiptError α} {value : α} {bytes : List Byte}
    (hencode : encode value = .ok bytes) (hlength : bytes.length < 2 ^ 64) :
    (Codec.framed ((Wire.blob maximum).mapError mapWire) encode decode).encode value =
      .ok (leBytes 8 bytes.length ++ bytes) :=
  Except.bind_eq_ok.mpr ⟨bytes, hencode, Except.mapError_eq_ok.mpr
    (Except.bind_eq_ok.mpr ⟨_, Wire.encode_usize.mpr ⟨hlength, rfl⟩, rfl⟩)⟩

/-- The frames of a receipt with one segment repeated, small enough for a receipt. -/
theorem exists_encodeReceipt {akita : Akita} {statement : NativeStatement}
    {rom : RomCommitment akita} {segment : NativeSegmentReceipt akita}
    {statementBytes romBytes segmentBytes : List Byte}
    (hstatement : statementFrame.encode statement = .ok statementBytes)
    (hrom : romFrame.encode rom = .ok romBytes)
    (hsegment : segmentFrame.encode segment = .ok segmentBytes) {count : ℕ}
    (hcount : count < 2 ^ 64)
    (hsize : 24 + statementBytes.length + romBytes.length + count * segmentBytes.length ≤
      maxNativeReceiptBytes) :
    ∃ bytes, encodeReceipt ⟨.v2, statement, rom, List.replicate count segment⟩ = .ok bytes := by
  have hwritten : segmentCount.encode (List.replicate count segment).length =
      .ok (leBytes 8 (List.replicate count segment).length) :=
    Except.mapError_eq_ok.mpr (Wire.encode_usize.mpr ⟨by simpa, rfl⟩)
  refine ⟨_, encodeReceipt_eq_ok.mpr ⟨_, encode_receiptFields.mpr ⟨_, _, _, _, hstatement, hrom,
    hwritten, Codec.encodeMany_replicate _ hsegment count, rfl⟩, rfl, ?_⟩⟩
  simp only [receiptFront, List.length_append, Vector.length_toList, length_leBytes,
    List.length_flatten, List.map_replicate, List.sum_replicate, smul_eq_mul]
  omega

/-- The writer writes a count beyond `maxSequenceLength`, and a receipt with more than
`maxNativeSegmentCount` segments, all of whose sequences are within `maxSequenceLength`. The reader
reads neither. -/
theorem receipt_wire_beyond :
    (∃ bytes, encodeWire (maxSequenceLength + 1) 8 = .ok bytes ∧
      ∀ other : ℕ, decodeWire 8 bytes ≠ .ok other) ∧
    ∃ (receipt : NativeReceipt emptyAkita) (bytes : List Byte),
      fits receipt.rom ∧ fits receipt.segments ∧ encodeReceipt receipt = .ok bytes ∧
        ∀ other : NativeReceipt emptyAkita, decodeReceipt bytes ≠ .ok other := by
  constructor
  · exact ⟨_, decodeWire_count (by decide) (by decide) (by decide)⟩
  · obtain ⟨segment, segmentBytes, hfits, hsegment, hsegmentLength⟩ := exists_zeroSegment
    obtain ⟨rom, romBytes, hromFits, hrom, hromLength⟩ := exists_zeroRom
    obtain ⟨statementBytes, hstatement, hstatementLength⟩ :=
      (structuralStatement (fun message => (sha256 message).bytes)).exists_encoding
    have hromBytes : encodeRom rom = .ok romBytes :=
      encodeWire_eq_ok.mpr ⟨hrom, hromLength.trans_le (by decide)⟩
    have hsegmentBytes : encodeSegment segment = .ok segmentBytes :=
      encodeWire_eq_ok.mpr ⟨hsegment, hsegmentLength.trans_le (by decide)⟩
    have hstatementFrame : statementFrame.encode _ = .ok _ :=
      framed_encode hstatement (hstatementLength.trans_lt (by decide))
    have hromFrame : romFrame.encode rom = .ok _ :=
      framed_encode hromBytes (hromLength.trans_lt (by decide))
    have hsegmentFrame : segmentFrame.encode segment = .ok _ :=
      framed_encode hsegmentBytes (hsegmentLength.trans_lt (by decide))
    have hcount : maxNativeSegmentCount + 1 < 2 ^ 64 := by decide
    obtain ⟨bytes, hencode⟩ := exists_encodeReceipt hstatementFrame hromFrame hsegmentFrame hcount
      (by
        simp only [List.length_append, length_leBytes, hstatementLength, hromLength,
          hsegmentLength]
        decide)
    refine ⟨_, bytes, hromFits, ?_, hencode, decodeReceipt_of_many hromFits ?_ hencode⟩
    · refine ⟨?_, fun value hvalue => ?_⟩
      · rw [List.length_replicate]
        decide
      · rwa [List.eq_of_mem_replicate hvalue]
    · rw [List.length_replicate]
      exact Nat.lt_succ_self _

end Zksm83
