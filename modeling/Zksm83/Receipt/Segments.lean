import Zksm83.Receipt.Statement

/-!
# Receipts on the wire

Segment receipts, whole receipts and their encodings. Everything on the wire, from a word to a
whole receipt, is read back from its encoding and from nothing else, as long as its sequences are
short enough for the reader. After `receipt.rs` and `receipt/wire.rs`; read `receipt_wire_roundTrip`
first.
-/

namespace Zksm83

open Wire (codec fits)

abbrev maxNativeReceiptBytes : ℕ := 512 * 1024 * 1024
abbrev maxNativeRomCommitmentBytes : ℕ := 16 * 1024 * 1024
abbrev maxNativeSegmentBytes : ℕ := 512 * 1024 * 1024

/-- A segment with every verifier-visible input of its proof. -/
structure NativeSegmentReceipt (akita : Akita) where
  segmentIndex : UInt64
  transitionCount : UInt64
  activeRowCount : UInt64
  paddedRowCount : UInt64
  initial : NativeBoundary
  finalBoundary : NativeBoundary
  initialMemory : MemoryCommitment akita
  finalMemory : MemoryCommitment akita
  logs : ProtocolLogCommitments akita
  mCycleCount : UInt64
  logCounts : ProtocolLogCounts
  proof : PackedBlockProof akita

structure NativeReceipt (akita : Akita) where
  version : NativeProtocolVersion
  statement : NativeStatement
  rom : RomCommitment akita
  segments : List (NativeSegmentReceipt akita)

variable {akita : Akita}

instance : Wire (NativeSegmentReceipt akita) :=
  .struct
    (fun value => (value.segmentIndex, value.transitionCount, value.activeRowCount,
      value.paddedRowCount, value.initial, value.finalBoundary, value.initialMemory,
      value.finalMemory, value.logs, value.mCycleCount, value.logCounts, value.proof))
    (fun (segmentIndex, transitionCount, activeRowCount, paddedRowCount, initial, finalBoundary,
        initialMemory, finalMemory, logs, mCycleCount, logCounts, proof) =>
      ⟨segmentIndex, transitionCount, activeRowCount, paddedRowCount, initial, finalBoundary,
        initialMemory, finalMemory, logs, mCycleCount, logCounts, proof⟩)
    (fun _ => rfl) (fun _ => rfl)

/-! ## Components of bounded size -/

def encodeWire {α : Type} [Wire α] (value : α) (maximum : ℕ) :
    Except NativeReceiptError (List Byte) := do
  let bytes ← (codec.encode value).mapError mapWire
  ensureSize bytes maximum

def decodeWire {α : Type} [Wire α] (maximum : ℕ) (bytes : List Byte) :
    Except NativeReceiptError α := do
  rejectIf (maximum < bytes.length) (.wire "component length limit")
  let (value, rest) ← (codec.decode bytes).mapError mapWire
  (WireReader.finish rest).mapError mapWire
  return value

section Wire

variable {α : Type} [Wire α]

theorem encodeWire_eq_ok {value : α} {maximum : ℕ} {bytes : List Byte} :
    encodeWire value maximum = .ok bytes ↔
      codec.encode value = .ok bytes ∧ bytes.length ≤ maximum := by
  unfold encodeWire
  simp only [Except.bind_eq_ok, Except.mapError_eq_ok, ensureSize_eq_ok]
  exact ⟨fun ⟨_, hencode, hle, heq⟩ => heq ▸ ⟨hencode, hle⟩,
    fun ⟨hencode, hle⟩ => ⟨_, hencode, hle, rfl⟩⟩

theorem decodeWire_eq_ok {value : α} {maximum : ℕ} {bytes : List Byte} :
    decodeWire maximum bytes = .ok value ↔
      bytes.length ≤ maximum ∧ codec.decode bytes = .ok (value, []) := by
  unfold decodeWire
  constructor
  · intro h
    obtain ⟨hsize, h⟩ := Except.check_eq_ok.mp h
    obtain ⟨⟨decoded, rest⟩, hdecode, h⟩ := Except.bind_eq_ok.mp h
    obtain ⟨hfinish, h⟩ := Except.check_eq_ok.mp h
    cases h
    obtain rfl := finish_eq_ok.mp (Except.mapError_eq_ok.mp hfinish)
    exact ⟨not_lt.mp (rejectIf_eq_ok.mp hsize), Except.mapError_eq_ok.mp hdecode⟩
  · rintro ⟨hsize, hdecode⟩
    exact Except.check_eq_ok.mpr ⟨rejectIf_eq_ok.mpr (not_lt.mpr hsize), Except.bind_eq_ok.mpr
      ⟨_, Except.mapError_eq_ok.mpr hdecode, rfl⟩⟩

theorem decode_eq_ok {value : α} {bytes : List Byte} :
    codec.decode bytes = .ok (value, []) ↔ fits value ∧ codec.encode value = .ok bytes := by
  constructor
  · intro hdecode
    obtain ⟨hfits, front, hencode, rfl⟩ := Wire.exact.encode_decode hdecode
    rw [List.append_nil]
    exact ⟨hfits, hencode⟩
  · rintro ⟨hfits, hencode⟩
    have hdecode := Wire.exact.decode_encode hfits hencode []
    rwa [List.append_nil] at hdecode

/-- A component decodes from its encoding, and only from it. -/
theorem wire_roundTrips (maximum : ℕ) :
    RoundTrips (fun value : α => encodeWire value maximum) (decodeWire maximum) fits where
  decode_encode hfits hencode := by
    obtain ⟨hencode, hsize⟩ := encodeWire_eq_ok.mp hencode
    exact decodeWire_eq_ok.mpr ⟨hsize, decode_eq_ok.mpr ⟨hfits, hencode⟩⟩
  encode_decode hdecode := by
    obtain ⟨hsize, hdecode⟩ := decodeWire_eq_ok.mp hdecode
    obtain ⟨hfits, hencode⟩ := decode_eq_ok.mp hdecode
    exact ⟨hfits, encodeWire_eq_ok.mpr ⟨hencode, hsize⟩⟩

theorem wire_prefixFree (maximum : ℕ) :
    PrefixFree (fun value : α => encodeWire value maximum) fits := by
  intro value value' bytes rest hfits hfits' hencode hencode'
  exact Wire.exact.prefixFree hfits hfits' (encodeWire_eq_ok.mp hencode).1
    (encodeWire_eq_ok.mp hencode').1

end Wire

def encodeRom (commitment : RomCommitment akita) : Except NativeReceiptError (List Byte) :=
  encodeWire commitment maxNativeRomCommitmentBytes

def decodeRom (bytes : List Byte) : Except NativeReceiptError (RomCommitment akita) :=
  decodeWire maxNativeRomCommitmentBytes bytes

def encodeSegment (segment : NativeSegmentReceipt akita) : Except NativeReceiptError (List Byte) :=
  encodeWire segment maxNativeSegmentBytes

def decodeSegment (bytes : List Byte) : Except NativeReceiptError (NativeSegmentReceipt akita) :=
  decodeWire maxNativeSegmentBytes bytes

/-! ## Whole receipts -/

def receiptMagicV1 : Vector Byte 8 := ⟨(asciiBytes "ZKSM83R1").toArray, by decide⟩
def receiptMagicV2 : Vector Byte 8 := ⟨(asciiBytes "ZKSM83R2").toArray, by decide⟩

def receiptMagic : NativeProtocolVersion → Vector Byte 8
  | .v2 => receiptMagicV2

def protocolFromReceiptMagic (magic : Vector Byte 8) :
    Except NativeReceiptError NativeProtocolVersion :=
  if magic = receiptMagicV1 then .error .unsupportedBackend
  else if magic = receiptMagicV2 then .ok .v2
  else .error (.wire "receipt magic")

def statementFrame : Codec NativeReceiptError Byte NativeStatement :=
  .framed ((Wire.blob maxNativeStatementBytes).mapError mapWire) encodeStatement decodeStatement

def romFrame : Codec NativeReceiptError Byte (RomCommitment akita) :=
  .framed ((Wire.blob maxNativeRomCommitmentBytes).mapError mapWire) encodeRom decodeRom

def segmentFrame : Codec NativeReceiptError Byte (NativeSegmentReceipt akita) :=
  .framed ((Wire.blob maxNativeSegmentBytes).mapError mapWire) encodeSegment decodeSegment

/-- The number of segments. -/
def segmentCount : Codec NativeReceiptError Byte ℕ :=
  (Wire.usize maxNativeSegmentCount).mapError mapWire

def encodeReceipt (receipt : NativeReceipt akita) : Except NativeReceiptError (List Byte) := do
  ensureCurrentProtocol receipt.version
  rejectIf (receipt.statement.protocol ≠ receipt.version) .unsupportedBackend
  let statement ← statementFrame.encode receipt.statement
  let rom ← romFrame.encode receipt.rom
  let count ← segmentCount.encode receipt.segments.length
  let segments ← segmentFrame.encodeMany receipt.segments
  ensureSize ((receiptMagic receipt.version).toList ++ leBytes 8 receipt.version.code.toNat ++
    statement ++ rom ++ count ++ segments) maxNativeReceiptBytes

def decodeReceipt (bytes : List Byte) : Except NativeReceiptError (NativeReceipt akita) := do
  rejectIf (maxNativeReceiptBytes < bytes.length) (.wire "receipt length limit")
  let (magic, rest) ← (WireReader.fixed 8 bytes).mapError mapWire
  let protocol ← protocolFromReceiptMagic magic
  let (versionCode, rest) ← (Wire.u64.decode rest).mapError mapWire
  let version ← someOr (NativeProtocolVersion.fromCode versionCode) .unsupportedBackend
  rejectIf (version ≠ protocol) .unsupportedBackend
  let (statement, rest) ← statementFrame.decode rest
  rejectIf (statement.protocol ≠ protocol) .unsupportedBackend
  let (rom, rest) ← romFrame.decode rest
  let (length, rest) ← segmentCount.decode rest
  let (segments, rest) ← segmentFrame.decodeMany length rest
  (WireReader.finish rest).mapError mapWire
  return ⟨version, statement, rom, segments⟩

/-! ## The encoding of receipts -/

/-- What stands behind the magic and the version of a receipt. -/
def receiptFields : Codec NativeReceiptError Byte
    (NativeStatement × RomCommitment akita × List (NativeSegmentReceipt akita)) :=
  statementFrame.pair (romFrame.pair (.counted segmentCount segmentFrame))

theorem statementFrame_exact : statementFrame.Exact (fun _ => True) :=
  ((Wire.blob_exact (by decide)).mapError mapWire).framed statement_roundTrips
    (fun _ _ hencode => (encodeStatement_eq_ok.mp hencode).choose_spec.2.2)

theorem romFrame_exact : (romFrame : Codec _ _ (RomCommitment akita)).Exact fits :=
  ((Wire.blob_exact (by decide)).mapError mapWire).framed (wire_roundTrips _)
    (fun _ _ hencode => (encodeWire_eq_ok.mp hencode).2)

theorem segmentFrame_exact : (segmentFrame : Codec _ _ (NativeSegmentReceipt akita)).Exact fits :=
  ((Wire.blob_exact (by decide)).mapError mapWire).framed (wire_roundTrips _)
    (fun _ _ hencode => (encodeWire_eq_ok.mp hencode).2)

theorem segmentCount_exact : segmentCount.Exact (· ≤ maxNativeSegmentCount) :=
  (Wire.usize_exact (by decide)).mapError mapWire

/-- The sequences in a receipt are short enough for its reader. -/
def FieldsFit (fields : NativeStatement × RomCommitment akita ×
    List (NativeSegmentReceipt akita)) : Prop :=
  fits fields.2.1 ∧ fields.2.2.length ≤ maxNativeSegmentCount ∧
    ∀ segment ∈ fields.2.2, fits segment

def NativeReceipt.Fits (receipt : NativeReceipt akita) : Prop :=
  FieldsFit (receipt.statement, receipt.rom, receipt.segments)

theorem receiptFields_exact : (@receiptFields akita).Exact FieldsFit :=
  (statementFrame_exact.pair (romFrame_exact.pair (segmentFrame_exact.counted
    segmentCount_exact))).congr (fun _ => by simp [FieldsFit])

/-- The front of every receipt: the magic and the code of the version. -/
def receiptFront (version : NativeProtocolVersion) : List Byte :=
  (receiptMagic version).toList ++ leBytes 8 version.code.toNat

theorem encode_receiptFields {statement : NativeStatement} {rom : RomCommitment akita}
    {segments : List (NativeSegmentReceipt akita)} {fields : List Byte} :
    receiptFields.encode (statement, rom, segments) = .ok fields ↔ ∃ statementBytes romBytes count
      frames, statementFrame.encode statement = .ok statementBytes ∧
      romFrame.encode rom = .ok romBytes ∧ segmentCount.encode segments.length = .ok count ∧
      segmentFrame.encodeMany segments = .ok frames ∧
      fields = statementBytes ++ (romBytes ++ (count ++ frames)) := by
  constructor
  · intro h
    obtain ⟨statementBytes, hstatement, h⟩ := Except.bind_eq_ok.mp h
    obtain ⟨back, hback, h⟩ := Except.bind_eq_ok.mp h
    obtain ⟨romBytes, hrom, hback⟩ := Except.bind_eq_ok.mp hback
    obtain ⟨last, hlast, hback⟩ := Except.bind_eq_ok.mp hback
    obtain ⟨count, hcount, hlast⟩ := Except.bind_eq_ok.mp hlast
    obtain ⟨frames, hframes, hlast⟩ := Except.bind_eq_ok.mp hlast
    cases h
    cases hback
    cases hlast
    exact ⟨_, _, _, _, hstatement, hrom, hcount, hframes, rfl⟩
  · rintro ⟨statementBytes, romBytes, count, frames, hstatement, hrom, hcount, hframes, rfl⟩
    exact Except.bind_eq_ok.mpr ⟨_, hstatement, Except.bind_eq_ok.mpr ⟨_, Except.bind_eq_ok.mpr
      ⟨_, hrom, Except.bind_eq_ok.mpr ⟨_, Except.bind_eq_ok.mpr ⟨_, hcount, Except.bind_eq_ok.mpr
        ⟨_, hframes, rfl⟩⟩, rfl⟩⟩, rfl⟩⟩

theorem encodeReceipt_eq_ok {receipt : NativeReceipt akita} {bytes : List Byte} :
    encodeReceipt receipt = .ok bytes ↔ ∃ fields,
      receiptFields.encode (receipt.statement, receipt.rom, receipt.segments) = .ok fields ∧
      bytes = receiptFront receipt.version ++ fields ∧ bytes.length ≤ maxNativeReceiptBytes := by
  have hprotocol : ¬ receipt.statement.protocol ≠ receipt.version :=
    not_not_intro ((protocol_eq _).trans (protocol_eq _).symm)
  unfold encodeReceipt
  constructor
  · intro h
    obtain ⟨_, h⟩ := Except.check_eq_ok.mp h
    obtain ⟨_, h⟩ := Except.check_eq_ok.mp h
    obtain ⟨statementBytes, hstatement, h⟩ := Except.bind_eq_ok.mp h
    obtain ⟨romBytes, hrom, h⟩ := Except.bind_eq_ok.mp h
    obtain ⟨count, hcount, h⟩ := Except.bind_eq_ok.mp h
    obtain ⟨frames, hframes, h⟩ := Except.bind_eq_ok.mp h
    rw [ensureSize_eq_ok] at h
    obtain ⟨hsize, rfl⟩ := h
    refine ⟨_, encode_receiptFields.mpr ⟨_, _, _, _, hstatement, hrom, hcount, hframes, rfl⟩, ?_,
      hsize⟩
    simp only [receiptFront, List.append_assoc]
  · rintro ⟨fields, hfields, rfl, hsize⟩
    obtain ⟨statementBytes, romBytes, count, frames, hstatement, hrom, hcount, hframes, rfl⟩ :=
      encode_receiptFields.mp hfields
    refine Except.check_eq_ok.mpr ⟨ensureCurrentProtocol_eq _, Except.check_eq_ok.mpr
      ⟨rejectIf_eq_ok.mpr hprotocol, Except.bind_eq_ok.mpr ⟨_, hstatement, Except.bind_eq_ok.mpr
        ⟨_, hrom, Except.bind_eq_ok.mpr ⟨_, hcount, Except.bind_eq_ok.mpr ⟨_, hframes, ?_⟩⟩⟩⟩⟩⟩
    have hbytes : receiptFront receipt.version ++ (statementBytes ++ (romBytes ++
        (count ++ frames))) = (receiptMagic receipt.version).toList ++
        leBytes 8 receipt.version.code.toNat ++ statementBytes ++ romBytes ++ count ++ frames := by
      simp only [receiptFront, List.append_assoc]
    rw [hbytes] at hsize ⊢
    exact ensureSize_eq_ok.mpr ⟨hsize, rfl⟩

theorem protocolFromReceiptMagic_eq_ok {magic : Vector Byte 8}
    {protocol : NativeProtocolVersion} :
    protocolFromReceiptMagic magic = .ok protocol ↔ magic = receiptMagic protocol := by
  cases protocol
  unfold protocolFromReceiptMagic
  by_cases hV1 : magic = receiptMagicV1
  · rw [if_pos hV1, hV1]
    exact ⟨nofun, fun h => absurd h (by decide)⟩
  · rw [if_neg hV1]
    by_cases hV2 : magic = receiptMagicV2
    · rw [if_pos hV2]
      exact ⟨fun _ => hV2, fun _ => rfl⟩
    · rw [if_neg hV2]
      exact ⟨nofun, fun h => absurd h hV2⟩

theorem decode_receiptFields {statement : NativeStatement} {rom : RomCommitment akita}
    {segments : List (NativeSegmentReceipt akita)} {input rest : List Byte} :
    receiptFields.decode input = .ok ((statement, rom, segments), rest) ↔
      ∃ first second length third, statementFrame.decode input = .ok (statement, first) ∧
      romFrame.decode first = .ok (rom, second) ∧
      segmentCount.decode second = .ok (length, third) ∧
      segmentFrame.decodeMany length third = .ok (segments, rest) := by
  constructor
  · intro h
    obtain ⟨⟨statement', first⟩, hstatement, h⟩ := Except.bind_eq_ok.mp h
    obtain ⟨⟨back, rest'⟩, hback, h⟩ := Except.bind_eq_ok.mp h
    obtain ⟨⟨rom', second⟩, hrom, hback⟩ := Except.bind_eq_ok.mp hback
    obtain ⟨⟨segments', rest''⟩, hlast, hback⟩ := Except.bind_eq_ok.mp hback
    obtain ⟨⟨length, third⟩, hlength, hmany⟩ := Except.bind_eq_ok.mp hlast
    cases hback
    cases h
    exact ⟨_, _, _, _, hstatement, hrom, hlength, hmany⟩
  · rintro ⟨first, second, length, third, hstatement, hrom, hlength, hmany⟩
    exact Except.bind_eq_ok.mpr ⟨_, hstatement, Except.bind_eq_ok.mpr ⟨_, Except.bind_eq_ok.mpr
      ⟨_, hrom, Except.bind_eq_ok.mpr ⟨_, Except.bind_eq_ok.mpr ⟨_, hlength, hmany⟩, rfl⟩⟩, rfl⟩⟩

/-- The front of a receipt, read. -/
theorem decode_receiptFront {version : NativeProtocolVersion} {input fields : List Byte} :
    input = receiptFront version ++ fields ↔ ∃ rest,
      WireReader.fixed 8 input = .ok (receiptMagic version, rest) ∧
      Wire.u64.decode rest = .ok (version.code, fields) := by
  constructor
  · rintro rfl
    have hmagic := (Wire.fixed_exact 8).decode_encode trivial
      (rfl : _ = Except.ok (receiptMagic version).toList)
      (leBytes 8 version.code.toNat ++ fields)
    have hcode := Wire.u64_exact.decode_encode trivial
      (congrArg Except.ok (toList_u64ToLeBytes version.code)) fields
    rw [← List.append_assoc] at hmagic
    exact ⟨_, hmagic, hcode⟩
  · rintro ⟨rest, hmagic, hcode⟩
    obtain ⟨_, front, hfront, rfl⟩ := (Wire.fixed_exact 8).encode_decode hmagic
    obtain ⟨_, code, hencode, rfl⟩ := Wire.u64_exact.encode_decode hcode
    cases hfront
    have hbytes := hencode.symm.trans (congrArg Except.ok (toList_u64ToLeBytes version.code))
    cases hbytes
    rw [receiptFront, List.append_assoc]

theorem decodeReceipt_eq_ok {receipt : NativeReceipt akita} {bytes : List Byte} :
    decodeReceipt bytes = .ok receipt ↔ ∃ fields,
      bytes = receiptFront receipt.version ++ fields ∧ bytes.length ≤ maxNativeReceiptBytes ∧
      receiptFields.decode fields =
        .ok ((receipt.statement, receipt.rom, receipt.segments), []) := by
  unfold decodeReceipt
  constructor
  · intro h
    obtain ⟨hsize, h⟩ := Except.check_eq_ok.mp h
    obtain ⟨⟨magic, rest⟩, hmagic, h⟩ := Except.bind_eq_ok.mp h
    obtain ⟨protocol, hprotocol, h⟩ := Except.bind_eq_ok.mp h
    obtain ⟨⟨code, fields⟩, hcode, h⟩ := Except.bind_eq_ok.mp h
    obtain ⟨version, hversion, h⟩ := Except.bind_eq_ok.mp h
    obtain ⟨hsame, h⟩ := Except.check_eq_ok.mp h
    obtain ⟨⟨statement, first⟩, hstatement, h⟩ := Except.bind_eq_ok.mp h
    obtain ⟨_, h⟩ := Except.check_eq_ok.mp h
    obtain ⟨⟨rom, second⟩, hrom, h⟩ := Except.bind_eq_ok.mp h
    obtain ⟨⟨length, third⟩, hlength, h⟩ := Except.bind_eq_ok.mp h
    obtain ⟨⟨segments, last⟩, hsegments, h⟩ := Except.bind_eq_ok.mp h
    obtain ⟨hfinish, h⟩ := Except.check_eq_ok.mp h
    cases h
    rw [Except.mapError_eq_ok] at hmagic hcode
    obtain rfl := finish_eq_ok.mp (Except.mapError_eq_ok.mp hfinish)
    obtain rfl := protocolFromReceiptMagic_eq_ok.mp hprotocol
    obtain rfl := not_not.mp (rejectIf_eq_ok.mp hsame)
    obtain rfl := NativeProtocolVersion.fromCode_eq_some.mp (someOr_eq_ok.mp hversion)
    exact ⟨fields, decode_receiptFront.mpr ⟨_, hmagic, hcode⟩, not_lt.mp (rejectIf_eq_ok.mp hsize),
      decode_receiptFields.mpr ⟨_, _, _, _, hstatement, hrom, hlength, hsegments⟩⟩
  · rintro ⟨fields, hbytes, hsize, hfields⟩
    obtain ⟨rest, hmagic, hcode⟩ := decode_receiptFront.mp hbytes
    obtain ⟨first, second, length, third, hstatement, hrom, hlength, hsegments⟩ :=
      decode_receiptFields.mp hfields
    have hprotocol : ¬ receipt.statement.protocol ≠ receipt.version :=
      not_not_intro ((protocol_eq _).trans (protocol_eq _).symm)
    exact Except.check_eq_ok.mpr ⟨rejectIf_eq_ok.mpr (not_lt.mpr hsize), Except.bind_eq_ok.mpr
      ⟨_, Except.mapError_eq_ok.mpr hmagic, Except.bind_eq_ok.mpr
      ⟨_, protocolFromReceiptMagic_eq_ok.mpr rfl, Except.bind_eq_ok.mpr
      ⟨_, Except.mapError_eq_ok.mpr hcode, Except.bind_eq_ok.mpr
      ⟨_, someOr_eq_ok.mpr (NativeProtocolVersion.fromCode_eq_some.mpr rfl), Except.check_eq_ok.mpr
      ⟨rejectIf_eq_ok.mpr (not_not_intro rfl), Except.bind_eq_ok.mpr
      ⟨_, hstatement, Except.check_eq_ok.mpr ⟨rejectIf_eq_ok.mpr hprotocol, Except.bind_eq_ok.mpr
      ⟨_, hrom, Except.bind_eq_ok.mpr ⟨_, hlength, Except.bind_eq_ok.mpr
      ⟨_, hsegments, rfl⟩⟩⟩⟩⟩⟩⟩⟩⟩⟩⟩

/-- A receipt decodes from its encoding, and only from it. -/
theorem receipt_roundTrips :
    RoundTrips (@encodeReceipt akita) decodeReceipt NativeReceipt.Fits where
  decode_encode := by
    intro receipt bytes hfits hencode
    obtain ⟨fields, hfields, hbytes, hsize⟩ := encodeReceipt_eq_ok.mp hencode
    have hdecode := receiptFields_exact.decode_encode hfits hfields []
    rw [List.append_nil] at hdecode
    exact decodeReceipt_eq_ok.mpr ⟨fields, hbytes, hsize, hdecode⟩
  encode_decode := by
    intro bytes receipt hdecode
    obtain ⟨fields, hbytes, hsize, hfields⟩ := decodeReceipt_eq_ok.mp hdecode
    obtain ⟨hfits, inner, hencode, rfl⟩ := receiptFields_exact.encode_decode hfields
    rw [List.append_nil] at hbytes
    exact ⟨hfits, encodeReceipt_eq_ok.mpr ⟨inner, hencode, hbytes, hsize⟩⟩

theorem receipt_prefixFree :
    PrefixFree (@encodeReceipt akita) NativeReceipt.Fits := by
  intro receipt receipt' bytes rest hfits hfits' hencode hencode'
  obtain ⟨fields, hfields, rfl, -⟩ := encodeReceipt_eq_ok.mp hencode
  obtain ⟨fields', hfields', hbytes, -⟩ := encodeReceipt_eq_ok.mp hencode'
  rw [protocol_eq receipt.version, List.append_assoc, List.append_cancel_left_eq] at hbytes
  rw [← hbytes] at hfields'
  exact receiptFields_exact.prefixFree hfits hfits' hfields hfields'

end Zksm83
