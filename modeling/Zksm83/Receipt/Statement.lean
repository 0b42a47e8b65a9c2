import Zksm83.Memory.Sha256
import Zksm83.Receipt.Identity

/-!
# Statements

The public statement that a receipt authenticates, its encoding and its checks. The encoding is
canonical: the accepted byte strings are the encodings of valid statements, one for each. The
digest in a statement binds every field in front of it, since what is hashed is the encoding of
these fields. After `receipt.rs`, `receipt/wire.rs` and `receipt/identity.rs`; read
`statement_encoding` first.
-/

namespace Zksm83

open Wire (codec)

structure NativeStatement where
  protocol : NativeProtocolVersion
  backendDigest : Digest
  machineProfile : UInt64
  romByteLength : UInt64
  rom : CommitmentIdentity
  initial : NativeBoundary
  finalBoundary : NativeBoundary
  segmentCount : UInt64
  transitionCount : UInt64
  relationRowCount : UInt64
  mCycleCount : UInt64
  logs : ProtocolLogCounts
  statementId : Digest
  deriving DecidableEq

/-! ## Identities and boundaries on the wire -/

instance : Wire CommitmentKind :=
  ⟨Wire.u64.viaCode CommitmentKind.code CommitmentKind.fromCode .shape, _,
    Wire.u64_exact.viaCode (fun _ _ => CommitmentKind.fromCode_eq_some)⟩

instance : Wire CommitmentIdentity :=
  .struct (fun value => (value.kind, value.layoutDigest, value.committedLength, value.digest))
    (fun (kind, layoutDigest, committedLength, digest) =>
      ⟨kind, layoutDigest, committedLength, digest⟩)
    (fun _ => rfl) (fun _ => rfl)

instance : Wire ProtocolLogIdentities :=
  .struct (fun value => (value.bus, value.input, value.output, value.isa))
    (fun (bus, input, output, isa) => ⟨bus, input, output, isa⟩) (fun _ => rfl) (fun _ => rfl)

instance : Wire ProtocolLogCounts :=
  .struct (fun value => (value.bus, value.input, value.output, value.isa))
    (fun (bus, input, output, isa) => ⟨bus, input, output, isa⟩) (fun _ => rfl) (fun _ => rfl)

/-- The scalars of a boundary: as many words as there are, with no count in front. -/
instance : Wire (Vector UInt64 stateScalarCount) :=
  ⟨codec.vector stateScalarCount .shape, _, Wire.exact.vector stateScalarCount .shape⟩

instance : Wire NativeStateBoundary :=
  .struct (fun value => Vector.ofFn value.scalars) (fun scalars => ⟨fun index => scalars[index]⟩)
    (fun value => by
      cases value
      simp)
    (fun scalars => by
      apply Vector.ext
      intro index hindex
      simp)

instance : Wire NativeBoundary :=
  .struct (fun value => (value.state, value.memory, value.logs))
    (fun (state, memory, logs) => ⟨state, memory, logs⟩) (fun _ => rfl) (fun _ => rfl)

/-! ## The statement on the wire -/

abbrev maxNativeStatementBytes : ℕ := 16 * 1024

def statementMagicV1 : Vector Byte 8 := ⟨(asciiBytes "ZKSM83S1").toArray, by decide⟩
def statementMagicV2 : Vector Byte 8 := ⟨(asciiBytes "ZKSM83S2").toArray, by decide⟩

def statementMagic : NativeProtocolVersion → Vector Byte 8
  | .v2 => statementMagicV2

def protocolFromStatementMagic (magic : Vector Byte 8) :
    Except NativeReceiptError NativeProtocolVersion :=
  if magic = statementMagicV1 then .error .unsupportedBackend
  else if magic = statementMagicV2 then .ok .v2
  else .error (.wire "statement magic")

def ensureCurrentProtocol (protocol : NativeProtocolVersion) : Except NativeReceiptError Unit :=
  if protocol ≠ .current then .error .unsupportedBackend else .ok ()

def ensureSize (bytes : List Byte) (maximum : ℕ) : Except NativeReceiptError (List Byte) :=
  if maximum < bytes.length then .error (.wire "encoded length limit") else .ok bytes

def mapWire (error : WireError) : NativeReceiptError := .wire error.toText

def WireReader.finish (input : List Byte) : Except WireError Unit :=
  if input.isEmpty then .ok () else .error .trailingBytes

/-- The fields of a statement of a protocol, in wire order. -/
def statementFields (protocol : NativeProtocolVersion) : Codec WireError Byte NativeStatement :=
  (codec (α := Digest × UInt64 × UInt64 × CommitmentIdentity × NativeBoundary × NativeBoundary ×
    UInt64 × UInt64 × UInt64 × UInt64 × ProtocolLogCounts × Digest)).via
    (fun value => (value.backendDigest, value.machineProfile, value.romByteLength, value.rom,
      value.initial, value.finalBoundary, value.segmentCount, value.transitionCount,
      value.relationRowCount, value.mCycleCount, value.logs, value.statementId))
    (fun (backendDigest, machineProfile, romByteLength, rom, initial, finalBoundary, segmentCount,
        transitionCount, relationRowCount, mCycleCount, logs, statementId) =>
      ⟨protocol, backendDigest, machineProfile, romByteLength, rom, initial, finalBoundary,
        segmentCount, transitionCount, relationRowCount, mCycleCount, logs, statementId⟩)

def encodeStatement (statement : NativeStatement) : Except NativeReceiptError (List Byte) := do
  ensureCurrentProtocol statement.protocol
  let fields ← ((statementFields statement.protocol).encode statement).mapError mapWire
  ensureSize ((statementMagic statement.protocol).toList ++ fields) maxNativeStatementBytes

def decodeStatement (bytes : List Byte) : Except NativeReceiptError NativeStatement := do
  if maxNativeStatementBytes < bytes.length then throw (.wire "statement length limit")
  let (magic, rest) ← (WireReader.fixed 8 bytes).mapError mapWire
  let protocol ← protocolFromStatementMagic magic
  let (statement, rest) ← ((statementFields protocol).decode rest).mapError mapWire
  (WireReader.finish rest).mapError mapWire
  return statement

/-! ## Digest and checks -/

abbrev maxNativeSegmentCount : ℕ := 4096

namespace NativeStatement

variable (sha256 : List Byte → Digest)

/-- The fields in front of the identifier, appended to a hash. -/
def append (statement : NativeStatement) (hash : CanonicalHash) : CanonicalHash :=
  let hash := ((hash.fixed statement.backendDigest).u64 statement.machineProfile).u64
    statement.romByteLength
  let hash := statement.finalBoundary.append (statement.initial.append (statement.rom.append hash))
  let hash := (((hash.u64 statement.segmentCount).u64 statement.transitionCount).u64
    statement.relationRowCount).u64 statement.mCycleCount
  statement.logs.append hash

/-- What is hashed of a statement. -/
def digestInput (statement : NativeStatement) : List Byte :=
  (statement.append (.new (v2Domain statement.protocol statementDomainV2))).bytes

/-- The digest of a statement, its identifier. -/
def computeId (statement : NativeStatement) : Digest := sha256 statement.digestInput

def validate (statement : NativeStatement) : Except NativeReceiptError Unit := do
  rejectIf (statement.protocol ≠ .current) .unsupportedBackend
  rejectIf (statement.backendDigest ≠ Zksm83.backendDigest sha256 statement.protocol)
    .unsupportedBackend
  let romByteLength ← romByteLengthForMachineProfile statement.machineProfile
  rejectIf (statement.romByteLength ≠ romByteLength) .invalidStatement
  let maximumTransitions := statement.relationRowCount.toNat * basicBlockInstructionBound
  rejectIf (2 ^ 64 ≤ maximumTransitions) .counter
  rejectIf (statement.segmentCount = 0 ∨ maxNativeSegmentCount < statement.segmentCount.toNat ∨
    statement.relationRowCount = 0 ∨ statement.relationRowCount < statement.segmentCount ∨
    statement.transitionCount < statement.relationRowCount ∨
    maximumTransitions < statement.transitionCount.toNat) .invalidStatement
  statement.rom.validateFor sha256 statement.protocol .rom statement.romByteLength
  statement.initial.validateFor sha256 statement.protocol
  statement.finalBoundary.validateFor sha256 statement.protocol
  let initialProfile ← statement.initial.machineProfile
  rejectIf (statement.machineProfile ≠ initialProfile) .invalidStatement
  let finalProfile ← statement.finalBoundary.machineProfile
  rejectIf (statement.machineProfile ≠ finalProfile) .invalidStatement
  let mCycleCount ← checkedDelta statement.initial.mCycles statement.finalBoundary.mCycles
  rejectIf (statement.mCycleCount ≠ mCycleCount) .invalidStatement
  let logs ← ProtocolLogCounts.between statement.initial statement.finalBoundary
  rejectIf (statement.logs ≠ logs) .invalidStatement
  rejectIf (statement.statementId ≠ statement.computeId sha256) .invalidStatement

/-- A statement between two boundaries, with the counts that follow from them. -/
def newFor (protocol : NativeProtocolVersion) (rom : CommitmentIdentity)
    (initial finalBoundary : NativeBoundary) (segmentCount transitionCount relationRowCount : UInt64) :
    Except NativeReceiptError NativeStatement := do
  let machineProfile ← initial.machineProfile
  let mCycleCount ← checkedDelta initial.mCycles finalBoundary.mCycles
  let logs ← ProtocolLogCounts.between initial finalBoundary
  let statement : NativeStatement := ⟨protocol, Zksm83.backendDigest sha256 protocol,
    machineProfile, rom.committedLength, rom, initial, finalBoundary, segmentCount,
    transitionCount, relationRowCount, mCycleCount, logs, .replicate 32 0⟩
  let statement := { statement with statementId := statement.computeId sha256 }
  statement.validate sha256
  return statement

/-- The encoding for out-of-band pinning. -/
def toBytes (statement : NativeStatement) : Except NativeReceiptError (List Byte) :=
  encodeStatement statement

def fromBytes (bytes : List Byte) : Except NativeReceiptError NativeStatement := do
  let statement ← decodeStatement bytes
  statement.validate sha256
  return statement

end NativeStatement

/-! ## What is hashed is what is encoded -/

/-- Appending a value to a hash appends its encoding. -/
def Appends {α : Type} [Wire α] (append : CanonicalHash → α → CanonicalHash) : Prop :=
  ∀ value, ∃ bytes, codec.encode value = .ok bytes ∧
    ∀ hash, (append hash value).bytes = hash.bytes ++ bytes

theorem appends_u64 : Appends CanonicalHash.u64 := fun value =>
  ⟨leBytes 8 value.toNat, congrArg Except.ok (toList_u64ToLeBytes value), fun _ => rfl⟩

theorem appends_fixed : Appends CanonicalHash.fixed := fun value =>
  ⟨value.toList, rfl, fun _ => rfl⟩

theorem appends_kind :
    Appends (fun (hash : CanonicalHash) (kind : CommitmentKind) => hash.u64 kind.code) :=
  fun kind => appends_u64 kind.code

theorem Appends.pair {α β : Type} [Wire α] [Wire β] {append : CanonicalHash → α → CanonicalHash}
    {append' : CanonicalHash → β → CanonicalHash} (hfirst : Appends append)
    (hsecond : Appends append') :
    Appends (fun hash (value : α × β) => append' (append hash value.1) value.2) := by
  intro value
  obtain ⟨front, hfront, happend⟩ := hfirst value.1
  obtain ⟨back, hback, happend'⟩ := hsecond value.2
  refine ⟨front ++ back, ?_, ?_⟩
  · show (codec.encode value.1 >>= _) = _
    rw [hfront]
    show (codec.encode value.2 >>= _) = _
    rw [hback]
    rfl
  · intro hash
    rw [happend', happend, List.append_assoc]

/-- Appending the members of a list in order. -/
theorem Appends.many {α : Type} [Wire α] {append : CanonicalHash → α → CanonicalHash}
    (happend : Appends append) (values : List α) :
    ∃ bytes, codec.encodeMany values = .ok bytes ∧
      ∀ hash, (values.foldl append hash).bytes = hash.bytes ++ bytes := by
  induction values with
  | nil => exact ⟨[], rfl, fun hash => (List.append_nil _).symm⟩
  | cons value values ih =>
    obtain ⟨front, hfront, hhead⟩ := happend value
    obtain ⟨back, hback, htail⟩ := ih
    refine ⟨front ++ back, ?_, ?_⟩
    · show (codec.encode value >>= _) = _
      rw [hfront]
      show (codec.encodeMany values >>= _) = _
      rw [hback]
      rfl
    · intro hash
      rw [List.foldl_cons, htail, hhead, List.append_assoc]

theorem appends_identity : Appends (fun hash identity => CommitmentIdentity.append identity hash) :=
  fun identity => (appends_kind.pair (appends_fixed.pair (appends_u64.pair appends_fixed)))
    (identity.kind, identity.layoutDigest, identity.committedLength, identity.digest)

theorem appends_logs : Appends (fun hash logs => ProtocolLogIdentities.append logs hash) :=
  fun logs => (appends_identity.pair (appends_identity.pair (appends_identity.pair
    appends_identity))) (logs.bus, logs.input, logs.output, logs.isa)

theorem appends_counts : Appends (fun hash counts => ProtocolLogCounts.append counts hash) :=
  fun counts => (appends_u64.pair (appends_u64.pair (appends_u64.pair appends_u64)))
    (counts.bus, counts.input, counts.output, counts.isa)

theorem appends_state : Appends (fun hash (state : NativeStateBoundary) =>
    (List.ofFn state.scalars).foldl CanonicalHash.u64 hash) := by
  intro state
  obtain ⟨bytes, hbytes, happend⟩ := appends_u64.many (List.ofFn state.scalars)
  have hscalars : (Vector.ofFn state.scalars).toList = List.ofFn state.scalars :=
    Vector.toList_ofFn
  refine ⟨bytes, ?_, happend⟩
  show (Codec.via (codec (α := Vector UInt64 stateScalarCount)) _ _).encode state = _
  rw [Codec.encode_via]
  show (Codec.vector (codec (α := UInt64)) _ _).encode _ = _
  rw [Codec.encode_vector, hscalars, hbytes]

theorem appends_boundary : Appends (fun hash boundary => NativeBoundary.append boundary hash) :=
  fun boundary => (appends_state.pair (appends_identity.pair appends_logs))
    (boundary.state, boundary.memory, boundary.logs)

/-- The encoded fields of a statement: what is hashed of it, behind the domain, and its
identifier. -/
theorem NativeStatement.encode_fields (statement : NativeStatement) :
    ∃ body, (∀ hash, (statement.append hash).bytes = hash.bytes ++ body) ∧
      (statementFields statement.protocol).encode statement =
        .ok (body ++ statement.statementId.toList) := by
  have hfields := (appends_fixed.pair (appends_u64.pair (appends_u64.pair (appends_identity.pair
    (appends_boundary.pair (appends_boundary.pair (appends_u64.pair (appends_u64.pair
    (appends_u64.pair (appends_u64.pair (appends_counts.pair appends_fixed)))))))))))
    (statement.backendDigest, statement.machineProfile, statement.romByteLength, statement.rom,
      statement.initial, statement.finalBoundary, statement.segmentCount,
      statement.transitionCount, statement.relationRowCount, statement.mCycleCount, statement.logs,
      statement.statementId)
  obtain ⟨bytes, hencode, happend⟩ := hfields
  have hhash (hash : CanonicalHash) : (statement.append hash).bytes ++
      statement.statementId.toList = hash.bytes ++ bytes := happend hash
  have hbytes : bytes = (statement.append ⟨[]⟩).bytes ++ statement.statementId.toList :=
    (hhash ⟨[]⟩).symm
  refine ⟨(statement.append ⟨[]⟩).bytes, ?_, ?_⟩
  · intro hash
    have hfull := hhash hash
    rw [hbytes, ← List.append_assoc] at hfull
    exact List.append_cancel_right hfull
  · rw [← hbytes]
    exact hencode

/-! ## The encoding of statements -/

theorem protocol_eq (protocol : NativeProtocolVersion) : protocol = .v2 := by
  cases protocol
  rfl

theorem statementFields_exact (protocol : NativeProtocolVersion) :
    (statementFields protocol).Exact (fun _ => True) := by
  refine (Wire.exact.via ?_ (fun _ => rfl)).congr ?_
  · rintro ⟨protocol', _⟩
    rw [protocol_eq protocol, protocol_eq protocol']
  · intro value
    simp [Wire.fits]

theorem protocolFromStatementMagic_eq_ok {magic : Vector Byte 8}
    {protocol : NativeProtocolVersion} :
    protocolFromStatementMagic magic = .ok protocol ↔ magic = statementMagic protocol := by
  cases protocol
  unfold protocolFromStatementMagic
  by_cases hV1 : magic = statementMagicV1
  · rw [if_pos hV1, hV1]
    exact ⟨nofun, fun h => absurd h (by decide)⟩
  · rw [if_neg hV1]
    by_cases hV2 : magic = statementMagicV2
    · rw [if_pos hV2]
      exact ⟨fun _ => hV2, fun _ => rfl⟩
    · rw [if_neg hV2]
      exact ⟨nofun, fun h => absurd h hV2⟩

theorem ensureCurrentProtocol_eq (protocol : NativeProtocolVersion) :
    ensureCurrentProtocol protocol = .ok () := by
  cases protocol
  rfl

theorem ensureSize_eq_ok {bytes result : List Byte} {maximum : ℕ} :
    ensureSize bytes maximum = .ok result ↔ bytes.length ≤ maximum ∧ bytes = result := by
  unfold ensureSize
  split
  case isTrue hlt => exact ⟨nofun, fun h => absurd h.1 (not_le.mpr hlt)⟩
  case isFalse hle => rw [Except.ok.injEq, and_iff_right (not_lt.mp hle)]

theorem finish_eq_ok {input : List Byte} : WireReader.finish input = .ok () ↔ input = [] := by
  cases input with
  | nil => exact ⟨fun _ => rfl, fun _ => rfl⟩
  | cons => exact ⟨nofun, nofun⟩

theorem encodeStatement_eq_ok {statement : NativeStatement} {bytes : List Byte} :
    encodeStatement statement = .ok bytes ↔ ∃ fields,
      (statementFields statement.protocol).encode statement = .ok fields ∧
      bytes = (statementMagic statement.protocol).toList ++ fields ∧
      bytes.length ≤ maxNativeStatementBytes := by
  unfold encodeStatement
  constructor
  · intro hencode
    obtain ⟨_, _, hencode⟩ := Except.of_bind_eq_ok hencode
    obtain ⟨fields, hfields, hsize⟩ := Except.of_bind_eq_ok hencode
    rw [ensureSize_eq_ok] at hsize
    obtain ⟨hle, hbytes⟩ := hsize
    exact ⟨fields, Except.mapError_eq_ok.mp hfields, hbytes.symm, hbytes ▸ hle⟩
  · rintro ⟨fields, hfields, rfl, hle⟩
    exact Except.bind_eq_ok.mpr ⟨(), ensureCurrentProtocol_eq _, Except.bind_eq_ok.mpr
      ⟨fields, Except.mapError_eq_ok.mpr hfields, ensureSize_eq_ok.mpr ⟨hle, rfl⟩⟩⟩

theorem decodeStatement_eq_ok {statement : NativeStatement} {bytes : List Byte} :
    decodeStatement bytes = .ok statement ↔ bytes.length ≤ maxNativeStatementBytes ∧
      ∃ magic fields protocol, WireReader.fixed 8 bytes = .ok (magic, fields) ∧
        magic = statementMagic protocol ∧
        (statementFields protocol).decode fields = .ok (statement, []) := by
  unfold decodeStatement
  constructor
  · intro hdecode
    by_cases hsize : maxNativeStatementBytes < bytes.length
    · simp only [if_pos hsize] at hdecode
      cases hdecode
    · simp only [if_neg hsize] at hdecode
      obtain ⟨⟨magic, fields⟩, hmagic, hdecode⟩ := Except.of_bind_eq_ok hdecode
      obtain ⟨protocol, hprotocol, hdecode⟩ := Except.of_bind_eq_ok hdecode
      obtain ⟨⟨decoded, rest⟩, hfields, hdecode⟩ := Except.of_bind_eq_ok hdecode
      obtain ⟨_, hfinish, hdecode⟩ := Except.of_bind_eq_ok hdecode
      cases hdecode
      obtain rfl := finish_eq_ok.mp (Except.mapError_eq_ok.mp hfinish)
      exact ⟨not_lt.mp hsize, magic, fields, protocol, Except.mapError_eq_ok.mp hmagic,
        protocolFromStatementMagic_eq_ok.mp hprotocol, Except.mapError_eq_ok.mp hfields⟩
  · rintro ⟨hsize, magic, fields, protocol, hmagic, hprotocol, hfields⟩
    simp only [if_neg (not_lt.mpr hsize)]
    exact Except.bind_eq_ok.mpr ⟨_, Except.mapError_eq_ok.mpr hmagic, Except.bind_eq_ok.mpr
      ⟨protocol, protocolFromStatementMagic_eq_ok.mpr hprotocol, Except.bind_eq_ok.mpr
        ⟨_, Except.mapError_eq_ok.mpr hfields, rfl⟩⟩⟩

/-- A statement decodes from its encoding, and only from it. -/
theorem statement_roundTrips : RoundTrips encodeStatement decodeStatement (fun _ => True) where
  decode_encode := by
    intro statement bytes _ hencode
    obtain ⟨fields, hfields, rfl, hsize⟩ := encodeStatement_eq_ok.mp hencode
    have hmagic := (Wire.fixed_exact 8).decode_encode trivial
      (rfl : _ = Except.ok (statementMagic statement.protocol).toList) fields
    have hdecode := (statementFields_exact statement.protocol).decode_encode trivial hfields []
    rw [List.append_nil] at hdecode
    exact decodeStatement_eq_ok.mpr ⟨hsize, _, _, _, hmagic, rfl, hdecode⟩
  encode_decode := by
    intro bytes statement hdecode
    obtain ⟨hsize, magic, fields, protocol, hmagic, rfl, hfields⟩ :=
      decodeStatement_eq_ok.mp hdecode
    obtain ⟨_, front, hfront, rfl⟩ := (Wire.fixed_exact 8).encode_decode hmagic
    obtain ⟨_, body, hbody, rfl⟩ := (statementFields_exact protocol).encode_decode hfields
    cases hfront
    obtain rfl : protocol = statement.protocol :=
      (protocol_eq protocol).trans (protocol_eq statement.protocol).symm
    rw [List.append_nil] at hsize ⊢
    exact ⟨trivial, encodeStatement_eq_ok.mpr ⟨body, hbody, rfl, hsize⟩⟩

theorem statement_prefixFree : PrefixFree encodeStatement (fun _ => True) := by
  intro statement statement' bytes rest _ _ hencode hencode'
  obtain ⟨fields, hfields, rfl, -⟩ := encodeStatement_eq_ok.mp hencode
  obtain ⟨fields', hfields', hbytes, -⟩ := encodeStatement_eq_ok.mp hencode'
  rw [protocol_eq statement.protocol] at hfields hbytes
  rw [protocol_eq statement'.protocol] at hfields'
  rw [List.append_assoc, List.append_cancel_left_eq] at hbytes
  rw [← hbytes] at hfields'
  exact (statementFields_exact .v2).prefixFree trivial trivial hfields hfields'

namespace NativeStatement

@[simp] theorem length_u64 (hash : CanonicalHash) (value : UInt64) :
    (hash.u64 value).bytes.length = hash.bytes.length + 8 := by
  simp [CanonicalHash.u64]

@[simp] theorem length_fixed (hash : CanonicalHash) (digest : Digest) :
    (hash.fixed digest).bytes.length = hash.bytes.length + 32 := by
  simp [CanonicalHash.fixed]

@[simp] theorem length_append_identity (identity : CommitmentIdentity) (hash : CanonicalHash) :
    (identity.append hash).bytes.length = hash.bytes.length + 80 := by
  simp [CommitmentIdentity.append]

@[simp] theorem length_append_boundary (boundary : NativeBoundary) (hash : CanonicalHash) :
    (boundary.append hash).bytes.length = hash.bytes.length + 704 := by
  have hscalars (values : List UInt64) (hash : CanonicalHash) :
      (values.foldl CanonicalHash.u64 hash).bytes.length =
        hash.bytes.length + 8 * values.length := by
    induction values generalizing hash with
    | nil => rfl
    | cons value values ih =>
      rw [List.foldl_cons, ih, length_u64, List.length_cons]
      omega
  simp only [NativeBoundary.append, ProtocolLogIdentities.append, length_append_identity, hscalars,
    List.length_ofFn]
  show hash.bytes.length + 8 * 38 + 80 + 80 + 80 + 80 + 80 = hash.bytes.length + 704
  omega

/-- A statement is encoded in a fixed number of bytes. -/
theorem exists_encoding (statement : NativeStatement) :
    ∃ bytes, encodeStatement statement = .ok bytes ∧ bytes.length = 1640 := by
  obtain ⟨body, happend, hfields⟩ := statement.encode_fields
  have hbody : body.length = 1600 := by
    have hlength := congrArg List.length (happend ⟨[]⟩)
    simpa [append, ProtocolLogCounts.append] using hlength.symm
  have hlength : ((statementMagic statement.protocol).toList ++
      (body ++ statement.statementId.toList)).length = 1640 := by
    simp [hbody]
  exact ⟨_, encodeStatement_eq_ok.mpr ⟨_, hfields, rfl, by rw [hlength]; decide⟩, hlength⟩

/-- Statements with the same hashed bytes and identifiers are the same. -/
theorem eq_of_digestInput {statement statement' : NativeStatement}
    (hinput : statement.digestInput = statement'.digestInput)
    (hid : statement.statementId = statement'.statementId) : statement = statement' := by
  obtain ⟨body, happend, hfields⟩ := statement.encode_fields
  obtain ⟨body', happend', hfields'⟩ := statement'.encode_fields
  rw [digestInput, digestInput, happend, happend', protocol_eq statement.protocol,
    List.append_cancel_left_eq] at hinput
  rw [protocol_eq statement.protocol] at hfields
  rw [protocol_eq statement'.protocol, ← hinput, ← hid] at hfields'
  have hdecode := (statementFields_exact .v2).decode_encode trivial hfields []
  rw [(statementFields_exact .v2).decode_encode trivial hfields' []] at hdecode
  cases hdecode
  rfl

variable {sha256 : List Byte → Digest}

theorem fromBytes_eq_ok {bytes : List Byte} {statement : NativeStatement} :
    fromBytes sha256 bytes = .ok statement ↔
      decodeStatement bytes = .ok statement ∧ statement.validate sha256 = .ok () := by
  constructor
  · intro h
    obtain ⟨decoded, hdecode, h⟩ := Except.bind_eq_ok.mp h
    obtain ⟨_, hvalid, h⟩ := Except.bind_eq_ok.mp h
    cases h
    exact ⟨hdecode, hvalid⟩
  · rintro ⟨hdecode, hvalid⟩
    exact Except.bind_eq_ok.mpr ⟨_, hdecode, Except.bind_eq_ok.mpr ⟨_, hvalid, rfl⟩⟩

/-- What a statement that passes its checks is. -/
structure Valid (sha256 : List Byte → Digest) (statement : NativeStatement) : Prop where
  backendDigest_eq : statement.backendDigest = Zksm83.backendDigest sha256 statement.protocol
  romByteLength_eq :
    romByteLengthForMachineProfile statement.machineProfile = .ok statement.romByteLength
  segmentCount_ne : statement.segmentCount ≠ 0
  segmentCount_le : statement.segmentCount.toNat ≤ maxNativeSegmentCount
  segmentCount_le_rows : statement.segmentCount ≤ statement.relationRowCount
  rows_le : statement.relationRowCount ≤ statement.transitionCount
  transitionCount_le : statement.transitionCount.toNat ≤
    statement.relationRowCount.toNat * basicBlockInstructionBound
  maximum_lt : statement.relationRowCount.toNat * basicBlockInstructionBound < 2 ^ 64
  rom : statement.rom.validateFor sha256 statement.protocol .rom statement.romByteLength = .ok ()
  initial : statement.initial.validateFor sha256 statement.protocol = .ok ()
  finalBoundary : statement.finalBoundary.validateFor sha256 statement.protocol = .ok ()
  initialProfile : statement.initial.machineProfile = .ok statement.machineProfile
  finalProfile : statement.finalBoundary.machineProfile = .ok statement.machineProfile
  mCycleCount_eq : checkedDelta statement.initial.mCycles statement.finalBoundary.mCycles =
    .ok statement.mCycleCount
  logs_eq : ProtocolLogCounts.between statement.initial statement.finalBoundary =
    .ok statement.logs
  statementId_eq : statement.statementId = statement.computeId sha256

theorem validate_eq_ok {statement : NativeStatement} :
    statement.validate sha256 = .ok () ↔ statement.Valid sha256 := by
  unfold validate
  simp only [↓Except.check_eq_ok, Except.bind_eq_ok, rejectIf_eq_ok, not_or, not_lt, not_le,
    not_not, ne_eq, UInt64.not_lt]
  constructor
  · rintro ⟨-, hbackend, _, hrom, rfl, hmaximum, ⟨hne, hcount, -, hsegments, hrows, htransitions⟩,
      hromIdentity, hinitial, hfinal, _, hinitialProfile, rfl, _, hfinalProfile, hprofile, _,
      hcycles, rfl, _, hlogs, rfl, hid⟩
    exact ⟨hbackend, hrom, hne, hcount, hsegments, hrows, htransitions, hmaximum, hromIdentity,
      hinitial, hfinal, hinitialProfile, hprofile ▸ hfinalProfile, hcycles, hlogs, hid⟩
  · intro hvalid
    have hrows : statement.relationRowCount ≠ 0 := by
      intro hzero
      have hle := hvalid.segmentCount_le_rows
      rw [hzero, UInt64.le_zero_iff] at hle
      exact hvalid.segmentCount_ne hle
    exact ⟨trivial, hvalid.backendDigest_eq, _, hvalid.romByteLength_eq, rfl,
      hvalid.maximum_lt, ⟨hvalid.segmentCount_ne, hvalid.segmentCount_le, hrows,
        hvalid.segmentCount_le_rows, hvalid.rows_le, hvalid.transitionCount_le⟩, hvalid.rom,
      hvalid.initial, hvalid.finalBoundary, _, hvalid.initialProfile, rfl, _, hvalid.finalProfile,
      rfl, _, hvalid.mCycleCount_eq, rfl, _, hvalid.logs_eq, rfl, hvalid.statementId_eq⟩

end NativeStatement

/-! ## Canonical and binding -/

/-- Valid statements and the inputs that are accepted as statements correspond one to one, and no
proper front part or continuation of an accepted input is accepted. Valid statements of the same
digest are the same, unless what is hashed of the two is a collision. -/
theorem statement_encoding (sha256 : List Byte → Digest) :
    (∀ statement : NativeStatement, statement.validate sha256 = .ok () →
      ∃ bytes, statement.toBytes = .ok bytes ∧
        NativeStatement.fromBytes sha256 bytes = .ok statement) ∧
    (∀ bytes statement, NativeStatement.fromBytes sha256 bytes = .ok statement →
      statement.toBytes = .ok bytes ∧
      (∀ count < bytes.length, ∀ other,
        NativeStatement.fromBytes sha256 (bytes.take count) ≠ .ok other) ∧
      ∀ rest ≠ [], ∀ other, NativeStatement.fromBytes sha256 (bytes ++ rest) ≠ .ok other) ∧
    ∀ statement statement' : NativeStatement, statement.validate sha256 = .ok () →
      statement'.validate sha256 = .ok () →
      Set.InjOn sha256 {statement.digestInput, statement'.digestInput} →
      statement.computeId sha256 = statement'.computeId sha256 → statement = statement' := by
  refine ⟨?_, ?_, ?_⟩
  · intro statement hvalid
    obtain ⟨bytes, hencode, -⟩ := statement.exists_encoding
    exact ⟨bytes, hencode, NativeStatement.fromBytes_eq_ok.mpr
      ⟨statement_roundTrips.decode_encode trivial hencode, hvalid⟩⟩
  · intro bytes statement hfrom
    obtain ⟨hdecode, -⟩ := NativeStatement.fromBytes_eq_ok.mp hfrom
    have hcanonical := statement_roundTrips.canonical statement_prefixFree
    obtain ⟨-, hencode⟩ := hcanonical.encode_decode hdecode
    refine ⟨hencode, ?_, ?_⟩
    · intro count hcount other hother
      exact hcanonical.decode_take trivial hencode count hcount other
        (NativeStatement.fromBytes_eq_ok.mp hother).1
    · intro rest hrest other hother
      exact hcanonical.decode_append trivial hencode rest hrest other
        (NativeStatement.fromBytes_eq_ok.mp hother).1
  · intro statement statement' hvalid hvalid' hinjective hid
    have hinput := hinjective (Set.mem_insert _ _) (Set.mem_insert_of_mem _ rfl) hid
    refine NativeStatement.eq_of_digestInput hinput ?_
    rw [(NativeStatement.validate_eq_ok.mp hvalid).statementId_eq,
      (NativeStatement.validate_eq_ok.mp hvalid').statementId_eq, hid]

/-! ## A structural statement -/

/-- A boundary of the first profile at which nothing has been logged yet. -/
def structuralBoundary (sha256 : List Byte → Digest) : NativeBoundary where
  state := ⟨fun index => if index.val = stateMachineProfile then 1 else 0⟩
  memory := directIdentity sha256 .v2 .mutableMemory (.ofNat memoryImageBytes)
    (asciiBytes "structural-memory-commitment")
  logs := .emptyFor sha256 .v2

/-- The statement of one segment of one transition that ends where it started. -/
def structuralStatement (sha256 : List Byte → Digest) : NativeStatement :=
  let statement : NativeStatement := ⟨.v2, Zksm83.backendDigest sha256 .v2, 1, .ofNat romImageBytes,
    directIdentity sha256 .v2 .rom (.ofNat romImageBytes) (asciiBytes "structural-rom-commitment"),
    structuralBoundary sha256, structuralBoundary sha256, 1, 1, 1, 0, ⟨0, 0, 0, 0⟩,
    .replicate 32 0⟩
  { statement with statementId := statement.computeId sha256 }

theorem structuralBoundary_validateFor (sha256 : List Byte → Digest) :
    (structuralBoundary sha256).validateFor sha256 .v2 = .ok () := by
  have hmemory : (structuralBoundary sha256).memory.validateFor sha256 .v2 .mutableMemory
      (.ofNat memoryImageBytes) = .ok () :=
    rejectIf_eq_ok.mpr (by simp [structuralBoundary, directIdentity])
  have hlog (kind : ProtocolLogKind) :
      (structuralBoundary sha256).validateLog sha256 .v2 kind = .ok () := by
    cases kind <;> simp [NativeBoundary.validateLog, CommitmentIdentity.validateFor,
      structuralBoundary, ProtocolLogIdentities.get, ProtocolLogIdentities.emptyFor,
      emptyLogIdentity, Except.check_eq_ok, NativeBoundary.stateLogCursor,
      ProtocolLogKind.cursorIndex]
  exact Except.bind_eq_ok.mpr ⟨1, rfl, Except.check_eq_ok.mpr ⟨hmemory,
    Except.forM_eq_ok.mpr (fun kind _ => hlog kind)⟩⟩

theorem checkedDelta_self (value : UInt64) : checkedDelta value value = .ok 0 := by
  unfold checkedDelta
  rw [rejectIf, if_neg (UInt64.lt_irrefl value), UInt64.sub_self]
  rfl

theorem between_self (boundary : NativeBoundary) :
    ProtocolLogCounts.between boundary boundary = .ok ⟨0, 0, 0, 0⟩ := by
  unfold ProtocolLogCounts.between
  simp only [checkedDelta_self]
  rfl

theorem structuralStatement_validate (sha256 : List Byte → Digest) :
    (structuralStatement sha256).validate sha256 = .ok () := by
  have hboundary := structuralBoundary_validateFor sha256
  rw [NativeStatement.validate_eq_ok]
  exact {
    backendDigest_eq := rfl
    romByteLength_eq := rfl
    segmentCount_ne := (by decide : (1 : UInt64) ≠ 0)
    segmentCount_le := (by decide : (1 : UInt64).toNat ≤ maxNativeSegmentCount)
    segmentCount_le_rows := (by decide : (1 : UInt64) ≤ 1)
    rows_le := (by decide : (1 : UInt64) ≤ 1)
    transitionCount_le := (by decide : (1 : UInt64).toNat ≤ 1 * basicBlockInstructionBound)
    maximum_lt := (by decide : 1 * basicBlockInstructionBound < 2 ^ 64)
    rom := rejectIf_eq_ok.mpr (by simp [structuralStatement, directIdentity])
    initial := hboundary
    finalBoundary := hboundary
    initialProfile := rfl
    finalProfile := rfl
    mCycleCount_eq := checkedDelta_self _
    logs_eq := between_self _
    statementId_eq := rfl }

/-- The encoding of the structural statement under SHA-256. -/
theorem statement_encoding_structural :
    ∃ bytes, (structuralStatement (fun message => (sha256 message).bytes)).toBytes = .ok bytes ∧
      NativeStatement.fromBytes (fun message => (sha256 message).bytes) bytes =
        .ok (structuralStatement (fun message => (sha256 message).bytes)) :=
  (statement_encoding _).1 _ (structuralStatement_validate _)

end Zksm83
