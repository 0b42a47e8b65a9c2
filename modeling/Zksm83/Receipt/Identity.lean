import Zksm83.Argument.Logs
import Zksm83.Cpu.Relation
import Zksm83.Receipt.Components

/-!
# Typed identities

The digests that stand for commitments and logs in a statement: what is hashed for each, which
identities a boundary between segments has to carry, and how the cumulative log identities grow.
The digest function comes from a library, so it is a parameter. After `identity.rs`, with the
commitment encodings of `pcs.rs`.
-/

namespace Zksm83

abbrev Digest : Type := Vector Byte 32

inductive NativeProtocolVersion where
  | v2
  deriving DecidableEq, Repr

namespace NativeProtocolVersion

def current : NativeProtocolVersion := .v2

def code : NativeProtocolVersion → UInt64
  | .v2 => 2

def fromCode (code : UInt64) : Option NativeProtocolVersion :=
  if code = 2 then some .v2 else none

theorem fromCode_eq_some {code : UInt64} {version : NativeProtocolVersion} :
    fromCode code = some version ↔ version.code = code := by
  cases version
  unfold fromCode
  split
  case isTrue h => exact ⟨fun _ => h.symm, fun _ => rfl⟩
  case isFalse h => exact ⟨nofun, fun heq => absurd heq.symm h⟩

def protocolId : NativeProtocolVersion → String
  | .v2 => "zksm83-native-jolt-akita-v2"

def traceScheduleSha256 : NativeProtocolVersion → String
  | .v2 => "1cd339f09114c2a941abbfb434ab795868866cb15485f83300d81cee7bf46e71"

end NativeProtocolVersion

/-! ## Errors -/

inductive PcsError where
  | shape
  | serialization (message : String)
  deriving DecidableEq, Repr

inductive RomLookupError where
  | invalidRomLength (actual : ℕ)
  | pcs (error : PcsError)
  deriving DecidableEq, Repr

inductive PackedBlockProofError where
  | romLookup (error : RomLookupError)
  | mutableMemory (error : PcsError)
  | continuity (error : Continuity.ContinuityError)
  | protocolLog (error : Logs.ProtocolLogError)
  /-- An argument of the segment proof was rejected. -/
  | component (message : String)
  deriving DecidableEq, Repr

inductive NativeReceiptError where
  | wire (message : String)
  | unsupportedBackend
  | invalidStatement
  | statementMismatch
  | segmentChain (message : String)
  | counter
  | io (message : String)
  | workerSpawn (message : String)
  | workerPanicked
  | unsupportedProfile
  | protocolLog (error : PcsError)
  | proof (error : PackedBlockProofError)
  deriving DecidableEq, Repr

/-! ## Canonical hashing -/

/-- What a hash has been given so far. -/
structure CanonicalHash where
  bytes : List Byte

namespace CanonicalHash

/-- Bytes behind their length. -/
def sized (bytes : List Byte) : List Byte :=
  leBytes 8 (min bytes.length (2 ^ 64 - 1)) ++ bytes

def new (domain : List Byte) : CanonicalHash := ⟨sized domain⟩

def u64 (hash : CanonicalHash) (value : UInt64) : CanonicalHash :=
  ⟨hash.bytes ++ leBytes 8 value.toNat⟩

def fixed (hash : CanonicalHash) (digest : Digest) : CanonicalHash :=
  ⟨hash.bytes ++ digest.toList⟩

def sizedBytes (hash : CanonicalHash) (bytes : List Byte) : CanonicalHash :=
  ⟨hash.bytes ++ sized bytes⟩

def finish (sha256 : List Byte → Digest) (hash : CanonicalHash) : Digest := sha256 hash.bytes

end CanonicalHash

def v2Domain (protocol : NativeProtocolVersion) (domain : String) : List Byte :=
  match protocol with
  | .v2 => asciiBytes domain

def identityDomainV2 : String := "zksm83/native-commitment-identity/v2"
def layoutDomainV2 : String := "zksm83/native-layout-identity/v2"
def emptyLogDomainV2 : String := "zksm83/native-empty-log-chain/v2"
def logSegmentDomainV2 : String := "zksm83/native-log-segment-identity/v2"
def logChainDomainV2 : String := "zksm83/native-log-chain/v2"
def backendDomainV2 : String := "zksm83/native-backend-identity/v2"
def statementDomainV2 : String := "zksm83/native-statement/v2"

/-! ## Commitments -/

/-- The fixed dimensions of a family of committed columns, and the domain of its encoding. -/
structure PcsLayout where
  numVariables : ℕ
  groupColumns : ℕ
  commitmentDomain : List Byte

def pushUsize (value : ℕ) : Except PcsError (List Byte) :=
  if 2 ^ 64 ≤ value then .error .shape else .ok (leBytes 8 value)

def pushBytes (bytes : List Byte) : Except PcsError (List Byte) := do
  let length ← pushUsize bytes.length
  return length ++ bytes

section Commitments

variable {akita : Akita}

namespace ColumnCommitments

def validate (commitments : ColumnCommitments akita) (layout : PcsLayout) :
    Except PcsError Unit :=
  let expectedGroups := (commitments.logicalColumnCount + layout.groupColumns - 1) /
    layout.groupColumns
  if layout.groupColumns = 0 ∨ commitments.numVariables ≠ layout.numVariables ∨
      commitments.groupColumns ≠ layout.groupColumns ∨ commitments.logicalColumnCount = 0 ∨
      commitments.groups.length ≠ expectedGroups ∨
      commitments.groups.any (fun group => akita.numVars group ≠ layout.numVariables ∨
        akita.numPolynomials group ≠ layout.groupColumns) then
    .error .shape
  else .ok ()

def canonicalBytes (commitments : ColumnCommitments akita) (layout : PcsLayout) :
    Except PcsError (List Byte) := do
  commitments.validate layout
  let domain ← pushBytes layout.commitmentDomain
  let numVariables ← pushUsize commitments.numVariables
  let logicalColumnCount ← pushUsize commitments.logicalColumnCount
  let groupColumns ← pushUsize commitments.groupColumns
  let groupCount ← pushUsize commitments.groups.length
  let groups ← commitments.groups.mapM (fun group => do
    let encoded ← (akita.group.serializeCompressed group).mapError .serialization
    pushBytes encoded)
  return domain ++ numVariables ++ logicalColumnCount ++ groupColumns ++ groupCount ++
    groups.flatten

end ColumnCommitments

abbrev romImageBytes : ℕ := 2 ^ 20
abbrev rom256KibImageBytes : ℕ := 256 * 1024
abbrev memoryImageBytes : ℕ := 2 ^ 17

def romLayout : PcsLayout := ⟨20, 1, asciiBytes "zksm83/native-rom-commitment/v1"⟩
def memoryLayout : PcsLayout := ⟨17, 1, asciiBytes "zksm83/native-memory-column/v1"⟩
def logLayout : PcsLayout := ⟨17, 128, asciiBytes "zksm83/native-protocol-logs/v1"⟩

namespace RomCommitment

def validate (commitment : RomCommitment akita) : Except RomLookupError Unit :=
  if commitment.logicalByteLength.toNat ≠ rom256KibImageBytes ∧
      commitment.logicalByteLength.toNat ≠ romImageBytes then
    .error (.invalidRomLength commitment.logicalByteLength.toNat)
  else (commitment.inner.validate romLayout).mapError .pcs

def canonicalBytes (commitment : RomCommitment akita) : Except RomLookupError (List Byte) := do
  let inner ← (commitment.inner.canonicalBytes romLayout).mapError .pcs
  return leBytes 8 commitment.logicalByteLength.toNat ++ inner

end RomCommitment

def MemoryCommitment.canonicalBytes (commitment : MemoryCommitment akita) :
    Except PcsError (List Byte) :=
  commitment.inner.canonicalBytes memoryLayout

def ProtocolLogCommitments.canonicalBytes (commitment : ProtocolLogCommitments akita) :
    Except PcsError (List Byte) :=
  commitment.inner.canonicalBytes logLayout

end Commitments

/-! ## Kinds -/

/-- The consensus type of an identity. -/
inductive CommitmentKind where
  | rom
  | mutableMemory
  | inputLog
  | outputLog
  | busLog
  | isaLog
  deriving DecidableEq, Repr

/-- One of the four ordered logs. -/
inductive ProtocolLogKind where
  | bus
  | input
  | output
  | isa
  deriving DecidableEq, Repr

namespace CommitmentKind

def code : CommitmentKind → UInt64
  | .rom => 0
  | .mutableMemory => 1
  | .inputLog => 2
  | .outputLog => 3
  | .busLog => 4
  | .isaLog => 5

def fromCode (code : UInt64) : Option CommitmentKind :=
  if code = 0 then some .rom
  else if code = 1 then some .mutableMemory
  else if code = 2 then some .inputLog
  else if code = 3 then some .outputLog
  else if code = 4 then some .busLog
  else if code = 5 then some .isaLog
  else none

theorem fromCode_eq_some {code : UInt64} {kind : CommitmentKind} :
    fromCode code = some kind ↔ kind.code = code := by
  constructor
  · intro h
    unfold fromCode at h
    split_ifs at h with h0 h1 h2 h3 h4 h5 <;> cases h <;> symm <;> assumption
  · rintro rfl
    cases kind <;> rfl

theorem code_injective : Function.Injective code := by
  intro first second h
  exact Option.some.inj ((fromCode_eq_some.mpr rfl).symm.trans (fromCode_eq_some.mpr h.symm))

end CommitmentKind

namespace ProtocolLogKind

def code : ProtocolLogKind → UInt64
  | .bus => 0
  | .input => 1
  | .output => 2
  | .isa => 3

def commitmentKind : ProtocolLogKind → CommitmentKind
  | .bus => .busLog
  | .input => .inputLog
  | .output => .outputLog
  | .isa => .isaLog

def cursorIndex : ProtocolLogKind → ℕ
  | .bus => stateBusNext
  | .input => stateInputNext
  | .output => stateOutputNext
  | .isa => stateIsaNext

/-- All kinds, in protocol order. -/
def all : List ProtocolLogKind := [.bus, .input, .output, .isa]

end ProtocolLogKind

/-! ## Identities -/

/-- The digest of a commitment or of a cumulative log, with its type. -/
structure CommitmentIdentity where
  kind : CommitmentKind
  layoutDigest : Digest
  committedLength : UInt64
  digest : Digest
  deriving DecidableEq

structure ProtocolLogIdentities where
  bus : CommitmentIdentity
  input : CommitmentIdentity
  output : CommitmentIdentity
  isa : CommitmentIdentity
  deriving DecidableEq

structure ProtocolLogCounts where
  bus : UInt64
  input : UInt64
  output : UInt64
  isa : UInt64
  deriving DecidableEq

instance : DecidableEq NativeStateBoundary := fun first second =>
  decidable_of_iff (first.scalars = second.scalars) (by
    cases first
    cases second
    simp)

/-- The authenticated boundary between two segments. -/
structure NativeBoundary where
  state : NativeStateBoundary
  memory : CommitmentIdentity
  logs : ProtocolLogIdentities
  deriving DecidableEq

variable (sha256 : List Byte → Digest)

/-- The identity of a layout: its protocol, its kind and the dimensions of its schedule. -/
def layoutDigest (protocol : NativeProtocolVersion) (kind : CommitmentKind) : Digest :=
  let hash := ((CanonicalHash.new (v2Domain protocol layoutDomainV2)).sizedBytes
    (asciiBytes protocol.protocolId)).u64 kind.code
  let hash := match kind with
    | .rom => ((hash.sizedBytes (asciiBytes
        "141f4ffaf9b1546351a35582352a6337b2855aab3d77cd456bfe30241d4c40af")).u64 20).u64 1
    | .mutableMemory => ((hash.sizedBytes (asciiBytes
        "8292b771966f1e30f7919796f5ebad3b6327686b7be61a4c778cd4972719ef15")).u64 17).u64 1
    | .inputLog | .outputLog | .busLog | .isaLog => ((hash.sizedBytes (asciiBytes
        "2dba5b6d53ca57eaee58c872ceba3cdf6c7dbfe522162144577e71cadf543a80")).u64 17).u64 128
  hash.finish sha256

namespace CommitmentIdentity

def validateFor (identity : CommitmentIdentity) (protocol : NativeProtocolVersion)
    (expectedKind : CommitmentKind) (expectedLength : UInt64) : Except NativeReceiptError Unit :=
  rejectIf (identity.kind ≠ expectedKind ∨ identity.committedLength ≠ expectedLength ∨
    identity.layoutDigest ≠ Zksm83.layoutDigest sha256 protocol expectedKind) .invalidStatement

def append (identity : CommitmentIdentity) (hash : CanonicalHash) : CanonicalHash :=
  (((hash.u64 identity.kind.code).fixed identity.layoutDigest).u64
    identity.committedLength).fixed identity.digest

end CommitmentIdentity

def directIdentity (protocol : NativeProtocolVersion) (kind : CommitmentKind) (length : UInt64)
    (commitment : List Byte) : CommitmentIdentity where
  kind := kind
  layoutDigest := layoutDigest sha256 protocol kind
  committedLength := length
  digest := ((((CanonicalHash.new (v2Domain protocol identityDomainV2)).u64 kind.code).fixed
    (layoutDigest sha256 protocol kind)).u64 length).sizedBytes commitment |>.finish sha256

section Commitments

variable {akita : Akita}

def directRomIdentityFor (protocol : NativeProtocolVersion) (commitment : RomCommitment akita) :
    Except NativeReceiptError CommitmentIdentity := do
  commitment.validate.mapError (fun error => .proof (.romLookup error))
  let bytes ← commitment.canonicalBytes.mapError (fun error => .proof (.romLookup error))
  return directIdentity sha256 protocol .rom commitment.logicalByteLength bytes

def directMemoryIdentityFor (protocol : NativeProtocolVersion)
    (commitment : MemoryCommitment akita) : Except NativeReceiptError CommitmentIdentity := do
  let bytes ← commitment.canonicalBytes.mapError (fun error => .proof (.mutableMemory error))
  return directIdentity sha256 protocol .mutableMemory (.ofNat memoryImageBytes) bytes

end Commitments

/-! ## Cumulative logs -/

def emptyLogIdentity (protocol : NativeProtocolVersion) (kind : ProtocolLogKind) :
    CommitmentIdentity where
  kind := kind.commitmentKind
  layoutDigest := layoutDigest sha256 protocol kind.commitmentKind
  committedLength := 0
  digest := ((CanonicalHash.new (v2Domain protocol emptyLogDomainV2)).u64 kind.code).fixed
    (layoutDigest sha256 protocol kind.commitmentKind) |>.finish sha256

def checkedAdd (first second : UInt64) : Except NativeReceiptError UInt64 := do
  rejectIf (2 ^ 64 ≤ first.toNat + second.toNat) .counter
  return first + second

def checkedDelta (initial finalValue : UInt64) : Except NativeReceiptError UInt64 := do
  rejectIf (finalValue < initial) .counter
  return finalValue - initial

/-- What is hashed of the entries that a segment adds to a log. -/
def logSegmentHash (protocol : NativeProtocolVersion) (kind : ProtocolLogKind) (count : UInt64)
    (commitmentBytes : List Byte) : CanonicalHash :=
  (((CanonicalHash.new (v2Domain protocol logSegmentDomainV2)).u64 kind.code).u64
    count).sizedBytes commitmentBytes

/-- What is hashed of a log that a segment has extended. -/
def logChainHash (protocol : NativeProtocolVersion) (previous : CommitmentIdentity)
    (kind : ProtocolLogKind) (segmentIndex start finish : UInt64) (segment : Digest) :
    CanonicalHash :=
  ((((previous.append (CanonicalHash.new (v2Domain protocol logChainDomainV2))).u64
    kind.code).u64 segmentIndex).u64 start).u64 finish |>.fixed segment

variable {akita : Akita}

def advanceLog (protocol : NativeProtocolVersion) (previous : CommitmentIdentity)
    (kind : ProtocolLogKind) (commitment : ProtocolLogCommitments akita) (segmentIndex count : UInt64) :
    Except NativeReceiptError CommitmentIdentity := do
  let start := previous.committedLength
  let finish ← checkedAdd start count
  previous.validateFor sha256 protocol kind.commitmentKind start
  if count = 0 then return previous
  let commitmentBytes ← commitment.canonicalBytes.mapError .protocolLog
  let segment := (logSegmentHash protocol kind count commitmentBytes).finish sha256
  return {
    kind := kind.commitmentKind
    layoutDigest := layoutDigest sha256 protocol kind.commitmentKind
    committedLength := finish
    digest := (logChainHash protocol previous kind segmentIndex start finish segment).finish sha256 }

namespace ProtocolLogIdentities

def get (identities : ProtocolLogIdentities) : ProtocolLogKind → CommitmentIdentity
  | .bus => identities.bus
  | .input => identities.input
  | .output => identities.output
  | .isa => identities.isa

def emptyFor (protocol : NativeProtocolVersion) : ProtocolLogIdentities where
  bus := emptyLogIdentity sha256 protocol .bus
  input := emptyLogIdentity sha256 protocol .input
  output := emptyLogIdentity sha256 protocol .output
  isa := emptyLogIdentity sha256 protocol .isa

def advanceFor (identities : ProtocolLogIdentities) (protocol : NativeProtocolVersion)
    (commitment : ProtocolLogCommitments akita) (segmentIndex : UInt64)
    (counts : ProtocolLogCounts) : Except NativeReceiptError ProtocolLogIdentities := do
  let bus ← advanceLog sha256 protocol identities.bus .bus commitment segmentIndex counts.bus
  let input ←
    advanceLog sha256 protocol identities.input .input commitment segmentIndex counts.input
  let output ←
    advanceLog sha256 protocol identities.output .output commitment segmentIndex counts.output
  let isa ← advanceLog sha256 protocol identities.isa .isa commitment segmentIndex counts.isa
  return ⟨bus, input, output, isa⟩

def append (identities : ProtocolLogIdentities) (hash : CanonicalHash) : CanonicalHash :=
  identities.isa.append (identities.output.append (identities.input.append
    (identities.bus.append hash)))

end ProtocolLogIdentities

/-! ## Boundaries -/

namespace ProtocolLogCounts

/-- The growth of the four logs between two boundaries. -/
def between (initial finalBoundary : NativeBoundary) :
    Except NativeReceiptError ProtocolLogCounts := do
  let bus ← checkedDelta initial.logs.bus.committedLength finalBoundary.logs.bus.committedLength
  let input ←
    checkedDelta initial.logs.input.committedLength finalBoundary.logs.input.committedLength
  let output ←
    checkedDelta initial.logs.output.committedLength finalBoundary.logs.output.committedLength
  let isa ← checkedDelta initial.logs.isa.committedLength finalBoundary.logs.isa.committedLength
  return ⟨bus, input, output, isa⟩

def append (counts : ProtocolLogCounts) (hash : CanonicalHash) : CanonicalHash :=
  (((hash.u64 counts.bus).u64 counts.input).u64 counts.output).u64 counts.isa

end ProtocolLogCounts

/-- The four machine profiles that have native proofs. -/
def isSupportedNativeMachineProfile (profile : UInt64) : Bool :=
  profile = 1 ∨ profile = 2 ∨ profile = 3 ∨ profile = 4

def romByteLengthForMachineProfile (profile : UInt64) : Except NativeReceiptError UInt64 :=
  if profile = 1 ∨ profile = 4 then .ok (.ofNat romImageBytes)
  else if profile = 2 ∨ profile = 3 then .ok (.ofNat rom256KibImageBytes)
  else .error .unsupportedProfile

namespace NativeBoundary

def machineProfile (boundary : NativeBoundary) : Except NativeReceiptError UInt64 :=
  let profile := boundary.state.scalars ⟨stateMachineProfile, by decide⟩
  if isSupportedNativeMachineProfile profile then .ok profile else .error .unsupportedProfile

def mCycles (boundary : NativeBoundary) : UInt64 :=
  boundary.state.scalars ⟨stateCpuMCycles, by decide⟩

def logCursor (boundary : NativeBoundary) (kind : ProtocolLogKind) : UInt64 :=
  (boundary.logs.get kind).committedLength

def stateLogCursor (boundary : NativeBoundary) (kind : ProtocolLogKind) : UInt64 :=
  boundary.state.scalars ⟨kind.cursorIndex, by cases kind <;> decide⟩

/-- The checks of one log of a boundary. -/
def validateLog (boundary : NativeBoundary) (protocol : NativeProtocolVersion)
    (kind : ProtocolLogKind) : Except NativeReceiptError Unit := do
  let identity := boundary.logs.get kind
  let stateMatches := match kind with
    | .bus | .isa => decide (boundary.stateLogCursor kind = 0)
    | .input | .output => decide (boundary.stateLogCursor kind = identity.committedLength)
  rejectIf (stateMatches = false) .invalidStatement
  identity.validateFor sha256 protocol kind.commitmentKind identity.committedLength
  rejectIf (identity.committedLength = 0 ∧ identity ≠ emptyLogIdentity sha256 protocol kind)
    .invalidStatement

def validateFor (boundary : NativeBoundary) (protocol : NativeProtocolVersion) :
    Except NativeReceiptError Unit := do
  let _ ← boundary.machineProfile
  boundary.memory.validateFor sha256 protocol .mutableMemory (.ofNat memoryImageBytes)
  ProtocolLogKind.all.forM (boundary.validateLog sha256 protocol)

/-- The boundary in front of the first segment. -/
def initialFor (protocol : NativeProtocolVersion) (state : NativeStateBoundary)
    (memory : MemoryCommitment akita) : Except NativeReceiptError NativeBoundary := do
  let memory ← directMemoryIdentityFor sha256 protocol memory
  let boundary : NativeBoundary := ⟨state, memory, .emptyFor sha256 protocol⟩
  rejectIf (ProtocolLogKind.all.any (fun kind => boundary.logCursor kind ≠ 0))
    (.segmentChain "initial protocol-log cursor is nonzero")
  boundary.validateFor sha256 protocol
  return boundary

/-- The boundary behind a segment. -/
def advanceFor (boundary : NativeBoundary) (protocol : NativeProtocolVersion)
    (state : NativeStateBoundary) (memory : CommitmentIdentity)
    (commitment : ProtocolLogCommitments akita) (segmentIndex : UInt64)
    (counts : ProtocolLogCounts) : Except NativeReceiptError NativeBoundary := do
  let logs ← boundary.logs.advanceFor sha256 protocol commitment segmentIndex counts
  let next : NativeBoundary := ⟨state, memory, logs⟩
  next.validateFor sha256 protocol
  return next

def append (boundary : NativeBoundary) (hash : CanonicalHash) : CanonicalHash :=
  boundary.logs.append (boundary.memory.append
    ((List.ofFn boundary.state.scalars).foldl CanonicalHash.u64 hash))

end NativeBoundary

/-! ## The proof backend -/

/-- The digest of every consensus-relevant parameter of the proof backend. -/
def backendDigest (protocol : NativeProtocolVersion) : Digest :=
  let hash := [protocol.protocolId, "95c898d3d2bbcc178fd8b18603662fce69cfa37d",
    "69438de6cd8ce8ed7c9ebb21bdf60b813e8fcabc", "72dc6451628d8b1dd794147a1f1cc40be0d77963",
    protocol.traceScheduleSha256,
    "3a8bbab5196d9233434abf33552cd7fc5637c74f0f76cea66cf247eddb8e7287",
    "141f4ffaf9b1546351a35582352a6337b2855aab3d77cd456bfe30241d4c40af",
    "8292b771966f1e30f7919796f5ebad3b6327686b7be61a4c778cd4972719ef15",
    "2dba5b6d53ca57eaee58c872ceba3cdf6c7dbfe522162144577e71cadf543a80",
    "fc4afaeb9c3d6a7dc063e2927caee773ae4a29f3c16e7d3f1aa5f266ea3f9c9a",
    "akita-proof-optimized-fp128-dense-bounded", "blake2b-512",
    "e601bc0bd9d4501220c367b3012901aac09467f145899c8e907b282d30e96646",
    "packed-block-jolt-execution-shout-compact20-compact-aux55-isa38-mbc3-profiled-rom-size-" ++
      "rtc-wire-v2"].foldl
    (fun hash value => hash.sizedBytes (asciiBytes value))
    (CanonicalHash.new (v2Domain protocol backendDomainV2))
  let hash := [uniformNumVariables, BlockCpu.columnCount, BlockCpu.constraintCount,
    BlockCpu.maxDegree, 128].foldl (fun hash value => hash.u64 (.ofNat value)) hash
  (hash.u64 0).finish sha256

end Zksm83
