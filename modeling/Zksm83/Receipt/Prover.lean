import Zksm83.Library.Attempts
import Zksm83.Receipt.Stream

/-!
# The streaming prover

Segments are proved one after another and their frames are appended to a spool, a file that keeps
them until the statement is known. An append may fail anywhere, also after a part of a frame has
been written; a spool is taken up again by verifying its frames. After `receipt.rs` and
`receipt/stream.rs`; the commitment of logs and the proof of the components of a segment are
parameters.
-/

namespace Zksm83

/-! ## Witnesses -/

/-- The columns of a segment with the states in front of them and behind. -/
structure PackedTrace where
  witness : Logs.BlockCpuWitness
  transitionCount : ℕ
  initialState : NativeStateBoundary
  finalState : NativeStateBoundary

/-- A commitment to columns of a fixed number, so that it can be read back from the wire. -/
structure CommittedRom (akita : Akita) (Columns : Type) where
  inner : Columns
  commitment : RomCommitment akita
  fits : Wire.fits commitment

@[inherit_doc CommittedRom]
structure CommittedMemory (akita : Akita) (Columns : Type) where
  inner : Columns
  commitment : MemoryCommitment akita
  fits : Wire.fits commitment

@[inherit_doc CommittedRom]
structure CommittedProtocolLogs (akita : Akita) (Columns : Type) where
  inner : Columns
  commitment : ProtocolLogCommitments akita
  fits : Wire.fits commitment

/-- A proof that was made here, whose sequences have the lengths of its schedules. -/
structure ProvedComponents (akita : Akita) where
  proof : PackedBlockProof akita
  fits : Wire.fits proof

structure NativeSegmentWitness (akita : Akita) (Columns : Type) where
  trace : PackedTrace
  initialMemory : CommittedMemory akita Columns
  finalMemory : CommittedMemory akita Columns

/-- The errors of the prover: those of receipts, and a claim about logs that its trace refutes. -/
inductive NativeProverError where
  | receipt (error : NativeReceiptError)
  | protocolLog (error : Logs.ProtocolLogError)
  deriving DecidableEq, Repr

/-- What the prover takes from the proof library. -/
structure ProverLibrary (akita : Akita) (Columns : Type) where
  commitLogs : PackedTrace → Except NativeReceiptError (CommittedProtocolLogs akita Columns)
  proveComponents : PackedTrace → NativeExecutionClaim → Logs.PackedProtocolLogClaim →
    CommittedProtocolLogs akita Columns → CommittedRom akita Columns →
    CommittedMemory akita Columns → CommittedMemory akita Columns →
    Except PackedBlockProofError (ProvedComponents akita)

/-- The claim that a packed trace makes. -/
def NativeExecutionClaim.fromPackedTrace (trace : PackedTrace) :
    Except Continuity.ContinuityError NativeExecutionClaim := do
  rejectIf (2 ^ 64 ≤ trace.witness.activeBlockCount) .shape
  rejectIf (2 ^ 64 ≤ trace.transitionCount) .shape
  NativeExecutionClaim.new (.ofNat trace.witness.activeBlockCount) (.ofNat trace.transitionCount)
    trace.initialState trace.finalState

/-- The counts of a segment: those of its bus events and instructions, and the growth of the cursors
of the other two logs. -/
def ProtocolLogCounts.packed (initial finalState : NativeStateBoundary) (bus isa : UInt64) :
    Except NativeReceiptError ProtocolLogCounts := do
  let input ← checkedDelta (initial.scalars ⟨stateInputNext, by decide⟩)
    (finalState.scalars ⟨stateInputNext, by decide⟩)
  let output ← checkedDelta (initial.scalars ⟨stateOutputNext, by decide⟩)
    (finalState.scalars ⟨stateOutputNext, by decide⟩)
  return ⟨bus, input, output, isa⟩

/-! ## Segments -/

section Prove

variable (sha256 : List Byte → Digest) {akita : Akita} {Columns : Type}
  (library : ProverLibrary akita Columns)

/-- A segment that starts at a boundary, and the boundary that it ends at. -/
def proveSegment (index : ℕ) (initial : NativeBoundary)
    (witness : NativeSegmentWitness akita Columns) (rom : CommittedRom akita Columns) :
    Except NativeProverError (NativeSegmentReceipt akita × NativeBoundary) := do
  let claim ← (NativeExecutionClaim.fromPackedTrace witness.trace).mapError
    (fun error => .receipt (.proof (.continuity error)))
  let memoryIdentity ← (directMemoryIdentityFor sha256 .current
    witness.initialMemory.commitment).mapError .receipt
  rejectIf (initial.state ≠ witness.trace.initialState ∨ initial.memory ≠ memoryIdentity)
    (.receipt (.segmentChain "prover witness does not start at the expected boundary"))
  let logs ← (library.commitLogs witness.trace).mapError .receipt
  let logClaim ← (Logs.PackedProtocolLogClaim.fromTrace witness.trace.witness claim).mapError
    .protocolLog
  rejectIf (2 ^ 64 ≤ index) (.receipt .counter)
  let finalMemoryIdentity ← (directMemoryIdentityFor sha256 .current
    witness.finalMemory.commitment).mapError .receipt
  let logCounts ← (ProtocolLogCounts.packed initial.state witness.trace.finalState
    logClaim.busEventCount logClaim.instructionCount).mapError .receipt
  let finalBoundary ← (initial.advanceFor sha256 .current witness.trace.finalState
    finalMemoryIdentity logs.commitment (.ofNat index) logCounts).mapError .receipt
  let proof ← (library.proveComponents witness.trace claim logClaim logs rom
    witness.initialMemory witness.finalMemory).mapError (fun error => .receipt (.proof error))
  rejectIf (uniformRowCount < claim.activeRowCount.toNat) (.receipt .counter)
  let mCycleCount ← (checkedDelta initial.mCycles finalBoundary.mCycles).mapError .receipt
  let committedLogCounts ← (ProtocolLogCounts.between initial finalBoundary).mapError .receipt
  rejectIf (committedLogCounts ≠ logCounts)
    (.receipt (.segmentChain "packed log identity counts differ from the trace claim"))
  return (⟨.ofNat index, claim.transitionCount, claim.activeRowCount,
    .ofNat (uniformRowCount - claim.activeRowCount.toNat), initial, finalBoundary,
    witness.initialMemory.commitment, witness.finalMemory.commitment, logs.commitment,
    mCycleCount, committedLogCounts, proof.proof⟩, finalBoundary)

/-! ## The spool -/

/-- What may go wrong outside the prover during an append. A write may stop after some bytes of the
frame. -/
inductive SpoolFault where
  | none
  | workerSpawn (message : String)
  | workerPanicked
  | seek (message : String)
  | write (written : ℕ) (message : String)
  deriving DecidableEq, Repr

/-- The content of a file after some bytes were written at a position. -/
def writeAt (content : List Byte) (position : ℕ) (bytes : List Byte) : List Byte :=
  content.take position ++ bytes ++ content.drop (position + bytes.length)

/-- The prover, with its progress and the content of its spool. -/
structure NativeReceiptStreamProver (akita : Akita) (Columns : Type) where
  rom : CommittedRom akita Columns
  spool : List Byte
  initial : Option NativeBoundary
  boundary : Option NativeBoundary
  previousMemory : Option (MemoryCommitment akita)
  segmentCount : UInt64
  transitionCount : UInt64
  relationRowCount : UInt64
  spoolBytes : UInt64

/-- A segment with its encoding. -/
structure ProvedFrame (akita : Akita) where
  encoded : List Byte
  receipt : NativeSegmentReceipt akita
  finalBoundary : NativeBoundary

def proveFrame (index : ℕ) (initial : NativeBoundary)
    (witness : NativeSegmentWitness akita Columns) (rom : CommittedRom akita Columns)
    (fault : SpoolFault) : Except NativeProverError (ProvedFrame akita) :=
  match fault with
  | .workerSpawn message => .error (.receipt (.workerSpawn message))
  | .workerPanicked => .error (.receipt .workerPanicked)
  | _ => do
    let (receipt, finalBoundary) ← proveSegment sha256 library index initial witness rom
    let encoded ← (encodeSegment receipt).mapError .receipt
    return ⟨encoded, receipt, finalBoundary⟩

namespace NativeReceiptStreamProver

variable (prover : NativeReceiptStreamProver akita Columns)

def new (rom : CommittedRom akita Columns) (spool : List Byte) :
    Except NativeReceiptError (NativeReceiptStreamProver akita Columns) := do
  rejectIf (spool ≠ []) (.wire "segment spool is not empty")
  return ⟨rom, spool, none, none, none, 0, 0, 0, 0⟩

/-- The frame of a proved segment, and the prover that follows when it has been written. -/
def extend (proved : ProvedFrame akita) :
    Except NativeProverError (List Byte × NativeReceiptStreamProver akita Columns) := do
  let frame := leBytes 8 proved.encoded.length ++ proved.encoded
  let nextSpoolBytes := prover.spoolBytes.toNat + frame.length
  rejectIf (2 ^ 64 ≤ nextSpoolBytes) (.receipt .counter)
  rejectIf (maxNativeStreamReceiptBytes < nextSpoolBytes)
    (.receipt (.wire "stream receipt length limit"))
  let transitionCount ← (checkedAdd prover.transitionCount
    proved.receipt.transitionCount).mapError .receipt
  let relationRowCount ← (checkedAdd prover.relationRowCount
    proved.receipt.activeRowCount).mapError .receipt
  let segmentCount ← (checkedAdd prover.segmentCount 1).mapError .receipt
  return (frame, { prover with
    initial := some (prover.initial.getD proved.receipt.initial)
    boundary := some proved.finalBoundary
    previousMemory := some proved.receipt.finalMemory
    segmentCount
    transitionCount
    relationRowCount
    spoolBytes := .ofNat nextSpoolBytes })

/-- What an append does before it writes. -/
def prepare (witness : NativeSegmentWitness akita Columns) (fault : SpoolFault) :
    Except NativeProverError (List Byte × NativeReceiptStreamProver akita Columns) := do
  let index := prover.segmentCount.toNat
  rejectIf (maxNativeSegmentCount ≤ index) (.receipt .invalidStatement)
  if let some memory := prover.previousMemory then
    (ensureSameMemory sha256 memory witness.initialMemory.commitment .current).mapError
      NativeProverError.receipt
  let boundary ← match prover.boundary with
    | some boundary => .ok boundary
    | none => (NativeBoundary.initialFor sha256 .current witness.trace.initialState
        witness.initialMemory.commitment).mapError .receipt
  let proved ← proveFrame sha256 library index boundary witness prover.rom fault
  prover.extend proved

/-- Proves one more segment and appends its frame. -/
def append (witness : NativeSegmentWitness akita Columns) (fault : SpoolFault) :
    Except NativeProverError Unit × NativeReceiptStreamProver akita Columns :=
  match prover.prepare sha256 library witness fault with
  | .error error => (.error error, prover)
  | .ok (frame, next) =>
    match fault with
    | .seek message => (.error (.receipt (.io message)), prover)
    | .write written message => (.error (.receipt (.io message)),
        { prover with
          spool := writeAt prover.spool prover.spoolBytes.toNat (frame.take written) })
    | _ => (.ok (), { next with spool := writeAt prover.spool prover.spoolBytes.toNat frame })

/-- The statement over the appended segments, and the receipt: a header and the frames. -/
def finish : Except NativeReceiptError (NativeStatement × List Byte) := do
  let initial ← someOr prover.initial .invalidStatement
  let finalBoundary ← someOr prover.boundary .invalidStatement
  let rom ← directRomIdentityFor sha256 .current prover.rom.commitment
  let statement ← NativeStatement.newFor sha256 .current rom initial finalBoundary
    prover.segmentCount prover.transitionCount prover.relationRowCount
  let statementBytes ← encodeStatement statement
  let romBytes ← encodeRom prover.rom.commitment
  let headerBytes := 40 + (statementBytes.length + romBytes.length)
  rejectIf (2 ^ 64 ≤ headerBytes + prover.spoolBytes.toNat) .counter
  rejectIf (maxNativeStreamReceiptBytes < headerBytes + prover.spoolBytes.toNat)
    (.wire "stream receipt length limit")
  let frames := prover.spool.take prover.spoolBytes.toNat
  rejectIf (frames.length ≠ prover.spoolBytes.toNat) (.wire "segment spool ended unexpectedly")
  return (statement, (receiptMagic statement.protocol).toList ++
    leBytes 8 statement.protocol.code.toNat ++
    (leBytes 8 statementBytes.length ++ statementBytes) ++
    (leBytes 8 romBytes.length ++ romBytes) ++ leBytes 8 prover.segmentCount.toNat ++ frames)

end NativeReceiptStreamProver

end Prove

/-! ## Taking up a spool -/

/-- What the frames of a spool establish. -/
structure VerifiedNativeSpool (akita : Akita) where
  initial : NativeBoundary
  finalBoundary : NativeBoundary
  finalMemory : MemoryCommitment akita
  segmentCount : UInt64
  transitionCount : UInt64
  relationRowCount : UInt64
  spoolBytes : UInt64

/-- Where the loop over the frames of a spool stands. -/
structure SpoolProgress (akita : Akita) where
  initial : Option NativeBoundary
  boundary : Option NativeBoundary
  previousMemory : Option (MemoryCommitment akita)
  segmentCount : UInt64
  transitionCount : UInt64
  relationRowCount : UInt64

def SpoolProgress.start (akita : Akita) : SpoolProgress akita := ⟨none, none, none, 0, 0, 0⟩

def readExactWire (length : ℕ) (input : List Byte) :
    Except NativeReceiptError (List Byte × List Byte) := do
  rejectIf (input.length < length) (.wire "receipt ended unexpectedly")
  return (input.take length, input.drop length)

def readSpoolFrame (input : List Byte) : Except NativeReceiptError (List Byte × List Byte) := do
  let (lengthBytes, rest) ← readExactWire 8 input
  let length := leValue lengthBytes
  rejectIf (maxNativeSegmentBytes < length) (.wire "component length limit")
  rejectIf (rest.length < length) (.wire "segment spool ended unexpectedly")
  readExactWire length rest

def validateSpoolLength (actual declared : ℕ) : Except NativeReceiptError Unit := do
  rejectIf (declared = 0 ∨ maxNativeStreamReceiptBytes < declared)
    (.wire "segment spool length is invalid")
  rejectIf (actual ≠ declared) (.wire "segment spool length differs from the declared length")

section Resume

variable (sha256 : List Byte → Digest) {akita : Akita}
  (verifyComponents : NativeProtocolVersion → PackedBlockProof akita →
    PackedBlockVerificationInputs akita → Except PackedBlockProofError Unit)

/-- The next segment of a spool. -/
def verifySpoolNext (rom : RomCommitment akita) (progress : SpoolProgress akita)
    (segment : NativeSegmentReceipt akita) : Except NativeReceiptError (SpoolProgress akita) := do
  let expectedInitial ← match progress.boundary with
    | some boundary => .ok boundary
    | none =>
      NativeBoundary.initialFor sha256 .current segment.initial.state segment.initialMemory
  if let some memory := progress.previousMemory then
    ensureSameMemory sha256 memory segment.initialMemory .current
  verifySegment sha256 verifyComponents progress.segmentCount.toNat segment expectedInitial rom
    .current
  let transitionCount ← checkedAdd progress.transitionCount segment.transitionCount
  let relationRowCount ← checkedAdd progress.relationRowCount segment.activeRowCount
  let segmentCount ← checkedAdd progress.segmentCount 1
  return ⟨some (progress.initial.getD segment.initial), some segment.finalBoundary,
    some segment.finalMemory, segmentCount, transitionCount, relationRowCount⟩

/-- The frames that are left of a spool; `left` segments may still follow. -/
def verifySpoolLoop (rom : RomCommitment akita) :
    ℕ → List Byte → SpoolProgress akita → Except NativeReceiptError (SpoolProgress akita)
  | _, [], progress => .ok progress
  | 0, _ :: _, _ => .error .invalidStatement
  | left + 1, byte :: bytes, progress => do
    let (segmentBytes, rest) ← readSpoolFrame (byte :: bytes)
    let segment ← decodeSegment segmentBytes
    let progress ← verifySpoolNext sha256 verifyComponents rom progress segment
    verifySpoolLoop rom left rest progress

def verifySpool (spool : List Byte) (rom : RomCommitment akita) :
    Except NativeReceiptError (VerifiedNativeSpool akita) := do
  let progress ← verifySpoolLoop sha256 verifyComponents rom maxNativeSegmentCount spool
    (.start akita)
  let initial ← someOr progress.initial .invalidStatement
  let finalBoundary ← someOr progress.boundary .invalidStatement
  let finalMemory ← someOr progress.previousMemory .invalidStatement
  return ⟨initial, finalBoundary, finalMemory, progress.segmentCount, progress.transitionCount,
    progress.relationRowCount, .ofNat spool.length⟩

/-- Verifies every frame of a spool of the declared length. -/
def verifyNativeSpoolReader (spool : List Byte) (declaredSpoolBytes : ℕ)
    (rom : RomCommitment akita) : Except NativeReceiptError (VerifiedNativeSpool akita) := do
  validateSpoolLength spool.length declaredSpoolBytes
  verifySpool sha256 verifyComponents spool rom

/-- The prover that has appended the frames of a spool. -/
def NativeReceiptStreamProver.resume {Columns : Type} (rom : CommittedRom akita Columns)
    (spool : List Byte) : Except NativeReceiptError (NativeReceiptStreamProver akita Columns) := do
  rejectIf (spool.length = 0 ∨ maxNativeStreamReceiptBytes < spool.length)
    (.wire "segment spool length is invalid")
  let progress ← verifyNativeSpoolReader sha256 verifyComponents spool spool.length rom.commitment
  return ⟨rom, spool, some progress.initial, some progress.finalBoundary,
    some progress.finalMemory, progress.segmentCount, progress.transitionCount,
    progress.relationRowCount, progress.spoolBytes⟩

end Resume

end Zksm83
