import Zksm83.Receipt.Appends
import Zksm83.Argument.StateScalars
import Zksm83.Trace.Resume
import Zksm83.Trace.Segment

/-!
# The resumable prover

The command that proves a whole execution, segment by segment. Each segment is filled by the
emulator, proved and appended to the spool; then a checkpoint of the machine replaces the last one.
An invocation may be interrupted anywhere. The next one takes up the last checkpoint: it cuts off
what lies behind the checkpointed frames, verifies them and compares them with the checkpoint. The
statement and the receipt are published when the execution has come to the expected endpoint. After
the binary `zksm83-native-prover`.

Files are their contents. A checkpoint replaces the last one as a whole, and the spool is durable
before it does; what an interrupted append has written lies behind the checkpointed frames.
-/

namespace Zksm83

open Rejecting

/-- The public scalars of a state. -/
def NativeStateBoundary.fromVmState (state : AuthenticatedState) : NativeStateBoundary :=
  ⟨fun index => .ofNat ((encodeStateScalars state).getD index 0)⟩

namespace NativeProver

/-! ## Files -/

inductive Artifact where
  | spool
  | progressCheckpoint
  | statement
  | receipt
  deriving DecidableEq, Repr

/-- The errors of the command. Those of a packed segment also name a mismatch of a checkpoint. -/
inductive CommandError where
  | outputExists (artifact : Artifact)
  | missing (artifact : Artifact)
  | finalArtifactMismatch (artifact : Artifact)
  | segment (error : CliError)
  | progressMemoryCommitment (spooled checkpoint : Digest)
  | endpointMismatch (text : String)
  | receipt (error : NativeProverError)
  | blockCpu (message : String)
  | trace (error : TraceBuilderError)
  | memory (error : MemoryImageError)
  | rom (error : RomImageError)
  | memoryCommitment (error : PcsError)
  deriving DecidableEq, Repr

def progressMismatch (text : String) : CommandError := .segment (.progressMismatch text)

def receiptError (error : NativeReceiptError) : CommandError := .receipt (.receipt error)

/-- The digests of the files that a proof is about. -/
structure InputIdentities where
  rom : Digest
  input : Digest
  expected : Digest
  deriving DecidableEq

/-- A checkpoint, decoded. -/
structure ProverProgress where
  schema : String
  receiptVersion : UInt64
  protocolId : String
  proofCompositionRevision : String
  backendDigestSha256 : Digest
  traceScheduleSha256 : String
  auxiliaryScheduleSha256 : String
  romSha256 : Digest
  inputSha256 : Digest
  expectedCheckpointSha256 : Digest
  relationRowCapacity : ℕ
  segmentCount : UInt64
  completedSteps : UInt64
  relationRowCount : UInt64
  spoolBytes : UInt64
  state : AuthenticatedState
  memory : List Byte

/-- The files of the command; the statement and the receipt are published last. -/
structure Files where
  spool : Option (List Byte)
  progress : Option ProverProgress
  statement : Option (List Byte)
  receipt : Option (List Byte)

def Files.none : Files := ⟨.none, .none, .none, .none⟩

/-- The end that an execution has to come to. -/
structure ExpectedState where
  profile : MachineProfile
  cpu : CpuState
  mbc3 : Mbc3State
  dmgDevices : DmgDeviceState
  inputLog : LogAccumulator
  outputLog : LogAccumulator

structure ExpectedCheckpoint where
  completedSteps : UInt64
  state : ExpectedState
  memory : List Byte

abbrev progressSchema : String := "zksm83-native-prover-progress/v5"

abbrev proofCompositionRevision : String :=
  "packed-block-jolt-execution-shout-compact20-compact-aux55-isa38-mbc3-profiled-rom-size-" ++
    "rtc-wire-v2"

abbrev auxiliaryScheduleSha256 : String :=
  "e601bc0bd9d4501220c367b3012901aac09467f145899c8e907b282d30e96646"

abbrev maxInputBytes : ℕ := 16 * 1024 * 1024

/-- What an execution is proved of. -/
structure CommandInputs (akita : Akita) (Columns : Type) where
  romBytes : List Byte
  rom : CommittedRom akita Columns
  machineProfile : MachineProfile
  input : List Byte
  input_le : input.length ≤ maxInputBytes
  expected : ExpectedCheckpoint
  expectedBytes : List Byte

/-- What the command takes from other crates: the hash, the proof library, the commitment of memory
and the columns of a segment. -/
structure ProverEnvironment (akita : Akita) (Columns : Type) where
  sha256 : List Byte → CommitmentRoot
  library : ProverLibrary akita Columns
  verifyComponents : NativeProtocolVersion → PackedBlockProof akita →
    PackedBlockVerificationInputs akita → Except PackedBlockProofError Unit
  commitMemory : List Byte → Except PcsError (CommittedMemory akita Columns)
  constructBlockColumns : List BasicBlock → Except String Logs.BlockCpuWitness

namespace ProverEnvironment

variable {akita : Akita} {Columns : Type} (env : ProverEnvironment akita Columns)

/-- The hash of the receipts. -/
def digest (bytes : List Byte) : Digest := (env.sha256 bytes).bytes

/-- The witness of a segment: its columns, and the states that its blocks lead from and to. -/
def constructBlockWitness (blocks : List BasicBlock) : Except CommandError PackedTrace :=
  match blocks.head?, blocks.getLast? with
  | some first, some last => do
    let witness ← (env.constructBlockColumns blocks).mapError .blockCpu
    return ⟨witness, (blocks.map (·.rows.length)).sum, .fromVmState first.initialState,
      .fromVmState last.finalState⟩
  | _, _ => .error (.blockCpu "packed mutable-memory witness violated its typed layout")

end ProverEnvironment

/-! ## Checkpoints -/

/-- What is left to prove an execution: the machine, its committed memory, the steps that have been
proved and the prover of the receipt. -/
structure Session (akita : Akita) (Columns : Type) where
  builder : TraceBuilder
  initialMemory : CommittedMemory akita Columns
  completedSteps : UInt64
  prover : NativeReceiptStreamProver akita Columns

section Command

variable {akita : Akita} {Columns : Type} (env : ProverEnvironment akita Columns)
  (inputs : CommandInputs akita Columns)

def identities : InputIdentities :=
  ⟨env.digest inputs.romBytes, env.digest inputs.input, env.digest inputs.expectedBytes⟩

/-- The checkpoint of a session. -/
def progressOf (session : Session akita Columns) : ProverProgress where
  schema := progressSchema
  receiptVersion := NativeProtocolVersion.current.code
  protocolId := NativeProtocolVersion.current.protocolId
  proofCompositionRevision := proofCompositionRevision
  backendDigestSha256 := backendDigest env.digest .current
  traceScheduleSha256 := NativeProtocolVersion.current.traceScheduleSha256
  auxiliaryScheduleSha256 := auxiliaryScheduleSha256
  romSha256 := (identities env inputs).rom
  inputSha256 := (identities env inputs).input
  expectedCheckpointSha256 := (identities env inputs).expected
  relationRowCapacity := uniformRowCount
  segmentCount := session.prover.segmentCount
  completedSteps := session.prover.transitionCount
  relationRowCount := session.prover.relationRowCount
  spoolBytes := session.prover.spoolBytes
  state := session.builder.state
  memory := session.builder.memory.checkpointBytes

def validateProgress (progress : ProverProgress) (identities : InputIdentities) :
    Except CommandError Unit := do
  rejectIf (progress.schema ≠ progressSchema) (progressMismatch "schema")
  rejectIf (progress.receiptVersion ≠ NativeProtocolVersion.current.code ∨
      progress.protocolId ≠ NativeProtocolVersion.current.protocolId ∨
      progress.proofCompositionRevision ≠ proofCompositionRevision ∨
      progress.backendDigestSha256 ≠ backendDigest env.digest .current ∨
      progress.traceScheduleSha256 ≠ NativeProtocolVersion.current.traceScheduleSha256 ∨
      progress.auxiliaryScheduleSha256 ≠ auxiliaryScheduleSha256)
    (progressMismatch "protocol identity")
  rejectIf (progress.relationRowCapacity ≠ uniformRowCount)
    (progressMismatch "relation-row capacity")
  rejectIf (2 ^ 64 ≤ progress.segmentCount.toNat * uniformRowCount)
    (progressMismatch "relation-row count overflow")
  rejectIf (2 ^ 64 ≤ progress.relationRowCount.toNat * basicBlockInstructionBound)
    (progressMismatch "transition count overflow")
  rejectIf (progress.segmentCount.toNat = 0 ∨
      maxNativeSegmentCount < progress.segmentCount.toNat ∨
      progress.relationRowCount.toNat = 0 ∨ progress.completedSteps.toNat = 0 ∨
      progress.relationRowCount.toNat < progress.segmentCount.toNat ∨
      progress.segmentCount.toNat * uniformRowCount < progress.relationRowCount.toNat ∨
      progress.completedSteps.toNat < progress.relationRowCount.toNat ∨
      progress.relationRowCount.toNat * basicBlockInstructionBound <
        progress.completedSteps.toNat ∨
      progress.spoolBytes.toNat = 0 ∨ maxNativeStreamReceiptBytes < progress.spoolBytes.toNat)
    (progressMismatch "progress counters")
  rejectIf (progress.romSha256 ≠ identities.rom ∨ progress.inputSha256 ≠ identities.input ∨
    progress.expectedCheckpointSha256 ≠ identities.expected) (progressMismatch "input identity")

inductive SpoolRecovery where
  | exact
  | discardUncheckpointedTail
  deriving DecidableEq, Repr

def spoolRecovery (actual checkpointed : ℕ) : Except CommandError SpoolRecovery :=
  if actual < checkpointed then .error (progressMismatch "spool is shorter than checkpoint")
  else if actual = checkpointed then .ok .exact
  else .ok .discardUncheckpointedTail

/-- The spool without what lies behind the checkpoint. -/
def recoverSpool (spool : List Byte) (checkpointed : ℕ) : Except CommandError (List Byte) := do
  match ← spoolRecovery spool.length checkpointed with
  | .exact => return spool
  | .discardUncheckpointedTail => return spool.take checkpointed

/-- What has been verified of a spool. -/
structure VerifiedProgress (akita : Akita) where
  segmentCount : UInt64
  transitionCount : UInt64
  relationRowCount : UInt64
  spoolBytes : UInt64
  finalBoundary : NativeBoundary
  finalMemory : MemoryCommitment akita

def validateVerifiedCounters (progress : ProverProgress)
    (segmentCount transitionCount relationRowCount spoolBytes : UInt64) :
    Except CommandError Unit :=
  rejectIf (segmentCount ≠ progress.segmentCount ∨ transitionCount ≠ progress.completedSteps ∨
    relationRowCount ≠ progress.relationRowCount ∨ spoolBytes ≠ progress.spoolBytes)
    (progressMismatch "verified spool counters differ")

/-- Compares a verified spool with a checkpoint, whose memory is committed again. -/
def validateVerifiedProgress (progress : ProverProgress) (verified : VerifiedProgress akita) :
    Except CommandError (CommittedMemory akita Columns) := do
  validateVerifiedCounters progress verified.segmentCount verified.transitionCount
    verified.relationRowCount verified.spoolBytes
  rejectIf (verified.finalBoundary.state ≠ .fromVmState progress.state)
    (progressMismatch "verified spool state differs from checkpoint")
  let checkpointMemory ← (env.commitMemory progress.memory).mapError .memoryCommitment
  let spooled ← verified.finalMemory.canonicalBytes.mapError .memoryCommitment
  let checkpoint ← checkpointMemory.commitment.canonicalBytes.mapError .memoryCommitment
  rejectIf (spooled ≠ checkpoint)
    (.progressMemoryCommitment (env.digest spooled) (env.digest checkpoint))
  return checkpointMemory

/-! ## Sessions -/

/-- A session over zeroed memory, at the post-boot state. -/
def start (files : Files) : Except CommandError (Session akita Columns) := do
  rejectIf (files.spool.isSome) (.outputExists .spool)
  rejectIf (files.progress.isSome) (.outputExists .progressCheckpoint)
  let memory ← (MemoryImage.zeroed env.sha256).mapError .memory
  let initialMemory ← (env.commitMemory memory.checkpointBytes).mapError .memoryCommitment
  let rom ← (RomImage.new env.sha256 inputs.romBytes).mapError .rom
  let builder ← (TraceBuilder.newDmgPostBootMbc3Profile env.sha256 rom memory inputs.input
    inputs.machineProfile).mapError .trace
  let prover ← (NativeReceiptStreamProver.new inputs.rom []).mapError receiptError
  return ⟨builder, initialMemory, 0, prover⟩

/-- The checkpoint that can be taken up, and the spool cut off behind its frames. -/
def recover (files : Files) : Except CommandError (ProverProgress × List Byte) := do
  let progress ← someOr files.progress (.missing .progressCheckpoint)
  validateProgress env progress (identities env inputs)
  let spool ← someOr files.spool (.missing .spool)
  let spool ← recoverSpool spool progress.spoolBytes.toNat
  return (progress, spool)

/-- The session of a checkpoint, whose prover has been taken up. -/
def restoreFrom (progress : ProverProgress) (prover : NativeReceiptStreamProver akita Columns) :
    Except CommandError (Session akita Columns) := do
  let finalBoundary ← someOr prover.boundary
    (progressMismatch "verified spool has no final boundary")
  let finalMemory ← someOr prover.previousMemory (progressMismatch "verified spool has no memory")
  let initialMemory ← validateVerifiedProgress env progress ⟨prover.segmentCount,
    prover.transitionCount, prover.relationRowCount, prover.spoolBytes, finalBoundary, finalMemory⟩
  let memory ← (MemoryImage.fromCheckpointBytes env.sha256 progress.memory).mapError .memory
  let rom ← (RomImage.new env.sha256 inputs.romBytes).mapError .rom
  let builder ← (TraceBuilder.resume env.sha256 rom memory inputs.input progress.state).mapError
    .trace
  return ⟨builder, initialMemory, progress.completedSteps, prover⟩

/-- The session of a checkpoint, once the frames in the spool have been verified. -/
def restore (progress : ProverProgress) (spool : List Byte) :
    Except CommandError (Session akita Columns) := do
  let prover ← (NativeReceiptStreamProver.resume env.digest env.verifyComponents inputs.rom
    spool).mapError receiptError
  restoreFrom env inputs progress prover

/-- Proves the next segment and appends it. -/
def proveNext (session : Session akita Columns) : Except CommandError (Session akita Columns) := do
  let remaining := inputs.expected.completedSteps.toNat - session.completedSteps.toNat
  let filled := outcome (TraceBuilder.fillPackedSegmentWithCapacity env.sha256 remaining
    uniformRowCount) session.builder
  let segment ← filled.1.mapError .segment
  let builder := filled.2
  let trace ← env.constructBlockWitness segment.blocks
  rejectIf (2 ^ 64 ≤ trace.transitionCount) (progressMismatch "packed transition count overflow")
  rejectIf (trace.transitionCount ≠ segment.completedSteps)
    (progressMismatch "packed transition count differs from emulator cursor")
  let finalMemory ← (env.commitMemory builder.memory.checkpointBytes).mapError .memoryCommitment
  let appended := session.prover.append env.digest env.library
    ⟨trace, session.initialMemory, finalMemory⟩ .none
  appended.1.mapError .receipt
  let prover := appended.2
  rejectIf (2 ^ 64 ≤ session.completedSteps.toNat + segment.completedSteps)
    (progressMismatch "completed-step cursor overflow")
  rejectIf (prover.transitionCount.toNat ≠ session.completedSteps.toNat + segment.completedSteps)
    (progressMismatch "proved transition count differs from emulator cursor")
  return ⟨builder, finalMemory, prover.transitionCount, prover⟩

/-- The files after a segment has been proved: first the spool, then the checkpoint. -/
def written (session : Session akita Columns) (files : Files) : Files :=
  { files with
    spool := some session.prover.spool
    progress := some (progressOf env inputs session) }

/-- Proves segments up to the expected endpoint, or up to a limit. The last session and the files
are given also when a segment fails. -/
def proveSegments : ℕ → Session akita Columns → Files →
    (Session akita Columns × Files) × Option CommandError
  | 0, session, files => ((session, files), none)
  | limit + 1, session, files =>
    if inputs.expected.completedSteps ≤ session.completedSteps then ((session, files), none)
    else
      match proveNext env inputs session with
      | .error error => ((session, files), some error)
      | .ok next => proveSegments limit next (written env inputs next files)

/-! ## The receipt -/

/-- Compares the state that was reached with the expected one. -/
def validateEndpoint (actual : AuthenticatedState) (memory romBytes input : List Byte)
    (expected : ExpectedCheckpoint) : Except CommandError Unit := do
  rejectIf (memory ≠ expected.memory) (.endpointMismatch "exact mutable memory image")
  let rom ← (RomImage.new env.sha256 romBytes).mapError .rom
  let image ← (MemoryImage.fromCheckpointBytes env.sha256 expected.memory).mapError .memory
  let state := expected.state
  rejectIf (input.length < state.inputLog.nextIndex)
    (.endpointMismatch "input prefix exceeds supplied bytes")
  let inputLog ← (LogAccumulator.commit env.sha256 .input
    (input.take state.inputLog.nextIndex)).mapError
      (fun _ => .endpointMismatch "input log index overflow")
  rejectIf (state.outputLog.nextIndex ≠ 0)
    (.endpointMismatch "nonempty output endpoint unsupported")
  rejectIf (¬(actual.vm.profile = state.profile ∧ actual.vm.cpu = state.cpu ∧
      actual.vm.mbc3 = state.mbc3 ∧ actual.vm.dmgDevices = state.dmgDevices ∧
      actual.roots.romRoot = rom.root ∧ actual.roots.memoryRoot = image.root ∧
      actual.inputLog = inputLog ∧ actual.outputLog = .empty env.sha256 .output))
    (.endpointMismatch "typed final VM state")

/-- What is published at the end. -/
structure Conclusion where
  statement : NativeStatement
  statementBytes : List Byte
  receipt : List Byte

/-- The conclusion of a session that has come to the endpoint. -/
def conclude (session : Session akita Columns) : Except CommandError Conclusion := do
  validateEndpoint env session.builder.state session.builder.memory.checkpointBytes
    inputs.romBytes inputs.input inputs.expected
  let (statement, receipt) ← (session.prover.finish env.digest).mapError receiptError
  let statementBytes ← (encodeStatement statement).mapError receiptError
  return ⟨statement, statementBytes, receipt⟩

/-- A statement that is there already has to be the same. -/
def publishStatement (conclusion : Conclusion) (files : Files) : Except CommandError Files :=
  match files.statement with
  | some existing =>
    if existing ≠ conclusion.statementBytes then .error (.finalArtifactMismatch .statement)
    else .ok files
  | none => .ok { files with statement := some conclusion.statementBytes }

/-! ## Invocations -/

/-- What interrupts an invocation. While a segment is proved, bytes may get behind the spool. -/
inductive Interruption where
  | none
  | proving (tail : List Byte)
  | beforeStatement
  | beforeReceipt
  deriving DecidableEq, Repr

structure Invocation where
  resume : Bool
  segmentLimit : Option ℕ
  interruption : Interruption
  deriving DecidableEq, Repr

/-- Starts or takes up a session. The spool is created, or cut off behind the checkpoint. -/
def launch (resume : Bool) (files : Files) :
    Except CommandError (Session akita Columns) × Files :=
  if files.receipt.isSome then (.error (.outputExists .receipt), files)
  else if resume then
    match recover env inputs files with
    | .error error => (.error error, files)
    | .ok (progress, spool) =>
      (restore env inputs progress spool, { files with spool := some spool })
  else if files.statement.isSome then (.error (.outputExists .statement), files)
  else
    match start env inputs files with
    | .error error => (.error error, files)
    | .ok session => (.ok session, { files with spool := some [] })

/-- What is published of a session, as far as the invocation gets. -/
def finalize (interruption : Interruption) (session : Session akita Columns) (files : Files) :
    Files :=
  match conclude env inputs session with
  | .error _ => files
  | .ok conclusion =>
    if interruption = .beforeStatement then files
    else
      match publishStatement conclusion files with
      | .error _ => files
      | .ok files =>
        if interruption = .beforeReceipt ∨ files.receipt.isSome then files
        else { files with receipt := some conclusion.receipt }

/-- The files after an invocation. A segment has a step, so that the steps bound the segments. -/
def perform (files : Files) (invocation : Invocation) : Files :=
  match launch env inputs invocation.resume files with
  | (.error _, files) => files
  | (.ok session, files) =>
    if session.completedSteps ≠ session.prover.transitionCount ∨
        inputs.expected.completedSteps < session.completedSteps then files
    else
      let limit := invocation.segmentLimit.getD inputs.expected.completedSteps.toNat
      let ((last, files), error) := proveSegments env inputs limit session files
      match invocation.interruption with
      | .proving tail => { files with spool := files.spool.map (· ++ tail) }
      | interruption =>
        if error.isSome ∨ last.completedSteps ≠ inputs.expected.completedSteps then files
        else finalize env inputs interruption last files

end Command

end NativeProver

end Zksm83
