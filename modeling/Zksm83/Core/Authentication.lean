import Zksm83.Core.Step
import Zksm83.Isa.Table
import Zksm83.Memory.Transcript

/-!
# Authenticated steps

The reference relation authenticates every ROM and memory witness by its Merkle path and commits to
its events and its instruction in two ordered transcripts. The lookup relation authenticates nothing
and leaves the memory root and the transcripts as they are. Both extend the ordered input and output
logs. The roots of the logs are read by no access, so a step extends them at its end, over its
events. After `bus.rs`, `log.rs`, `bus_transcript.rs` and `isa_transcript.rs`.
-/

namespace Zksm83

open Rejecting

/-- The canonical tuple of an event. -/
structure BusTranscriptEvent where
  kind : ℕ
  address : ℕ
  physicalAddress : ℕ
  before : ℕ
  auxiliary : ℕ
  value : ℕ
  index : ℕ
  deriving DecidableEq, Repr

def BusTranscriptEvent.canonicalBytes (event : BusTranscriptEvent) (transcriptIndex : ℕ) :
    List Byte :=
  leBytes 1 event.kind ++ leBytes 2 event.address ++ leBytes 4 event.physicalAddress ++
    leBytes 1 event.before ++ leBytes 1 event.auxiliary ++ leBytes 1 event.value ++
    leBytes 8 event.index ++ leBytes 8 transcriptIndex

namespace BusEvent

variable {π : Type}

/-- The stable code of the kind of an event. -/
def kindCode : BusEvent π → ℕ
  | .opcodeFetch _ => 1
  | .immediateRead _ => 2
  | .romRead _ => 3
  | .memoryRead _ => 4
  | .memoryWrite _ => 5
  | .inputRead _ _ => 6
  | .outputWrite _ _ => 7
  | .mbc3ControlWrite _ _ => 8
  | .mbc3OpenBusRead _ _ => 9
  | .mbc3IgnoredWrite _ _ => 10
  | .dmgMmioRead _ _ => 11
  | .dmgMmioWrite _ _ _ => 12
  | .dmgJoypadRead _ _ _ _ => 13
  | .memoryOpcodeFetch _ => 14
  | .memoryImmediateRead _ => 15
  | .dmgDmaRomRead _ => 16
  | .dmgDmaMemoryRead _ => 17
  | .dmgDmaWrite _ => 18

def transcriptEvent (event : BusEvent π) : BusTranscriptEvent :=
  let empty : BusTranscriptEvent := ⟨event.kindCode, 0, 0, 0, 0, 0, 0⟩
  match event with
  | .opcodeFetch read | .immediateRead read | .romRead read | .dmgDmaRomRead read =>
    { empty with
      address := read.address, physicalAddress := read.physicalAddress, value := read.value }
  | .memoryOpcodeFetch read | .memoryImmediateRead read | .memoryRead read
  | .dmgDmaMemoryRead read =>
    { empty with
      address := read.address, physicalAddress := read.physicalAddress, value := read.value }
  | .memoryWrite write | .dmgDmaWrite write =>
    { empty with
      address := write.address, physicalAddress := write.physicalAddress
      before := write.before, value := write.after }
  | .mbc3ControlWrite address value | .mbc3OpenBusRead address value
  | .mbc3IgnoredWrite address value | .dmgMmioRead address value =>
    { empty with address := address, value := value }
  | .inputRead index value => { empty with address := inputPort, value := value, index := index }
  | .outputWrite index value => { empty with address := outputPort, value := value, index := index }
  | .dmgMmioWrite address before value =>
    { empty with address := address, before := before, value := value }
  | .dmgJoypadRead index beforeButtons buttons value =>
    { empty with
      address := 0xff00, before := beforeButtons, auxiliary := buttons, value := value
      index := index }

end BusEvent

/-- The next ordinal and the prefix root of the bus transcript. -/
structure BusTranscriptAccumulator where
  nextIndex : ℕ
  root : CommitmentRoot
  deriving DecidableEq, Repr

/-- The next ordinal and the prefix root of the ISA transcript. -/
structure IsaTranscriptAccumulator where
  nextIndex : ℕ
  root : CommitmentRoot
  deriving DecidableEq, Repr

/-- The authentication roots of a state; the next indices of the logs are in the VM state. -/
structure AuthenticationRoots where
  romRoot : CommitmentRoot
  memoryRoot : CommitmentRoot
  inputRoot : CommitmentRoot
  outputRoot : CommitmentRoot
  busTranscript : BusTranscriptAccumulator
  isaTranscript : IsaTranscriptAccumulator
  deriving DecidableEq, Repr

section Commitments

variable (sha256 : List Byte → CommitmentRoot)

def BusTranscriptAccumulator.append (transcript : BusTranscriptAccumulator)
    (event : BusTranscriptEvent) : Except BusTranscriptError BusTranscriptAccumulator := do
  if 19 ≤ event.kind ∨ 2 ^ 20 ≤ event.physicalAddress then throw .nonCanonicalEvent
  if 2 ^ 64 ≤ transcript.nextIndex + 1 then throw .indexOverflow
  return ⟨transcript.nextIndex + 1, hashParts sha256 .busTranscriptElement transcript.root.toBytes
    (event.canonicalBytes transcript.nextIndex)⟩

def IsaTranscriptAccumulator.append (transcript : IsaTranscriptAccumulator) (packedRow : ℕ) :
    Except IsaTranscriptError IsaTranscriptAccumulator := do
  if 2 ^ 106 ≤ packedRow then throw .nonCanonicalRow
  if 2 ^ 64 ≤ transcript.nextIndex + 1 then throw .indexOverflow
  return ⟨transcript.nextIndex + 1, hashParts sha256 .isaTranscriptElement transcript.root.toBytes
    (leBytes 8 transcript.nextIndex ++ leBytes 16 packedRow)⟩

/-- The root of an ordered log after one more byte. -/
def appendLog (domain : HashDomain) (root : CommitmentRoot) (index value : ℕ) : CommitmentRoot :=
  hashParts sha256 domain root.toBytes (leBytes 8 index ++ leBytes 1 value)

namespace AuthenticationRoots

/-- The log roots after an event. -/
def appendEvent {π : Type} (roots : AuthenticationRoots) : BusEvent π → AuthenticationRoots
  | .inputRead index value =>
    { roots with inputRoot := appendLog sha256 .inputElement roots.inputRoot index value }
  | .dmgJoypadRead index _ buttons _ =>
    { roots with inputRoot := appendLog sha256 .inputElement roots.inputRoot index buttons }
  | .outputWrite index value =>
    { roots with outputRoot := appendLog sha256 .outputElement roots.outputRoot index value }
  | _ => roots

/-- The log roots after the events of a step. -/
def appendLogs {π : Type} (roots : AuthenticationRoots) (events : List (BusEvent π)) :
    AuthenticationRoots :=
  events.foldl (appendEvent sha256) roots

end AuthenticationRoots

/-- The bus transcript after the events of a step. -/
def commitEvents {π : Type} (transcript : BusTranscriptAccumulator) (events : List (BusEvent π)) :
    Except StepError BusTranscriptAccumulator :=
  (events.foldlM (fun (reached : BusTranscriptAccumulator) event =>
      reached.append sha256 event.transcriptEvent)
    transcript).mapError .busTranscriptCommitment

/-- The transcripts after a step. -/
def commitStep {π : Type} (roots : AuthenticationRoots) (events : List (BusEvent π))
    (instruction : DecodedInstruction) : Except StepError AuthenticationRoots := do
  let logged := roots.appendLogs sha256 events
  let busTranscript ← commitEvents sha256 logged.busTranscript events
  let isaTranscript ← (logged.isaTranscript.append sha256
    (IsaTable.packedRecord instruction)).mapError .isaTranscriptCommitment
  return { logged with busTranscript := busTranscript, isaTranscript := isaTranscript }

/-- Authentication by Merkle paths. -/
def BusAuthentication.merkle : BusAuthentication MerklePath AuthenticationRoots where
  verifyRom roots read := (read.derive sha256 roots.romRoot).mapError .romAuthentication
  verifyRead roots read := (read.derive sha256 roots.memoryRoot).mapError .memoryAuthentication
  verifyWrite roots write := do
    let memoryRoot ← (write.derive sha256 roots.memoryRoot).mapError .memoryAuthentication
    return { roots with memoryRoot := memoryRoot }
  commit := commitStep sha256

/-- The lookup relation with its roots: only the logs advance. -/
def BusAuthentication.lookupRoots : BusAuthentication MerklePath AuthenticationRoots where
  verifyRom _ _ := .ok ()
  verifyRead _ _ := .ok ()
  verifyWrite roots _ := .ok roots
  commit roots events _ := .ok (roots.appendLogs sha256 events)

end Commitments

/-- A VM state with its authentication roots. -/
structure AuthenticatedState where
  vm : VmState
  roots : AuthenticationRoots
  deriving DecidableEq, Repr

/-- A step with its authentication. -/
def applyAuthenticated (authentication : BusAuthentication MerklePath AuthenticationRoots)
    (state : AuthenticatedState) (input : List (BusWitness MerklePath)) :
    Except StepError (AuthenticatedState × StepEffects MerklePath) := do
  let ((vm, roots), effects) ← Step.apply authentication state.vm state.roots input
  return (⟨vm, roots⟩, effects)

/-- The reference relation. -/
def StepRelation.apply (sha256 : List Byte → CommitmentRoot) :=
  applyAuthenticated (.merkle sha256)

/-- The lookup relation. -/
def LookupStepRelation.apply (sha256 : List Byte → CommitmentRoot) :=
  applyAuthenticated (.lookupRoots sha256)

end Zksm83
