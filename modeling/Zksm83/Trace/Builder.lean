import Zksm83.Core.Authentication
import Zksm83.Core.WitnessOrder
import Zksm83.Memory.RomImage

/-!
# The trace builder

The prover adapter that answers the witness requests of a step from committed images. It runs the
step relation on the witnesses of its plan so far, adds what the relation misses, and starts again;
once the relation accepts, it enters the writes of the step into its own memory. The plan loop is
stated once for this builder and the lookup builder of `LookupBuilder.lean`. After `builder.rs`, the
initial states of `state.rs` and the byte logs of `log.rs`.
-/

namespace Zksm83

open Rejecting

inductive LogKind where
  | input | output
  deriving DecidableEq, Repr

namespace LogKind

def emptyDomain : LogKind → HashDomain
  | .input => .inputEmpty
  | .output => .outputEmpty

def elementDomain : LogKind → HashDomain
  | .input => .inputElement
  | .output => .outputElement

end LogKind

inductive LogError where
  | indexOverflow
  deriving DecidableEq, Repr

/-- The next index and the prefix root of an ordered log of bytes. -/
structure LogAccumulator where
  kind : LogKind
  nextIndex : ℕ
  root : CommitmentRoot
  deriving DecidableEq, Repr

inductive VmStateError where
  | unsupportedMachineProfile (profile : MachineProfile)
  deriving DecidableEq, Repr

def CpuState.profileInitial : CpuState where
  registers := ⟨0, 0, 0, 0, 0, 0, 0⟩
  flags := .fromByte 0
  pc := 0
  sp := 0xff00
  ime := .disabled
  runState := .running
  mCycles := 0

def DmgTimerState.empty : DmgTimerState := ⟨0, 0, 0, 0, false, 0⟩

def DmgApuState.empty : DmgApuState := ⟨List.replicate 23 0, List.replicate 16 0⟩

def DmgDeviceState.empty : DmgDeviceState where
  interruptRequest := 0
  interruptEnable := 0
  serialData := 0
  serialControl := 0
  serialCyclesRemaining := 0
  timer := .empty
  apu := .empty
  lcdControl := 0
  lcdStatusControl := 0
  scrollY := 0
  scrollX := 0
  backgroundPalette := 0
  objectPaletteZero := 0
  objectPaletteOne := 0
  windowY := 0
  windowX := 0
  lineCompare := 0
  ppuLine := 0
  ppuDot := 0
  joypadSelect := 0
  joypadButtons := 0
  dmaSourceHigh := 0
  dmaIndex := 0
  dmaActive := false
  dmaOwed := 0

def VmState.profileInitial : VmState where
  profile := .cleanCoreV1
  cpu := .profileInitial
  mbc3 := .profileInitial
  dmgDevices := .empty
  inputNext := 0
  outputNext := 0

/-- A planned access of a step. -/
inductive PlannedWitness where
  | rom (address physicalAddress : ℕ)
  | memoryRead (address physicalAddress : ℕ)
  | memoryWrite (address physicalAddress : ℕ) (value : Byte)
  | inputByte (value : Byte)
  deriving DecidableEq, Repr

def PlannedWitness.isInput : PlannedWitness → Bool
  | .inputByte _ => true
  | .rom _ _ | .memoryRead _ _ | .memoryWrite _ _ _ => false

abbrev maxWitnessesPerStep : ℕ := 5

/-- What the plan loop of a builder uses of it, with its errors. -/
structure Planner (ε : Type) where
  materialize : List PlannedWitness → Except ε (List (BusWitness MerklePath))
  apply : List (BusWitness MerklePath) →
    Except StepError (AuthenticatedState × StepEffects MerklePath)
  inputNext : ℕ
  privateInput : List Byte
  step : StepError → ε
  inputIndexOverflow : ε
  inputExhausted : ℕ → ε
  witnessBoundExceeded : ℕ → ε

namespace Planner

variable {ε : Type} (planner : Planner ε)

/-- The planned access for a request. -/
def plan (request : WitnessRequest) (existing : List PlannedWitness) :
    Except ε PlannedWitness :=
  match request with
  | .rom address physicalAddress _ => .ok (.rom address physicalAddress)
  | .memoryRead address physicalAddress => .ok (.memoryRead address physicalAddress)
  | .memoryWrite address physicalAddress value =>
    .ok (.memoryWrite address physicalAddress (Fin.ofNat 256 value))
  | .inputByte =>
    let index := planner.inputNext + existing.countP PlannedWitness.isInput
    if 2 ^ 64 ≤ index then .error planner.inputIndexOverflow
    else
      match planner.privateInput[index]? with
      | some value => .ok (.inputByte value)
      | none => .error (planner.inputExhausted index)

/-- The loop of a step, with room for `remaining` more witnesses in the plan. -/
def planLoop : ℕ → List PlannedWitness →
    Except ε (AuthenticatedState × StepEffects MerklePath)
  | remaining, existing => do
    let input ← planner.materialize existing
    match planner.apply input with
    | .ok result => .ok result
    | .error (.missingWitness request) =>
      match remaining with
      | 0 => .error (planner.witnessBoundExceeded maxWitnessesPerStep)
      | remaining + 1 =>
        let planned ← planner.plan request existing
        planLoop remaining (existing ++ [planned])
    | .error error => .error (planner.step error)

end Planner

/-- The write that an event describes. -/
def BusEvent.memoryEffect {π : Type} : BusEvent π → Option (MemoryWrite π)
  | .memoryWrite write | .dmgDmaWrite write => some write
  | _ => none

/-- One relation row: the states around an accepted step, and its effects. -/
structure TraceRow where
  before : AuthenticatedState
  after : AuthenticatedState
  effects : StepEffects MerklePath
  deriving DecidableEq

inductive TraceBuilderError where
  | step (error : StepError)
  | state (error : VmStateError)
  | rom (error : RomImageError)
  | memory (error : MemoryImageError)
  | inputExhausted (index : ℕ)
  | inputIndexOverflow
  | checkpointRomRootMismatch
  | checkpointMemoryRootMismatch
  | checkpointInputTooShort (consumed provided : ℕ)
  | checkpointInputRootMismatch
  | checkpointInputCommitment (error : LogError)
  | witnessBoundExceeded (maximum : ℕ)
  | memoryEffectDivergence
  deriving DecidableEq, Repr

structure TraceBuilder where
  rom : RomImage
  memory : MemoryImage
  privateInput : List Byte
  state : AuthenticatedState
  deriving DecidableEq

section Hashing

variable (sha256 : List Byte → CommitmentRoot)

namespace LogAccumulator

def empty (kind : LogKind) : LogAccumulator := ⟨kind, 0, hashParts sha256 kind.emptyDomain [] []⟩

def append (accumulator : LogAccumulator) (value : Byte) : Except LogError LogAccumulator :=
  if 2 ^ 64 ≤ accumulator.nextIndex + 1 then .error .indexOverflow
  else .ok ⟨accumulator.kind, accumulator.nextIndex + 1,
    appendLog sha256 accumulator.kind.elementDomain accumulator.root accumulator.nextIndex value⟩

def commit (kind : LogKind) (values : List Byte) : Except LogError LogAccumulator :=
  values.foldlM (append sha256) (empty sha256 kind)

end LogAccumulator

/-- The roots of a state at its start: the logs and the transcripts are empty. -/
def AuthenticationRoots.initial (romRoot memoryRoot : CommitmentRoot) : AuthenticationRoots where
  romRoot := romRoot
  memoryRoot := memoryRoot
  inputRoot := (LogAccumulator.empty sha256 .input).root
  outputRoot := (LogAccumulator.empty sha256 .output).root
  busTranscript := ⟨0, hashParts sha256 .busTranscriptEmpty [] []⟩
  isaTranscript := ⟨0, hashParts sha256 .isaTranscriptEmpty [] []⟩

/-- The input log of a state. -/
def AuthenticatedState.inputLog (state : AuthenticatedState) : LogAccumulator :=
  ⟨.input, state.vm.inputNext, state.roots.inputRoot⟩

/-- The post-boot state under a profile that has one. -/
def AuthenticatedState.dmgPostBootMbc3ProfileInitial (profile : MachineProfile)
    (romRoot memoryRoot : CommitmentRoot) : Except VmStateError AuthenticatedState :=
  if profile.isDmgPostBootMbc3 then
    .ok ⟨.dmgPostBootMbc3Initial profile, .initial sha256 romRoot memoryRoot⟩
  else .error (.unsupportedMachineProfile profile)

namespace TraceBuilder

def new (rom : RomImage) (memory : MemoryImage) (privateInput : List Byte) : TraceBuilder :=
  ⟨rom, memory, privateInput, ⟨.profileInitial, .initial sha256 rom.root memory.root⟩⟩

def newDmgPostBootMbc3 (rom : RomImage) (memory : MemoryImage) (privateInput : List Byte) :
    TraceBuilder :=
  ⟨rom, memory, privateInput,
    ⟨.dmgPostBootMbc3Initial .dmgPostBootMbc3V1, .initial sha256 rom.root memory.root⟩⟩

def newDmgPostBootMbc3Profile (rom : RomImage) (memory : MemoryImage) (privateInput : List Byte)
    (profile : MachineProfile) : Except TraceBuilderError TraceBuilder := do
  let state ← (AuthenticatedState.dmgPostBootMbc3ProfileInitial sha256 profile rom.root
    memory.root).mapError .state
  return ⟨rom, memory, privateInput, state⟩

/-- A builder from a checkpoint, whose roots and whose consumed input are checked. -/
def resume (rom : RomImage) (memory : MemoryImage) (privateInput : List Byte)
    (state : AuthenticatedState) : Except TraceBuilderError TraceBuilder := do
  if state.roots.romRoot ≠ rom.root then throw .checkpointRomRootMismatch
  if state.roots.memoryRoot ≠ memory.root then throw .checkpointMemoryRootMismatch
  if 2 ^ 64 ≤ privateInput.length then throw .inputIndexOverflow
  let consumed := state.vm.inputNext
  if privateInput.length < consumed then
    throw (.checkpointInputTooShort consumed privateInput.length)
  let committed ← (LogAccumulator.commit sha256 .input (privateInput.take consumed)).mapError
    .checkpointInputCommitment
  if committed ≠ state.inputLog then throw .checkpointInputRootMismatch
  return ⟨rom, memory, privateInput, state⟩

/-- Whether a plan accesses memory after a write of its own; `writeSeen` says whether there was a
write before. -/
def requiresMemoryForkFrom (writeSeen : Bool) : List PlannedWitness → Bool
  | [] => false
  | .memoryWrite _ _ _ :: rest => writeSeen || requiresMemoryForkFrom true rest
  | .memoryRead _ _ :: rest => writeSeen || requiresMemoryForkFrom writeSeen rest
  | .rom _ _ :: rest | .inputByte _ :: rest => requiresMemoryForkFrom writeSeen rest

def requiresMemoryFork (plan : List PlannedWitness) : Bool := requiresMemoryForkFrom false plan

variable (builder : TraceBuilder)

/-- The witness of a planned access. Writes go to the fork, if there is one. -/
def materializeOne (fork : Option MemoryImage) (planned : PlannedWitness) :
    Except TraceBuilderError (BusWitness MerklePath × Option MemoryImage) :=
  match planned with
  | .rom address physicalAddress => do
    let read ← (builder.rom.readMapped address physicalAddress).mapError .rom
    return (.rom read, fork)
  | .memoryRead address physicalAddress => do
    let memory := fork.getD builder.memory
    let read ← (memory.readMapped address physicalAddress).mapError .memory
    return (.memoryRead read, fork)
  | .memoryWrite address physicalAddress value =>
    match fork with
    | some memory =>
      match outcome (MemoryImage.writeMapped sha256 address physicalAddress value) memory with
      | (.ok write, memory) => .ok (.memoryWrite write, some memory)
      | (.error error, _) => .error (.memory error)
    | none => do
      let write ← (builder.memory.previewWriteMapped address physicalAddress value).mapError .memory
      return (.memoryWrite write, none)
  | .inputByte value => .ok (.inputByte value, fork)

/-- The witnesses of planned accesses, in order, and the fork after them. -/
def materializeFrom : Option MemoryImage → List PlannedWitness →
    Except TraceBuilderError (List (BusWitness MerklePath) × Option MemoryImage)
  | fork, [] => .ok ([], fork)
  | fork, planned :: rest => do
    let (witness, fork) ← materializeOne sha256 builder fork planned
    let (witnesses, fork) ← materializeFrom fork rest
    return (witness :: witnesses, fork)

def materialize (plan : List PlannedWitness) :
    Except TraceBuilderError (List (BusWitness MerklePath)) := do
  let fork := if requiresMemoryFork plan then some builder.memory else none
  let (witnesses, _) ← materializeFrom sha256 builder fork plan
  return witnesses

/-- The plan loop of the builder. -/
def planner : Planner TraceBuilderError where
  materialize := builder.materialize sha256
  apply := StepRelation.apply sha256 builder.state
  inputNext := builder.state.vm.inputNext
  privateInput := builder.privateInput
  step := .step
  inputIndexOverflow := .inputIndexOverflow
  inputExhausted := .inputExhausted
  witnessBoundExceeded := .witnessBoundExceeded

/-- A described write, entered into the memory and compared with the description. -/
def applyWrite (expected : MemoryWrite MerklePath) : Action TraceBuilderError TraceBuilder Unit :=
  fun builder =>
    match outcome (MemoryImage.writeMapped sha256 expected.address expected.physicalAddress
      expected.after) builder.memory with
    | (.error error, memory) => (.error (.memory error), { builder with memory := memory })
    | (.ok actual, memory) =>
      (if actual ≠ expected then .error .memoryEffectDivergence else .ok (),
        { builder with memory := memory })

/-- The writes of some events, entered into the memory. -/
def applyEvents : List (BusEvent MerklePath) → Action TraceBuilderError TraceBuilder Unit
  | [] => pure ()
  | event :: events => do
    if let some expected := event.memoryEffect then applyWrite sha256 expected
    applyEvents events

def applyImageEffects (effects : StepEffects MerklePath) (expectedRoot : CommitmentRoot) :
    Action TraceBuilderError TraceBuilder Unit := do
  applyEvents sha256 effects.busEvents
  if (← get).memory.root ≠ expectedRoot then throw .memoryEffectDivergence

/-- One trace row: planned, validated and applied. -/
def step : Action TraceBuilderError TraceBuilder TraceRow := do
  let builder ← get
  let (after, effects) ← ofExcept ((builder.planner sha256).planLoop maxWitnessesPerStep [])
  applyImageEffects sha256 effects after.roots.memoryRoot
  modify (fun builder => { builder with state := after })
  return ⟨builder.state, after, effects⟩

end TraceBuilder

end Hashing

end Zksm83
