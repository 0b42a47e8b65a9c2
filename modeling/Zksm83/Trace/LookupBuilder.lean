import Zksm83.Trace.Builder

/-!
# The lookup trace builder

The byte-array executor whose accesses a separate argument authenticates. It plans as the trace
builder does, reads ROM and memory from plain arrays, looks bytes that its own plan has written up
in the plan, and uses the lookup relation, whose roots are fixed. After `lookup_builder.rs`.
-/

namespace Zksm83

open Rejecting

abbrev lookupRomBytes : ℕ := 2 ^ 20
abbrev lookupMemoryBytes : ℕ := 2 ^ 17

inductive LookupTraceBuilderError where
  | emptyRom
  | romTooLarge (actual maximum : ℕ)
  | memoryLength (actual expected : ℕ)
  | physicalAddressOutOfRange (address : ℕ)
  | inputExhausted (index : ℕ)
  | inputIndexOverflow
  | witnessBoundExceeded (maximum : ℕ)
  | witnessPlanInvariant
  | step (error : StepError)
  | state (error : VmStateError)
  | memoryEffectDivergence
  | checkpointProfileMismatch
  | checkpointTranscriptNotEmpty
  | checkpointInputTooShort (consumed provided : ℕ)
  | checkpointInputRootMismatch
  | inputCommitment (error : LogError)
  deriving DecidableEq, Repr

structure LookupTraceBuilder where
  rom : List Byte
  memory : List Byte
  privateInput : List Byte
  state : AuthenticatedState
  deriving DecidableEq

/-- A byte of a table. -/
def tableByte (bytes : List Byte) (address : ℕ) : Except LookupTraceBuilderError Byte :=
  match bytes[address]? with
  | some value => .ok value
  | none => .error (.physicalAddressOutOfRange address)

/-- A byte of a table replaced. -/
def setTableByte (bytes : List Byte) (address : ℕ) (value : Byte) :
    Except LookupTraceBuilderError (List Byte) :=
  if address < bytes.length then .ok (bytes.set address value)
  else .error (.physicalAddressOutOfRange address)

/-- The byte that a planned access writes to an address. -/
def PlannedWitness.writes (physicalAddress : ℕ) : PlannedWitness → Option Byte
  | .memoryWrite _ address value => if address = physicalAddress then some value else none
  | .rom _ _ | .memoryRead _ _ | .inputByte _ => none

/-- The part of a plan before an index. -/
def precedingPlan (plan : List PlannedWitness) (index : ℕ) :
    Except LookupTraceBuilderError (List PlannedWitness) :=
  if index ≤ plan.length then .ok (plan.take index) else .error .witnessPlanInvariant

variable (sha256 : List Byte → CommitmentRoot)

namespace LookupTraceBuilder

/-- The checked sizes of the two tables. -/
def validateTables (rom memory : List Byte) : Except LookupTraceBuilderError Unit := do
  if rom.isEmpty then throw .emptyRom
  if lookupRomBytes < rom.length then throw (.romTooLarge rom.length lookupRomBytes)
  if memory.length ≠ lookupMemoryBytes then throw (.memoryLength memory.length lookupMemoryBytes)

/-- A ROM with the zeros behind it. -/
def paddedRom (rom : List Byte) : List Byte :=
  rom ++ List.replicate (lookupRomBytes - rom.length) 0

def newDmgPostBootMbc3Profile (rom memory privateInput : List Byte)
    (romRoot memoryRootAnchor : CommitmentRoot) (profile : MachineProfile) :
    Except LookupTraceBuilderError LookupTraceBuilder := do
  validateTables rom memory
  let state ← (AuthenticatedState.dmgPostBootMbc3ProfileInitial sha256 profile romRoot
    memoryRootAnchor).mapError .state
  return ⟨paddedRom rom, memory, privateInput, state⟩

def newDmgPostBootMbc3 (rom memory privateInput : List Byte)
    (romRoot memoryRootAnchor : CommitmentRoot) :
    Except LookupTraceBuilderError LookupTraceBuilder :=
  newDmgPostBootMbc3Profile sha256 rom memory privateInput romRoot memoryRootAnchor
    .dmgPostBootMbc3V1

def validateInputPrefix (privateInput : List Byte) (state : AuthenticatedState) :
    Except LookupTraceBuilderError Unit := do
  if 2 ^ 64 ≤ privateInput.length then throw .inputIndexOverflow
  let consumed := state.vm.inputNext
  if privateInput.length < consumed then
    throw (.checkpointInputTooShort consumed privateInput.length)
  let committed ← (LogAccumulator.commit sha256 .input (privateInput.take consumed)).mapError
    .inputCommitment
  if committed ≠ state.inputLog then throw .checkpointInputRootMismatch

/-- A builder from a checkpoint of the lookup relation. -/
def resumeDmgPostBootMbc3 (rom memory privateInput : List Byte) (state : AuthenticatedState) :
    Except LookupTraceBuilderError LookupTraceBuilder := do
  validateTables rom memory
  if !state.vm.profile.isDmgPostBootMbc3 then throw .checkpointProfileMismatch
  if state.roots.busTranscript.nextIndex ≠ 0 ∨ state.roots.isaTranscript.nextIndex ≠ 0 then
    throw .checkpointTranscriptNotEmpty
  validateInputPrefix sha256 privateInput state
  return ⟨paddedRom rom, memory, privateInput, state⟩

variable (builder : LookupTraceBuilder)

/-- The byte of an address after some planned accesses. -/
def plannedMemoryByte (preceding : List PlannedWitness) (physicalAddress : ℕ) :
    Except LookupTraceBuilderError Byte :=
  match preceding.reverse.findSome? (PlannedWitness.writes physicalAddress) with
  | some value => .ok value
  | none => tableByte builder.memory physicalAddress

/-- The witness of a planned access after some others. -/
def materializeOne (preceding : List PlannedWitness) (planned : PlannedWitness) :
    Except LookupTraceBuilderError (BusWitness MerklePath) :=
  match planned with
  | .rom address physicalAddress => do
    let value ← tableByte builder.rom physicalAddress
    return .rom ⟨address, physicalAddress, value, .lookupPlaceholder⟩
  | .memoryRead address physicalAddress => do
    let value ← plannedMemoryByte builder preceding physicalAddress
    return .memoryRead ⟨address, physicalAddress, value, .lookupPlaceholder⟩
  | .memoryWrite address physicalAddress after => do
    let before ← plannedMemoryByte builder preceding physicalAddress
    return .memoryWrite ⟨address, physicalAddress, before, after, .lookupPlaceholder⟩
  | .inputByte value => .ok (.inputByte value)

/-- The witnesses of the accesses of a plan from an index on. -/
def materializeFrom (plan : List PlannedWitness) : ℕ → List PlannedWitness →
    Except LookupTraceBuilderError (List (BusWitness MerklePath))
  | _, [] => .ok []
  | index, planned :: rest => do
    let preceding ← precedingPlan plan index
    let witness ← materializeOne builder preceding planned
    let witnesses ← materializeFrom plan (index + 1) rest
    return witness :: witnesses

def materialize (plan : List PlannedWitness) :
    Except LookupTraceBuilderError (List (BusWitness MerklePath)) :=
  materializeFrom builder plan 0 plan

/-- The plan loop of the builder. -/
def planner : Planner LookupTraceBuilderError where
  materialize := builder.materialize
  apply := LookupStepRelation.apply sha256 builder.state
  inputNext := builder.state.vm.inputNext
  privateInput := builder.privateInput
  step := .step
  inputIndexOverflow := .inputIndexOverflow
  inputExhausted := .inputExhausted
  witnessBoundExceeded := .witnessBoundExceeded

/-- A described write, compared with the byte that it replaces and entered into the memory. -/
def applyWrite (write : MemoryWrite MerklePath) :
    Action LookupTraceBuilderError LookupTraceBuilder Unit := do
  let before ← ofExcept (tableByte (← get).memory write.physicalAddress)
  if before ≠ write.before then throw .memoryEffectDivergence
  let memory ← ofExcept (setTableByte (← get).memory write.physicalAddress write.after)
  modify (fun builder => { builder with memory := memory })

/-- The writes of some events, entered into the memory. -/
def applyMemoryEffects :
    List (BusEvent MerklePath) → Action LookupTraceBuilderError LookupTraceBuilder Unit
  | [] => pure ()
  | event :: events => do
    if let some write := event.memoryEffect then applyWrite write
    applyMemoryEffects events

/-- One lookup-backed row. -/
def step : Action LookupTraceBuilderError LookupTraceBuilder TraceRow := do
  let builder ← get
  let (after, effects) ← ofExcept ((builder.planner sha256).planLoop maxWitnessesPerStep [])
  applyMemoryEffects effects.busEvents
  modify (fun builder => { builder with state := after })
  return ⟨builder.state, after, effects⟩

end LookupTraceBuilder

end Zksm83
