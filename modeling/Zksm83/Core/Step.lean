import Zksm83.Core.Bus
import Zksm83.Core.Transition

/-!
# The step relation

One step of the machine: a DMA byte that is owed, a machine event of the interrupt and HALT logic,
or an instruction. A step consumes its witnesses exactly, advances the cycle counter and the
devices, and books the DMA bytes that its cycles owe. Runs are sequences of accepted steps.
After `transition.rs` and the end of a step in `bus.rs`.
-/

namespace Zksm83

open Rejecting

/-- What an accepted step was. -/
inductive StepKind where
  | instruction
  | haltIdle
  | haltUntilVblank
  | haltUntilSerial
  | haltUntilTimer
  | haltWake
  | interruptDispatch (interrupt : DmgInterrupt)
  | dmaByte
  deriving DecidableEq, Repr

/-- The effects of an accepted step. -/
structure StepEffects (π : Type) where
  kind : StepKind
  instruction : DecodedInstruction
  branchTaken : Bool
  busEvents : List (BusEvent π)
  deriving DecidableEq, Repr

namespace VmState

/-- The state after the DMG boot ROM. -/
def dmgPostBootMbc3Initial (profile : MachineProfile) : VmState where
  profile := profile
  cpu := .dmgPostBootInitial
  mbc3 := .profileInitial
  dmgDevices := .dmgPostBoot
  inputNext := 0
  outputNext := 0

end VmState

namespace Step

variable {π τ : Type}

/-- An action of a step over the CPU and the machine bus. -/
abbrev StepAction (π τ α : Type) := Exec (BusState π τ) α

/-- The executor at the start of a step. -/
def start (state : VmState) (roots : τ) (input : List (BusWitness π)) :
    Executor (BusState π τ) where
  cpu := state.cpu
  bus :=
    { profile := state.profile
      mbc3 := state.mbc3
      dmgDevices := state.dmgDevices
      inputNext := state.inputNext
      outputNext := state.outputNext
      roots := roots
      witnesses := input
      events := [] }

/-- The state that an executor has reached. -/
def reached (executor : Executor (BusState π τ)) : VmState where
  profile := executor.bus.profile
  cpu := executor.cpu
  mbc3 := executor.bus.mbc3
  dmgDevices := executor.bus.dmgDevices
  inputNext := executor.bus.inputNext
  outputNext := executor.bus.outputNext

def modifyDevices (change : DmgDeviceState → DmgDeviceState) : StepAction π τ Unit :=
  modify (fun executor => { executor with
    bus := { executor.bus with dmgDevices := change executor.bus.dmgDevices } })

/-- The cycle counter, checked against its 64-bit width. -/
def addCycles (increment : ℕ) : StepAction π τ Unit := do
  let cpu ← Exec.cpu
  if cpu.mCycles + increment < 2 ^ 64 then
    Exec.setCpu { cpu with mCycles := cpu.mCycles + increment }
  else throw .cycleCountOverflow

/-- Cycle counter, devices and DMA debt of a step that takes `increment` M-cycles. -/
def advance (increment : ℕ) (dmaActiveAtStart : Bool) : StepAction π τ Unit := do
  addCycles increment
  modifyDevices (fun devices => devices.advanceMCycles increment)
  modifyDevices (fun devices => devices.scheduleDmaBytes increment dmaActiveAtStart)

/-- The M-cycles of an instruction. -/
def timing (instruction : DecodedInstruction) (branchTaken : Bool) : ℕ :=
  if branchTaken then instruction.takenMCycles.getD instruction.baseMCycles
  else instruction.baseMCycles

/-- EI takes effect after the instruction that follows it, unless that is DI. -/
def applyDelayedIme (operation : Operation) (enableAfterStep : Bool) : StepAction π τ Unit :=
  if enableAfterStep && operation ≠ .disableInterrupts then
    Exec.modifyCpu (fun cpu => { cpu with ime := .enabled })
  else pure ()

/-- Cycle counter and devices of a machine event; the DMA is asked after the event's accesses. -/
def addMachineTiming (increment : ℕ) : StepAction π τ Unit := do
  let executor ← get
  advance increment executor.bus.dmgDevices.dmaActive

/-- A skip of a halted CPU over quiet device cycles. -/
def haltUntil (increment : ℕ) : StepAction π τ Unit := do
  addCycles increment
  modifyDevices (fun devices => devices.advanceQuietLong increment)

variable (authentication : BusAuthentication π τ)

def pushInterruptReturn (value : ℕ) : StepAction π τ Unit := do
  let bus := machineBus authentication
  let highAddress := ((← Exec.cpu).sp + 65535) % 65536
  Exec.writeData bus highAddress (value / 256)
  Exec.modifyCpu (fun cpu => { cpu with sp := highAddress })
  let lowAddress := (highAddress + 65535) % 65536
  Exec.writeData bus lowAddress (value % 256)
  Exec.modifyCpu (fun cpu => { cpu with sp := lowAddress })

def dispatchInterrupt (interrupt : DmgInterrupt) : StepAction π τ Unit := do
  Exec.modifyCpu (fun cpu => { cpu with runState := .running, ime := .disabled })
  modifyDevices (fun devices => devices.acknowledgeInterrupt interrupt)
  pushInterruptReturn authentication (← Exec.cpu).pc
  Exec.setPc interrupt.vector
  addMachineTiming 5

def haltWake : StepAction π τ Unit :=
  Exec.modifyCpu (fun cpu => { cpu with runState := .running })

def haltIdle : StepAction π τ Unit := do
  let executor ← get
  addMachineTiming executor.bus.dmgDevices.haltIdleMCycles

def dmaByte : StepAction π τ Unit := Exec.onBus (BusState.copyDmaByte authentication)

/-- The instruction at the program counter; `state` is the state before the step. -/
def instructionStep (state : VmState) : StepAction π τ (DecodedInstruction × Bool) := do
  let (instruction, branchTaken) ← Exec.fetchAndExecute (machineBus authentication)
  applyDelayedIme instruction.operation (state.cpu.ime = .enablePending)
  advance (timing instruction branchTaken) state.dmgDevices.dmaActive
  if instruction.operation = .halt ∧ state.cpu.ime ≠ .enabled ∧
      state.dmgDevices.pendingInterrupt.isSome then
    Exec.modifyCpu (fun cpu => { cpu with runState := .haltBug })
  return (instruction, branchTaken)

/-- The end of a step: no witness is left, and the roots commit to the events. -/
def finish (kind : StepKind) (instruction : DecodedInstruction) (branchTaken : Bool)
    (executor : Executor (BusState π τ)) : Except StepError ((VmState × τ) × StepEffects π) := do
  if executor.bus.witnesses.length ≠ 0 then
    throw (.surplusWitnesses executor.bus.witnesses.length)
  let roots ← authentication.commit executor.bus.roots executor.bus.events instruction
  return ((reached executor, roots), ⟨kind, instruction, branchTaken, executor.bus.events⟩)

/-- A machine event, labelled with the instruction of a fixed opcode. -/
def machineStep (kind : StepKind) (marker : ℕ) (action : StepAction π τ Unit)
    (executor : Executor (BusState π τ)) : Except StepError ((VmState × τ) × StepEffects π) :=
  match outcome action executor with
  | (.error error, _) => .error error
  | (.ok _, next) =>
    match decodePrimary marker with
    | some instruction => finish authentication kind instruction false next
    | none => .error .machineEventMarkerInvariant

/-- An instruction step. -/
def runInstruction (state : VmState) (executor : Executor (BusState π τ)) :
    Except StepError ((VmState × τ) × StepEffects π) :=
  if state.cpu.runState.canExecuteInstruction then
    match outcome (instructionStep authentication state) executor with
    | (.error error, _) => .error error
    | (.ok (instruction, branchTaken), next) =>
      finish authentication .instruction instruction branchTaken next
  else .error (.cpuNotRunning state.cpu.runState)

/-- The step that a machine event takes. -/
def runMachineEvent (event : DmgMachineEvent) (executor : Executor (BusState π τ)) :
    Except StepError ((VmState × τ) × StepEffects π) :=
  match event with
  | .interrupt interrupt => machineStep authentication (.interruptDispatch interrupt) 0xff
      (dispatchInterrupt authentication interrupt) executor
  | .haltWake => machineStep authentication .haltWake 0x76 haltWake executor
  | .haltUntilVblank increment =>
    machineStep authentication .haltUntilVblank 0x76 (haltUntil increment) executor
  | .haltUntilSerial increment =>
    machineStep authentication .haltUntilSerial 0x76 (haltUntil increment) executor
  | .haltUntilTimer increment =>
    machineStep authentication .haltUntilTimer 0x76 (haltUntil increment) executor
  | .haltIdle => machineStep authentication .haltIdle 0x76 haltIdle executor

/-- One step from a state with its roots under a step input. -/
def apply (state : VmState) (roots : τ) (input : List (BusWitness π)) :
    Except StepError ((VmState × τ) × StepEffects π) :=
  let executor := start state roots input
  if state.profile.isDmgPostBootMbc3 then
    if state.dmgDevices.dmaOwed ≠ 0 then
      machineStep authentication .dmaByte 0x00 (dmaByte authentication) executor
    else
      match classifyDmgMachineEvent state with
      | .error error => .error error
      | .ok (some event) => runMachineEvent authentication event executor
      | .ok none => runInstruction authentication state executor
  else runInstruction authentication state executor

end Step

end Zksm83
