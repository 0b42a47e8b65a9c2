import Zksm83.Core.Execute

/-!
# Precedence of machine events and the outcome of HALT

Before an instruction the machine asks for a DMA byte that is owed and for a machine event of the
interrupt and HALT logic; only without either does it fetch. After the instruction a HALT with a
pending interrupt that the master enable does not admit leaves the CPU in the HALT-bug state. After
`apply` and `classify_dmg_machine_event` of `transition.rs`.
-/

namespace Zksm83

inductive DmgMachineEvent where
  | interrupt (interrupt : DmgInterrupt)
  | haltWake
  | haltUntilVblank (increment : ℕ)
  | haltUntilSerial (increment : ℕ)
  | haltUntilTimer (increment : ℕ)
  | haltIdle
  deriving DecidableEq, Repr

/-- The event of a halted CPU without a pending interrupt. -/
def haltedEvent (devices : DmgDeviceState) : DmgMachineEvent :=
  match devices.haltUntilVblankMCycles with
  | some increment => .haltUntilVblank increment
  | none =>
    match devices.haltUntilSerialMCycles with
    | some increment => .haltUntilSerial increment
    | none =>
      match devices.haltUntilTimerMCycles with
      | some increment => .haltUntilTimer increment
      | none => .haltIdle

/-- The machine event that takes the place of the next instruction. -/
def classifyDmgMachineEvent (state : VmState) : Except StepError (Option DmgMachineEvent) :=
  let pending := state.dmgDevices.pendingInterrupt
  match state.cpu.runState with
  | .stopped => .error (.cpuNotRunning .stopped)
  | .running | .haltBug =>
    .ok (if state.cpu.ime = .enabled then pending.map .interrupt else none)
  | .halted =>
    match pending with
    | some interrupt =>
      .ok (some (if state.cpu.ime = .enabled then .interrupt interrupt else .haltWake))
    | none => .ok (some (haltedEvent state.dmgDevices))

/-- Whether `apply` goes on to fetch an instruction: on a DMG profile no DMA byte is owed and no
machine event takes its place, and the CPU runs. -/
def takesInstruction (state : VmState) : Bool :=
  (!state.profile.isDmgPostBootMbc3 ||
    state.dmgDevices.dmaOwed = 0 &&
      (match classifyDmgMachineEvent state with
        | .ok none => true
        | _ => false)) &&
    state.cpu.runState.canExecuteInstruction

/-- The run state after an instruction: `executed` is what `execute` left, and a HALT with a
pending interrupt that the master enable of the state before does not admit arms the HALT bug. -/
def runStateAfter (state : VmState) (operation : Operation) (executed : RunState) : RunState :=
  if operation = .halt ∧ state.cpu.ime ≠ .enabled ∧ state.dmgDevices.pendingInterrupt.isSome then
    .haltBug
  else executed

/-- On a DMG profile an instruction is taken exactly if no DMA byte is owed, the CPU is running or
in the HALT bug, and no interrupt is pending with the master enable on. -/
theorem takesInstruction_iff {state : VmState} (hprofile : state.profile.isDmgPostBootMbc3 = true) :
    takesInstruction state = true ↔
      state.dmgDevices.dmaOwed = 0 ∧ state.cpu.runState.canExecuteInstruction = true ∧
        ¬ (state.cpu.ime = .enabled ∧ state.dmgDevices.pendingInterrupt.isSome = true) := by
  unfold takesInstruction classifyDmgMachineEvent
  cases hrun : state.cpu.runState <;> by_cases hime : state.cpu.ime = .enabled <;>
    cases hpending : state.dmgDevices.pendingInterrupt <;>
    simp [hprofile, hime, RunState.canExecuteInstruction]

end Zksm83
