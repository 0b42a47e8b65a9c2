import Zksm83.Core.ExecLogic
import Zksm83.Core.StepRules

/-!
# Relational rules of a step

A step is one action over the CPU and the bus, chosen from the state alone, and an end that checks
that no witness is left and commits. A relation that the accesses to witnesses have, the action of a
step has; it asks for at most five witnesses.
-/

namespace Zksm83

open Rejecting

namespace Step

variable {π τ : Type}

/-- What an action was, for the end of the step. -/
abbrev Outcome := StepKind × DecodedInstruction × Bool

/-- The opcode that labels a machine event. -/
def eventMarker : DmgMachineEvent → ℕ
  | .interrupt _ => 0xff
  | _ => 0x76

/-- An action labelled with the instruction of a fixed opcode. -/
def marked (kind : StepKind) (marker : ℕ) (action : StepAction π τ Unit) :
    StepAction π τ Outcome := do
  action
  match decodePrimary marker with
  | some instruction => return (kind, instruction, false)
  | none => throw .machineEventMarkerInvariant

variable (authentication : BusAuthentication π τ)

/-- The action of an instruction step. -/
def instructionAction (state : VmState) : StepAction π τ Outcome :=
  if state.cpu.runState.canExecuteInstruction then do
    let (instruction, branchTaken) ← instructionStep authentication state
    return (.instruction, instruction, branchTaken)
  else throw (.cpuNotRunning state.cpu.runState)

/-- The action of the step that a state takes. -/
def chosen (state : VmState) : StepAction π τ Outcome :=
  if state.profile.isDmgPostBootMbc3 then
    if state.dmgDevices.dmaOwed ≠ 0 then marked .dmaByte 0x00 (dmaByte authentication)
    else
      match classifyDmgMachineEvent state with
      | .error error => throw error
      | .ok (some event) =>
        marked (eventKind event) (eventMarker event) (eventAction authentication event)
      | .ok none => instructionAction authentication state
  else instructionAction authentication state

/-- The end of a step after its action. -/
def concluded (ended : Outcome × Executor (BusState π τ)) :
    Except StepError ((VmState × τ) × StepEffects π) :=
  finish authentication ended.1.1 ended.1.2.1 ended.1.2.2 ended.2

variable {authentication}

theorem machineStep_eq (kind : StepKind) (marker : ℕ) (action : StepAction π τ Unit)
    (executor : Executor (BusState π τ)) :
    machineStep authentication kind marker action executor =
      settled (outcome (marked kind marker action) executor) >>= concluded authentication := by
  unfold machineStep marked
  rw [settled_bind]
  rcases outcome action executor with ⟨error | value, next⟩
  · rfl
  · cases decodePrimary marker with
    | none => rfl
    | some instruction => rfl

theorem runInstruction_eq (state : VmState) (executor : Executor (BusState π τ)) :
    runInstruction authentication state executor =
      settled (outcome (instructionAction authentication state) executor) >>=
        concluded authentication := by
  unfold runInstruction instructionAction
  split
  · rw [settled_bind]
    rcases outcome (instructionStep authentication state) executor with ⟨error | value, next⟩
    · rfl
    · rfl
  · rfl

theorem runMachineEvent_eq (event : DmgMachineEvent) (executor : Executor (BusState π τ)) :
    runMachineEvent authentication event executor =
      machineStep authentication (eventKind event) (eventMarker event)
        (eventAction authentication event) executor := by
  cases event <;> rfl

/-- Only a stopped CPU has no next step. -/
theorem classifyDmgMachineEvent_error {state : VmState} {error : StepError}
    (h : classifyDmgMachineEvent state = .error error) : error = .cpuNotRunning .stopped := by
  unfold classifyDmgMachineEvent at h
  cases hrun : state.cpu.runState <;> cases hpending : state.dmgDevices.pendingInterrupt <;>
    simp only [hrun, hpending, reduceCtorEq, Except.error.injEq] at h <;> exact h.symm

/-- A step is its action followed by its end. -/
theorem apply_eq (state : VmState) (roots : τ) (input : List (BusWitness π)) :
    apply authentication state roots input =
      settled (outcome (chosen authentication state) (start state roots input)) >>=
        concluded authentication := by
  unfold apply chosen
  split
  · split
    · exact machineStep_eq _ _ _ _
    · cases classifyDmgMachineEvent state with
      | error error => rfl
      | ok event =>
        cases event with
        | none => exact runInstruction_eq _ _
        | some event => exact (runMachineEvent_eq _ _).trans (machineStep_eq _ _ _ _)
  · exact runInstruction_eq _ _

end Step

/-- A relation between steps of two machines, graded by the witnesses that they ask for. -/
structure StepLogic {π₁ τ₁ π₂ τ₂ : Type} (first : BusAuthentication π₁ τ₁)
    (second : BusAuthentication π₂ τ₂) extends ExecLogic (BusState π₁ τ₁) (BusState π₂ τ₂) where
  bus : BusLogic first second
  onBus : ∀ {α : Type} {count : ℕ} {action : BusState.BusAction π₁ τ₁ α}
    {other : BusState.BusAction π₂ τ₂ α}, bus.Related count Eq action other →
    Related count (Exec.onBus action) (Exec.onBus other)

namespace StepLogic

open Step ExecLogic

variable {π₁ τ₁ π₂ τ₂ : Type} {first : BusAuthentication π₁ τ₁} {second : BusAuthentication π₂ τ₂}
  (logic : StepLogic first second) {α : Type} {count : ℕ}

/-- The accesses of the machine. -/
theorem accesses : logic.Accesses (machineBus first) (machineBus second) where
  fetch address role := logic.onBus (logic.bus.fetchInstruction address role)
  read address := logic.onBus (logic.bus.readData address)
  write address value := logic.onBus (logic.bus.writeData address value)

theorem modifyDevices (change : DmgDeviceState → DmgDeviceState) :
    logic.Related count (Step.modifyDevices change) (Step.modifyDevices change) :=
  logic.onBus (logic.bus.changeView (fun view => { view with
    dmgDevices := change view.dmgDevices }))

/-- Both runs read the same devices. -/
theorem devices_bind {continuation : DmgDeviceState → StepAction π₁ τ₁ α}
    {continuation' : DmgDeviceState → StepAction π₂ τ₂ α}
    (hrest : ∀ devices, logic.Related count (continuation devices) (continuation' devices)) :
    logic.Related count (get >>= fun executor => continuation executor.bus.dmgDevices)
      (get >>= fun executor => continuation' executor.bus.dmgDevices) := by
  have hread : logic.bus.Related 0 Eq
      (do return (← get).dmgDevices : BusState.BusAction π₁ τ₁ DmgDeviceState)
      (do return (← get).dmgDevices : BusState.BusAction π₂ τ₂ DmgDeviceState) :=
    logic.bus.view_bind (fun _ _ _ _ _ _ _ => rfl) (fun view _ _ _ _ _ _ => logic.bus.pure rfl)
  exact local_bind (logic.onBus hread) hrest

theorem addCycles (increment : ℕ) :
    logic.Related count (Step.addCycles increment) (Step.addCycles increment) := by
  refine cpu_bind (fun cpu => ?_)
  split
  · exact logic.modifyCpu (fun _ => { cpu with mCycles := cpu.mCycles + increment })
  · exact logic.throw rfl

theorem advance (increment : ℕ) (dmaActiveAtStart : Bool) :
    logic.Related count (Step.advance increment dmaActiveAtStart)
      (Step.advance increment dmaActiveAtStart) := by
  refine local_bind (logic.addCycles increment) (fun _ => ?_)
  exact local_bind (logic.modifyDevices _) (fun _ => logic.modifyDevices _)

theorem addMachineTiming (increment : ℕ) :
    logic.Related count (Step.addMachineTiming increment) (Step.addMachineTiming increment) :=
  logic.devices_bind (fun devices => logic.advance increment devices.dmaActive)

theorem haltUntil (increment : ℕ) :
    logic.Related count (Step.haltUntil increment) (Step.haltUntil increment) :=
  local_bind (logic.addCycles increment) (fun _ => logic.modifyDevices _)

theorem haltIdle : logic.Related count Step.haltIdle Step.haltIdle :=
  logic.devices_bind (fun devices => logic.addMachineTiming devices.haltIdleMCycles)

theorem applyDelayedIme (operation : Operation) (enableAfterStep : Bool) :
    logic.Related count (Step.applyDelayedIme operation enableAfterStep)
      (Step.applyDelayedIme operation enableAfterStep) := by
  unfold Step.applyDelayedIme
  split
  · exact logic.modifyCpu _
  · exact logic.pure ()

theorem pushInterruptReturn (value : ℕ) :
    logic.Related 2 (Step.pushInterruptReturn first value)
      (Step.pushInterruptReturn second value) := by
  refine cpu_bind (fun cpu => access_bind (logic.accesses.write _ _) (fun _ => change_bind ?_))
  exact access_bind (logic.accesses.write _ _) (fun _ => logic.modifyCpu _)

theorem dispatchInterrupt (interrupt : DmgInterrupt) :
    logic.Related 2 (Step.dispatchInterrupt first interrupt)
      (Step.dispatchInterrupt second interrupt) := by
  refine change_bind (local_bind (logic.modifyDevices _) (fun _ => cpu_bind (fun cpu => ?_)))
  refine accesses_bind (logic.pushInterruptReturn cpu.pc) (fun _ => ?_)
  exact local_bind (setPc interrupt.vector) (fun _ => logic.addMachineTiming 5)

theorem eventAction (event : DmgMachineEvent) :
    logic.Related 2 (Step.eventAction first event) (Step.eventAction second event) := by
  cases event with
  | interrupt interrupt => exact logic.dispatchInterrupt interrupt
  | haltWake => exact logic.modifyCpu (fun cpu => { cpu with runState := .running })
  | haltUntilVblank increment | haltUntilSerial increment | haltUntilTimer increment =>
    exact logic.haltUntil increment
  | haltIdle => exact logic.haltIdle

theorem instructionStep (state : VmState) :
    logic.Related 5 (Step.instructionStep first state) (Step.instructionStep second state) := by
  rw [← Nat.zero_add 5]
  refine logic.bind (fetchAndExecute logic.accesses) (fun executed => ?_)
  obtain ⟨instruction, branchTaken⟩ := executed
  refine local_bind (logic.applyDelayedIme _ _) (fun _ => ?_)
  refine local_bind (logic.advance _ _) (fun _ => ?_)
  split
  · exact change_bind (logic.pure (instruction, branchTaken))
  · exact logic.pure (instruction, branchTaken)

theorem dmaByte : logic.Related 2 (Step.dmaByte first) (Step.dmaByte second) :=
  logic.onBus logic.bus.copyDmaByte

theorem marked {action : StepAction π₁ τ₁ Unit} {other : StepAction π₂ τ₂ Unit}
    (h : logic.Related 2 action other) (kind : StepKind) (marker : ℕ) :
    logic.Related 5 (Step.marked kind marker action) (Step.marked kind marker other) := by
  refine accesses_bind h (fun _ => ?_)
  cases decodePrimary marker with
  | none => exact logic.throw rfl
  | some instruction => exact logic.pure (kind, instruction, false)

theorem instructionAction (state : VmState) :
    logic.Related 5 (Step.instructionAction first state) (Step.instructionAction second state) := by
  unfold Step.instructionAction
  split
  · rw [← Nat.zero_add 5]
    refine logic.bind (logic.instructionStep state) (fun executed => ?_)
    exact logic.pure (StepKind.instruction, executed.1, executed.2)
  · exact logic.throw rfl

/-- A step asks for at most five witnesses. -/
theorem chosen (state : VmState) :
    logic.Related 5 (Step.chosen first state) (Step.chosen second state) := by
  unfold Step.chosen
  split
  · split
    · exact logic.marked logic.dmaByte .dmaByte 0x00
    · cases hclassified : classifyDmgMachineEvent state with
      | error error =>
        rw [classifyDmgMachineEvent_error hclassified]
        exact logic.throw rfl
      | ok event =>
        cases event with
        | none => exact logic.instructionAction state
        | some event => exact logic.marked (logic.eventAction event) _ _
  · exact logic.instructionAction state

end StepLogic

end Zksm83
