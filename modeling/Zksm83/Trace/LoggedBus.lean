import Zksm83.Core.Refinement
import Zksm83.Trace.Builder

/-!
# Accesses that extend the logs

The bus of the reference relation extends the input log where it takes an input byte and the output
log where it puts one out, before it lists the event. The step relation above extends the roots of
the logs over the listed events at the end of a step instead. Here the accesses do it themselves, as
in `bus.rs`, and both relations turn out to be one: `logged_eq_apply`.
-/

namespace Zksm83

open Rejecting BusState

/-- The bus of the reference relation. -/
abbrev MerkleBus := BusState MerklePath AuthenticationRoots

namespace LogAccumulator

variable (sha256 : List Byte → CommitmentRoot)

/-- Appends a byte; a full log ends the step. -/
def extend {π τ : Type} (log : LogAccumulator) (value : Byte) : BusAction π τ LogAccumulator :=
  lift ((log.append sha256 value).mapError fun _ => .logIndexOverflow)

end LogAccumulator

namespace LoggedBus

def inputLog (state : MerkleBus) : LogAccumulator := ⟨.input, state.inputNext, state.roots.inputRoot⟩

def outputLog (state : MerkleBus) : LogAccumulator :=
  ⟨.output, state.outputNext, state.roots.outputRoot⟩

def setInputLog (log : LogAccumulator) : BusAction MerklePath AuthenticationRoots Unit :=
  modify fun state => { state with
    inputNext := log.nextIndex
    roots := { state.roots with inputRoot := log.root } }

def setOutputLog (log : LogAccumulator) : BusAction MerklePath AuthenticationRoots Unit :=
  modify fun state => { state with
    outputNext := log.nextIndex
    roots := { state.roots with outputRoot := log.root } }

variable (sha256 : List Byte → CommitmentRoot)

def readInput : BusAction MerklePath AuthenticationRoots ℕ := do
  match ← next .inputByte with
  | .inputByte value =>
    let log := inputLog (← get)
    let extended ← log.extend sha256 value
    setInputLog extended
    pushEvent (.inputRead log.nextIndex value)
    return value
  | _ => throw .witnessKindInvariant

def readDmgJoypad : BusAction MerklePath AuthenticationRoots ℕ := do
  match ← next .inputByte with
  | .inputByte buttons =>
    let state ← get
    let extended ← (inputLog state).extend sha256 buttons
    let (value, devices) := state.dmgDevices.sampleJoypad buttons
    modify (fun state => { state with dmgDevices := devices })
    setInputLog extended
    pushEvent (.dmgJoypadRead (inputLog state).nextIndex state.dmgDevices.joypadButtons buttons
      value)
    return value
  | _ => throw .witnessKindInvariant

def writeOutput (value : ℕ) : BusAction MerklePath AuthenticationRoots Unit := do
  let log := outputLog (← get)
  -- the value is a byte on the bus
  let extended ← log.extend sha256 (Fin.ofNat 256 value)
  setOutputLog extended
  pushEvent (.outputWrite log.nextIndex value)

def readData (address : ℕ) : BusAction MerklePath AuthenticationRoots ℕ := do
  requireCpuDmaAccess address
  requireCpuPpuAccess address
  let state ← get
  if state.profile.isDmgPostBootMbc3 && address = 0xff00 then readDmgJoypad sha256
  else if isExternal address then readExternal (.merkle sha256) address
  else
    match state.ownerOf address with
    | .rom => fetch (.merkle sha256) address .dataRead
    | .memory => readMemory (.merkle sha256) address address
    | .input => readInput sha256
    | .output => throw .readFromOutputPort
    | .dmgMmio => readDmgMmio address
    | .dmgEcho => throw (.dmgEchoUnavailable address)
    | .unowned => throw (.unownedRead address)

def writeData (address value : ℕ) : BusAction MerklePath AuthenticationRoots Unit := do
  requireCpuDmaAccess address
  requireCpuPpuAccess address
  if address ≤ 0x7fff then writeControl address value
  else if isExternal address then writeExternal (.merkle sha256) address value
  else
    match (← get).ownerOf address with
    | .memory => writeMemory (.merkle sha256) address address value
    | .output => writeOutput sha256 value
    | .rom => throw (.writeToRom address)
    | .input => throw .writeToInputPort
    | .dmgMmio => writeDmgMmio address value
    | .dmgEcho => throw (.dmgEchoUnavailable address)
    | .unowned => throw (.unownedWrite address)

/-- The bus of a machine whose accesses extend the logs. -/
def bus : CpuBus MerkleBus where
  fetchInstruction := fetchInstruction (.merkle sha256)
  readData := readData sha256
  writeData := writeData sha256

end LoggedBus

/-- The reference relation at the end of a step whose accesses extended the logs: the transcripts
alone are left. -/
def BusAuthentication.merkleLogged (sha256 : List Byte → CommitmentRoot) :
    BusAuthentication MerklePath AuthenticationRoots where
  verifyRom := (BusAuthentication.merkle sha256).verifyRom
  verifyRead := (BusAuthentication.merkle sha256).verifyRead
  verifyWrite := (BusAuthentication.merkle sha256).verifyWrite
  commit roots events instruction := do
    let busTranscript ← commitEvents sha256 roots.busTranscript events
    let isaTranscript ← (roots.isaTranscript.append sha256
      (IsaTable.packedRecord instruction)).mapError .isaTranscriptCommitment
    return { roots with busTranscript := busTranscript, isaTranscript := isaTranscript }

namespace LoggedStep

open Step

abbrev LoggedAction := StepAction MerklePath AuthenticationRoots

variable (sha256 : List Byte → CommitmentRoot)

def pushInterruptReturn (value : ℕ) : LoggedAction Unit := do
  let bus := LoggedBus.bus sha256
  let highAddress := ((← Exec.cpu).sp + 65535) % 65536
  Exec.writeData bus highAddress (value / 256)
  Exec.modifyCpu (fun cpu => { cpu with sp := highAddress })
  let lowAddress := (highAddress + 65535) % 65536
  Exec.writeData bus lowAddress (value % 256)
  Exec.modifyCpu (fun cpu => { cpu with sp := lowAddress })

def dispatchInterrupt (interrupt : DmgInterrupt) : LoggedAction Unit := do
  Exec.modifyCpu (fun cpu => { cpu with runState := .running, ime := .disabled })
  modifyDevices (fun devices => devices.acknowledgeInterrupt interrupt)
  pushInterruptReturn sha256 (← Exec.cpu).pc
  Exec.setPc interrupt.vector
  addMachineTiming 5

/-- The action of a machine event. -/
def eventAction : DmgMachineEvent → LoggedAction Unit
  | .interrupt interrupt => dispatchInterrupt sha256 interrupt
  | .haltWake => haltWake
  | .haltUntilVblank increment | .haltUntilSerial increment | .haltUntilTimer increment =>
    haltUntil increment
  | .haltIdle => haltIdle

def instructionStep (state : VmState) : LoggedAction (DecodedInstruction × Bool) := do
  let (instruction, branchTaken) ← Exec.fetchAndExecute (LoggedBus.bus sha256)
  applyDelayedIme instruction.operation (state.cpu.ime = .enablePending)
  advance (timing instruction branchTaken) state.dmgDevices.dmaActive
  if instruction.operation = .halt ∧ state.cpu.ime ≠ .enabled ∧
      state.dmgDevices.pendingInterrupt.isSome then
    Exec.modifyCpu (fun cpu => { cpu with runState := .haltBug })
  return (instruction, branchTaken)

/-- The action of an instruction step. -/
def instructionAction (state : VmState) : LoggedAction Outcome :=
  if state.cpu.runState.canExecuteInstruction then do
    let (instruction, branchTaken) ← instructionStep sha256 state
    return (.instruction, instruction, branchTaken)
  else throw (.cpuNotRunning state.cpu.runState)

/-- The action of the step that a state takes. -/
def chosen (state : VmState) : LoggedAction Outcome :=
  if state.profile.isDmgPostBootMbc3 then
    if state.dmgDevices.dmaOwed ≠ 0 then marked .dmaByte 0x00 (dmaByte (.merkle sha256))
    else
      match classifyDmgMachineEvent state with
      | .error error => throw error
      | .ok (some event) => marked (eventKind event) (eventMarker event) (eventAction sha256 event)
      | .ok none => instructionAction sha256 state
  else instructionAction sha256 state

/-- One step whose accesses extend the logs. -/
def apply (state : AuthenticatedState) (input : List (BusWitness MerklePath)) :
    Except StepError (AuthenticatedState × StepEffects MerklePath) := do
  let ended ← settled (outcome (chosen sha256 state.vm) (start state.vm state.roots input))
  let ((vm, roots), effects) ← @concluded _ _ (.merkleLogged sha256) ended
  return (⟨vm, roots⟩, effects)

end LoggedStep

/-- The reference relation without its end; its accesses are the same. -/
def BusAuthentication.merkleOpen (sha256 : List Byte → CommitmentRoot) :
    BusAuthentication MerklePath AuthenticationRoots :=
  { BusAuthentication.merkle sha256 with commit := fun roots _ _ => .ok roots }

/-- Roots beside roots whose logs may be ahead; the first still have the logs of the start. -/
def LogsAhead (start roots roots' : AuthenticationRoots) : Prop :=
  roots.inputRoot = start.inputRoot ∧ roots.outputRoot = start.outputRoot ∧
    roots' = { roots with inputRoot := roots'.inputRoot, outputRoot := roots'.outputRoot }

section Accesses

variable (sha256 : List Byte → CommitmentRoot)

/-- No access reads the roots of the logs. -/
def logsAhead (start : AuthenticationRoots) :
    AuthenticationMap (fun _ => False) (.merkleOpen sha256) (.merkleOpen sha256) where
  path := id
  roots := LogsAhead start
  verifyRom {before before'} read hroots := by
    obtain ⟨-, -, hroots⟩ := hroots
    rw [hroots]
    exact .refl (fun _ => rfl) _
  verifyRead {before before'} read hroots := by
    obtain ⟨-, -, hroots⟩ := hroots
    rw [hroots]
    exact .refl (fun _ => rfl) _
  verifyWrite {before before'} write hroots := by
    obtain ⟨hinput, houtput, hroots⟩ := hroots
    rw [hroots]
    show Follows _ _ ((write.derive sha256 before.memoryRoot).mapError _ >>= _)
      ((write.derive sha256 before.memoryRoot).mapError _ >>= _)
    cases write.derive sha256 before.memoryRoot with
    | error reason => exact .rejected
    | ok memoryRoot => exact .accepted ⟨hinput, houtput, rfl⟩
  commit _ _ hroots := .accepted hroots

namespace LoggedBus

variable {sha256} {start : AuthenticationRoots}

/-- A log is extended where the plain access advances its index. -/
theorem extend_follows (log : LogAccumulator) (value : Byte) :
    (logsAhead sha256 start).Runs (fun advanced extended => extended.nextIndex = advanced)
      (BusState.nextIndex log.nextIndex) (log.extend sha256 value) := by
  unfold BusState.nextIndex LogAccumulator.extend LogAccumulator.append
  by_cases hindex : log.nextIndex + 1 < 2 ^ 64
  · rw [if_pos hindex, if_neg (not_le.mpr hindex)]
    exact .pure rfl
  · rw [if_neg hindex, if_pos (not_lt.mp hindex)]
    exact .throw _

theorem nextInput_follows :
    (logsAhead sha256 start).Runs
      (fun witness witness' => ∃ value, witness = .inputByte value ∧ witness' = .inputByte value)
      (next .inputByte) (next .inputByte) :=
  (logsAhead sha256 start).busLogic.nextInput

theorem pushEvent_follows (event : BusEvent MerklePath) :
    (logsAhead sha256 start).Runs Eq (pushEvent event) (pushEvent event) := by
  have hpush := (logsAhead sha256 start).pushEvent event
  rwa [show (logsAhead sha256 start).path = id from rfl, BusEvent.mapPath_id] at hpush

theorem setInputLog_follows (log : LogAccumulator) :
    (logsAhead sha256 start).Runs Eq
      (modify fun state => { state with inputNext := log.nextIndex }) (setInputLog log) := by
  refine (logsAhead sha256 start).runs_unit (.of_modify fun {state state'} h => ?_)
  obtain ⟨hinput, houtput, hroots⟩ := h.roots
  refine ⟨?_, ⟨hinput, houtput, ?_⟩, h.witnesses, h.events⟩
  · exact congrArg (fun view : BusView => { view with inputNext := log.nextIndex }) h.view
  · dsimp only
    rw [hroots]

theorem setOutputLog_follows (log : LogAccumulator) :
    (logsAhead sha256 start).Runs Eq
      (modify fun state => { state with outputNext := log.nextIndex }) (setOutputLog log) := by
  refine (logsAhead sha256 start).runs_unit (.of_modify fun {state state'} h => ?_)
  obtain ⟨hinput, houtput, hroots⟩ := h.roots
  refine ⟨?_, ⟨hinput, houtput, ?_⟩, h.witnesses, h.events⟩
  · exact congrArg (fun view : BusView => { view with outputNext := log.nextIndex }) h.view
  · dsimp only
    rw [hroots]

theorem setDevices_follows (devices : DmgDeviceState) :
    (logsAhead sha256 start).Runs Eq
      (modify fun state => { state with dmgDevices := devices })
      (modify fun state => { state with dmgDevices := devices }) :=
  (logsAhead sha256 start).changeView fun view => { view with dmgDevices := devices }

theorem readInput_follows :
    (logsAhead sha256 start).Runs Eq BusState.readInput (readInput sha256) := by
  refine nextInput_follows.bind ?_
  rintro _ _ ⟨value, rfl, rfl⟩
  refine .get_bind fun state state' h => ?_
  have hindex : (inputLog state').nextIndex = state.inputNext := congrArg BusView.inputNext h.view
  rw [← hindex]
  refine (extend_follows _ value).bind fun advanced extended hadvanced => ?_
  subst hadvanced
  refine (setInputLog_follows extended).bind fun _ _ _ => ?_
  exact (pushEvent_follows _).bind fun _ _ _ => .pure rfl

theorem readDmgJoypad_follows :
    (logsAhead sha256 start).Runs Eq BusState.readDmgJoypad (readDmgJoypad sha256) := by
  refine nextInput_follows.bind ?_
  rintro _ _ ⟨buttons, rfl, rfl⟩
  refine .get_bind fun state state' h => ?_
  have hindex : (inputLog state').nextIndex = state.inputNext := congrArg BusView.inputNext h.view
  have hdevices : state'.dmgDevices = state.dmgDevices := congrArg BusView.dmgDevices h.view
  rw [← hindex, ← hdevices]
  refine (extend_follows _ buttons).bind fun advanced extended hadvanced => ?_
  subst hadvanced
  obtain ⟨value, devices⟩ := state'.dmgDevices.sampleJoypad buttons
  -- The plain access changes the devices and the index at once.
  have hboth : (modify fun state => { state with
        dmgDevices := devices, inputNext := extended.nextIndex } :
      BusAction MerklePath AuthenticationRoots Unit) = (do
        modify fun state => { state with dmgDevices := devices }
        modify fun state => { state with inputNext := extended.nextIndex }) := rfl
  dsimp only
  rw [hboth, bind_assoc]
  refine (setDevices_follows devices).bind fun _ _ _ => ?_
  refine (setInputLog_follows extended).bind fun _ _ _ => ?_
  exact (pushEvent_follows _).bind fun _ _ _ => .pure rfl

theorem writeOutput_follows (value : ℕ) :
    (logsAhead sha256 start).Runs Eq (BusState.writeOutput value) (writeOutput sha256 value) := by
  refine .get_bind fun state state' h => ?_
  have hindex : (outputLog state').nextIndex = state.outputNext :=
    congrArg BusView.outputNext h.view
  rw [← hindex]
  refine (extend_follows _ _).bind fun advanced extended hadvanced => ?_
  subst hadvanced
  exact (setOutputLog_follows extended).bind fun _ _ _ => pushEvent_follows _

/-- The checks of an access from the CPU, and the rest. -/
theorem checked_follows {α : Type} (address : ℕ)
    {action other : BusAction MerklePath AuthenticationRoots α}
    (hrest : (logsAhead sha256 start).Runs Eq action other) :
    (logsAhead sha256 start).Runs Eq
      (do requireCpuDmaAccess address; requireCpuPpuAccess address; action)
      (do requireCpuDmaAccess address; requireCpuPpuAccess address; other) := by
  have hdma : (logsAhead sha256 start).Runs (fun _ _ => True) (requireCpuDmaAccess address)
      (requireCpuDmaAccess address) := (logsAhead sha256 start).busLogic.requireCpuDmaAccess address
  have hppu : (logsAhead sha256 start).Runs (fun _ _ => True) (requireCpuPpuAccess address)
      (requireCpuPpuAccess address) := (logsAhead sha256 start).busLogic.requireCpuPpuAccess address
  exact hdma.bind fun _ _ _ => hppu.bind fun _ _ _ => hrest

theorem readData_follows (address : ℕ) :
    (logsAhead sha256 start).Runs Eq (BusState.readData (.merkleOpen sha256) address)
      (readData sha256 address) := by
  refine checked_follows address (.get_bind fun state state' h => ?_)
  have hprofile : state'.profile = state.profile := congrArg BusView.profile h.view
  unfold ownerOf
  rw [hprofile]
  split
  · exact readDmgJoypad_follows
  split
  · exact (logsAhead sha256 start).busLogic.readExternal address
  generalize (if state.profile.isDmgPostBootMbc3 = true then dmgOwner address
    else owner address) = owned
  cases owned with
  | rom => exact (logsAhead sha256 start).busLogic.fetch address
  | memory => exact (logsAhead sha256 start).busLogic.readMemory address address
  | input => exact readInput_follows
  | dmgMmio => exact @BusLogic.readDmgMmio _ _ _ _ _ _ (logsAhead sha256 start).busLogic 0 address
  | output | dmgEcho | unowned => exact .throw _

theorem writeData_follows (address value : ℕ) :
    (logsAhead sha256 start).Runs Eq (BusState.writeData (.merkleOpen sha256) address value)
      (writeData sha256 address value) := by
  refine checked_follows address ?_
  split
  · exact @BusLogic.writeControl _ _ _ _ _ _ (logsAhead sha256 start).busLogic 0 address value
  split
  · exact (logsAhead sha256 start).busLogic.writeExternal address value
  refine .get_bind fun state state' h => ?_
  have hprofile : state'.profile = state.profile := congrArg BusView.profile h.view
  unfold ownerOf
  rw [hprofile]
  generalize (if state.profile.isDmgPostBootMbc3 = true then dmgOwner address
    else owner address) = owned
  cases owned with
  | memory => exact (logsAhead sha256 start).busLogic.writeMemory address address value
  | output => exact writeOutput_follows value
  | dmgMmio =>
    exact @BusLogic.writeDmgMmio _ _ _ _ _ _ (logsAhead sha256 start).busLogic 0 address value
  | rom | input | dmgEcho | unowned => exact .throw _

/-- The accesses of both buses. -/
theorem accesses_follow :
    (logsAhead sha256 start).stepLogic.Accesses (machineBus (.merkleOpen sha256)) (bus sha256) where
  fetch address role := (logsAhead sha256 start).stepLogic.accesses.fetch address role
  read address := (logsAhead sha256 start).stepLogic.onBus (readData_follows address)
  write address value := (logsAhead sha256 start).stepLogic.onBus (writeData_follows address value)

end LoggedBus

namespace LoggedStep

open ExecLogic

variable {sha256} {start : AuthenticationRoots}

theorem pushInterruptReturn_follows (value : ℕ) :
    (logsAhead sha256 start).stepLogic.Related 2
      (Step.pushInterruptReturn (.merkleOpen sha256) value) (pushInterruptReturn sha256 value) := by
  refine cpu_bind fun cpu => ?_
  refine access_bind (LoggedBus.accesses_follow.write _ _) fun _ => change_bind ?_
  refine access_bind (LoggedBus.accesses_follow.write _ _) fun _ => ?_
  exact (logsAhead sha256 start).stepLogic.modifyCpu _

theorem dispatchInterrupt_follows (interrupt : DmgInterrupt) :
    (logsAhead sha256 start).stepLogic.Related 2
      (Step.dispatchInterrupt (.merkleOpen sha256) interrupt)
      (dispatchInterrupt sha256 interrupt) := by
  refine change_bind (local_bind ((logsAhead sha256 start).stepLogic.modifyDevices _) fun _ => ?_)
  refine cpu_bind fun cpu => accesses_bind (pushInterruptReturn_follows cpu.pc) fun _ => ?_
  refine local_bind (setPc interrupt.vector) fun _ => ?_
  exact (logsAhead sha256 start).stepLogic.addMachineTiming 5

theorem eventAction_follows (event : DmgMachineEvent) :
    (logsAhead sha256 start).stepLogic.Related 2
      (Step.eventAction (.merkleOpen sha256) event) (eventAction sha256 event) := by
  cases event with
  | interrupt interrupt => exact dispatchInterrupt_follows interrupt
  | haltWake => exact (logsAhead sha256 start).stepLogic.eventAction .haltWake
  | haltUntilVblank increment | haltUntilSerial increment | haltUntilTimer increment =>
    exact (logsAhead sha256 start).stepLogic.haltUntil increment
  | haltIdle => exact (logsAhead sha256 start).stepLogic.haltIdle

theorem instructionStep_follows (state : VmState) :
    (logsAhead sha256 start).stepLogic.Related 5
      (Step.instructionStep (.merkleOpen sha256) state) (instructionStep sha256 state) := by
  rw [← Nat.zero_add 5]
  refine (logsAhead sha256 start).stepLogic.bind
    (fetchAndExecute LoggedBus.accesses_follow) fun executed => ?_
  obtain ⟨instruction, branchTaken⟩ := executed
  refine local_bind ((logsAhead sha256 start).stepLogic.applyDelayedIme _ _) fun _ => ?_
  refine local_bind ((logsAhead sha256 start).stepLogic.advance _ _) fun _ => ?_
  split
  · exact change_bind ((logsAhead sha256 start).stepLogic.pure (instruction, branchTaken))
  · exact (logsAhead sha256 start).stepLogic.pure (instruction, branchTaken)

theorem instructionAction_follows (state : VmState) :
    (logsAhead sha256 start).stepLogic.Related 5
      (Step.instructionAction (.merkleOpen sha256) state) (instructionAction sha256 state) := by
  unfold Step.instructionAction instructionAction
  split
  · rw [← Nat.zero_add 5]
    refine (logsAhead sha256 start).stepLogic.bind (instructionStep_follows state) fun executed => ?_
    exact (logsAhead sha256 start).stepLogic.pure (StepKind.instruction, executed.1, executed.2)
  · exact (logsAhead sha256 start).stepLogic.throw rfl

/-- Both machines take the same step, with the logs of the second one ahead. -/
theorem chosen_follows (state : VmState) :
    (logsAhead sha256 start).stepLogic.Related 5 (Step.chosen (.merkleOpen sha256) state)
      (chosen sha256 state) := by
  unfold Step.chosen chosen
  split
  · split
    · exact (logsAhead sha256 start).stepLogic.marked
        (logsAhead sha256 start).stepLogic.dmaByte .dmaByte 0x00
    · cases hclassified : classifyDmgMachineEvent state with
      | error error =>
        rw [Step.classifyDmgMachineEvent_error hclassified]
        exact (logsAhead sha256 start).stepLogic.throw rfl
      | ok event =>
        cases event with
        | none => exact instructionAction_follows state
        | some event =>
          exact (logsAhead sha256 start).stepLogic.marked (eventAction_follows event) _ _
  · exact instructionAction_follows state

end LoggedStep

end Accesses

end Zksm83
