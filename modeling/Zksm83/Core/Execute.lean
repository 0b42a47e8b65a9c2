import Zksm83.Core.State
import Zksm83.Memory.Commitment

/-!
# Instruction semantics over a bus

Fetching and executing one instruction reads and writes through a bus. The bus is a parameter: the
machine's bus checks ownership and consumes witnesses, and a recording bus answers reads with given
bytes and lists the accesses. After `execute.rs` and the instruction path of `transition.rs`.
-/

namespace Zksm83

inductive BusRole where
  | opcodeFetch | immediateRead | dataRead | dataWrite
  deriving DecidableEq, Repr

/-- Kinds of step witnesses. -/
inductive WitnessKind where
  | rom | memoryRead | memoryWrite | inputByte
  deriving DecidableEq, Repr

/-- The witness that a step asks for next. -/
inductive WitnessRequest where
  | rom (address physicalAddress : ℕ) (role : BusRole)
  | memoryRead (address physicalAddress : ℕ)
  | memoryWrite (address physicalAddress value : ℕ)
  | inputByte
  deriving DecidableEq, Repr

def WitnessRequest.kind : WitnessRequest → WitnessKind
  | .rom _ _ _ => .rom
  | .memoryRead _ _ => .memoryRead
  | .memoryWrite _ _ _ => .memoryWrite
  | .inputByte => .inputByte

/-- The rejections of a step. -/
inductive StepError where
  | cpuNotRunning (state : RunState)
  | undefinedOpcode (opcode : ℕ)
  | instructionMetadataInvariant
  | undispatchedCbPrefix
  | machineEventMarkerInvariant
  | missingImmediateByte
  | invalidStopPadding (value : ℕ)
  | cycleCountOverflow
  | logIndexOverflow
  | missingWitness (request : WitnessRequest)
  | unexpectedWitness (request : WitnessRequest) (actual : WitnessKind)
  | witnessKindInvariant
  | surplusWitnesses (remaining : ℕ)
  | romAuthentication (error : RomReadError)
  | memoryAuthentication (error : MemoryTranscriptError)
  | busTranscriptCommitment (error : BusTranscriptError)
  | isaTranscriptCommitment (error : IsaTranscriptError)
  | addressMismatch (role : BusRole) (expected actual : ℕ)
  | physicalAddressMismatch (role : BusRole) (expected actual : ℕ)
  | writeValueMismatch (expected actual : ℕ)
  | unownedInstructionFetch (address : ℕ)
  | unownedRead (address : ℕ)
  | unownedWrite (address : ℕ)
  | writeToRom (address : ℕ)
  | writeToInputPort
  | readFromOutputPort
  | dmgEchoUnavailable (address : ℕ)
  | dmgMmioUnavailable (address : ℕ)
  | mbc3RtcRegisterUnavailable (select : ℕ)
  | dmgDmaSourceUnavailable (address : ℕ)
  | dmgDmaCpuBusUnavailable (address : ℕ)
  | dmgPpuCpuBusUnavailable (address : ℕ)
  deriving DecidableEq, Repr

/-- A bus with state `σ`. A rejected access leaves the state it had reached. -/
structure CpuBus (σ : Type) where
  fetchInstruction : ℕ → BusRole → σ → Except StepError ℕ × σ
  readData : ℕ → σ → Except StepError ℕ × σ
  writeData : ℕ → ℕ → σ → Except StepError Unit × σ

/-- CPU and bus during a step. -/
structure Executor (σ : Type) where
  cpu : CpuState
  bus : σ

/-- Steps that may be rejected. The executor is mutated in place, so it survives a rejection. -/
abbrev Exec (σ α : Type) := ExceptT StepError (StateM (Executor σ)) α

namespace Exec

variable {σ : Type}

def cpu : Exec σ CpuState := do return (← get).cpu

def setCpu (cpu : CpuState) : Exec σ Unit := modify (fun executor => { executor with cpu := cpu })

def modifyCpu (change : CpuState → CpuState) : Exec σ Unit :=
  modify (fun executor => { executor with cpu := change executor.cpu })

/-- A step of the bus alone. -/
def onBus {α : Type} (access : σ → Except StepError α × σ) : Exec σ α := fun executor =>
  let (result, next) := access executor.bus
  (result, { executor with bus := next })

variable (bus : CpuBus σ)

def fetchInstruction (address : ℕ) (role : BusRole) : Exec σ ℕ :=
  onBus (bus.fetchInstruction address role)

def readData (address : ℕ) : Exec σ ℕ := onBus (bus.readData address)

def writeData (address value : ℕ) : Exec σ Unit := onBus (bus.writeData address value)

def readOperand (operand : Operand8) (immediates : List ℕ) : Exec σ ℕ := do
  match operand with
  | .register register => return (← cpu).register8 register
  | .immediate =>
    match immediates with
    | byte :: _ => return byte
    | [] => throw .missingImmediateByte
  | .indirectHl => readData bus ((← cpu).register16 .hl)

def writeOperand (operand : Operand8) (value : ℕ) : Exec σ Unit := do
  match operand with
  | .register register => modifyCpu (fun cpu => cpu.setRegister8 register value)
  | .immediate => throw .instructionMetadataInvariant
  | .indirectHl => writeData bus ((← cpu).register16 .hl) value

def immediateByte (immediates : List ℕ) : Exec σ ℕ :=
  match immediates with
  | byte :: _ => pure byte
  | [] => throw .missingImmediateByte

def immediateWord (immediates : List ℕ) : Exec σ ℕ :=
  match immediates with
  | low :: high :: _ => pure (low + 256 * high)
  | _ => throw .missingImmediateByte

def transferAccumulator (address : ℕ) (direction : TransferDirection) : Exec σ Unit := do
  match direction with
  | .intoAccumulator =>
    let value ← readData bus address
    modifyCpu (fun cpu => cpu.setRegister8 .a value)
  | .fromAccumulator => writeData bus address (← cpu).registers.a

def storeSpAbsolute (address : ℕ) : Exec σ Unit := do
  let sp := (← cpu).sp
  writeData bus address (sp % 256)
  writeData bus ((address + 1) % 65536) (sp / 256)

def pushWord (value : ℕ) : Exec σ Unit := do
  let highAddress := ((← cpu).sp + 65535) % 65536
  writeData bus highAddress (value / 256)
  modifyCpu (fun cpu => { cpu with sp := highAddress })
  let lowAddress := (highAddress + 65535) % 65536
  writeData bus lowAddress (value % 256)
  modifyCpu (fun cpu => { cpu with sp := lowAddress })

def popWord : Exec σ ℕ := do
  let lowAddress := (← cpu).sp
  let low ← readData bus lowAddress
  let highAddress := (lowAddress + 1) % 65536
  let high ← readData bus highAddress
  modifyCpu (fun cpu => { cpu with sp := (highAddress + 1) % 65536 })
  return low + 256 * high

/-- Whether a conditional transfer is taken. -/
def taken (condition : Option Condition) : Exec σ Bool := do
  match condition with
  | none => return true
  | some condition => return (← cpu).conditionHolds condition

def setPc (target : ℕ) : Exec σ Unit := modifyCpu (fun cpu => { cpu with pc := target })

def setFlags (flags : Flags) : Exec σ Unit := modifyCpu (fun cpu => { cpu with flags := flags })

/-- The effect of an operation; the result is whether a branch was taken. -/
def execute (operation : Operation) (immediates : List ℕ) : Exec σ Bool := do
  match operation with
  | .nop => return false
  | .decimalAdjust =>
    let state ← cpu
    let result := Alu.decimalAdjust state.registers.a state.flags
    modifyCpu (fun cpu => { cpu.setRegister8 .a result.value with flags := result.flags })
    return false
  | .complementAccumulator =>
    modifyCpu (fun cpu => { cpu.setRegister8 .a (255 - cpu.registers.a) with
      flags := ⟨cpu.flags.zero, true, true, cpu.flags.carry⟩ })
    return false
  | .setCarry =>
    modifyCpu (fun cpu => { cpu with flags := ⟨cpu.flags.zero, false, false, true⟩ })
    return false
  | .complementCarry =>
    modifyCpu (fun cpu => { cpu with flags := ⟨cpu.flags.zero, false, false, !cpu.flags.carry⟩ })
    return false
  | .storeSpAbsolute =>
    storeSpAbsolute bus (← immediateWord immediates)
    return false
  | .load16Immediate register =>
    let value ← immediateWord immediates
    modifyCpu (fun cpu => cpu.setRegister16 register value)
    return false
  | .loadAccumulatorIndirect address direction =>
    transferAccumulator bus ((← cpu).indirectAddress address) direction
    modifyCpu (fun cpu => cpu.updateHlAfterIndirect address)
    return false
  | .load8Immediate target =>
    writeOperand bus target (← immediateByte immediates)
    return false
  | .load8 destination source =>
    let value ← readOperand bus source immediates
    writeOperand bus destination value
    return false
  | .highImmediateLoad direction =>
    transferAccumulator bus (0xff00 + (← immediateByte immediates)) direction
    return false
  | .loadHlSpOffset =>
    let result := Alu.addSignedToSp (← cpu).sp (← immediateByte immediates)
    modifyCpu (fun cpu => { cpu.setRegister16 .hl result.1 with flags := result.2 })
    return false
  | .loadSpHl =>
    modifyCpu (fun cpu => { cpu with sp := cpu.register16 .hl })
    return false
  | .highCLoad direction =>
    transferAccumulator bus (0xff00 + (← cpu).registers.c) direction
    return false
  | .absoluteAccumulatorLoad direction =>
    transferAccumulator bus (← immediateWord immediates) direction
    return false
  | .increment8 target =>
    let result := Alu.increment (← readOperand bus target immediates) (← cpu).flags
    writeOperand bus target result.value
    setFlags result.flags
    return false
  | .decrement8 target =>
    let result := Alu.decrement (← readOperand bus target immediates) (← cpu).flags
    writeOperand bus target result.value
    setFlags result.flags
    return false
  | .alu8 operation source =>
    let operand ← readOperand bus source immediates
    let state ← cpu
    let result := Alu.applyAlu operation state.registers.a operand state.flags
    if operation ≠ .compare then modifyCpu (fun cpu => cpu.setRegister8 .a result.value)
    setFlags result.flags
    return false
  | .addHl source =>
    let state ← cpu
    let result := Alu.addHl (state.register16 .hl) (state.register16 source) state.flags
    modifyCpu (fun cpu => { cpu.setRegister16 .hl result.1 with flags := result.2 })
    return false
  | .increment16 target =>
    modifyCpu (fun cpu => cpu.setRegister16 target ((cpu.register16 target + 1) % 65536))
    return false
  | .decrement16 target =>
    modifyCpu (fun cpu => cpu.setRegister16 target ((cpu.register16 target + 65535) % 65536))
    return false
  | .addSpOffset =>
    let result := Alu.addSignedToSp (← cpu).sp (← immediateByte immediates)
    modifyCpu (fun cpu => { cpu with sp := result.1, flags := result.2 })
    return false
  | .rotateAccumulator rotate =>
    let state ← cpu
    match Alu.rotateShift rotate state.registers.a state.flags.carry false with
    | some result =>
      modifyCpu (fun cpu => { cpu.setRegister8 .a result.value with flags := result.flags })
      return false
    | none => throw .instructionMetadataInvariant
  | .cb (.testBit bit) target =>
    let value ← readOperand bus target immediates
    let carry := (← cpu).flags.carry
    setFlags ⟨!value.testBit bit, false, true, carry⟩
    return false
  | .cb (.resetBit bit) target =>
    let value ← readOperand bus target immediates
    writeOperand bus target (value &&& (0xff - 2 ^ bit))
    return false
  | .cb (.setBit bit) target =>
    let value ← readOperand bus target immediates
    writeOperand bus target (value ||| 2 ^ bit)
    return false
  | .cb rotate target =>
    let before ← readOperand bus target immediates
    match Alu.rotateShift rotate before (← cpu).flags.carry true with
    | some result =>
      writeOperand bus target result.value
      setFlags result.flags
      return false
    | none => throw .instructionMetadataInvariant
  | .relativeJump condition =>
    let branch ← taken condition
    if branch then
      let offset ← immediateByte immediates
      modifyCpu (fun cpu => { cpu with pc := Alu.addSigned cpu.pc offset })
    return branch
  | .jumpHl =>
    modifyCpu (fun cpu => { cpu with pc := cpu.register16 .hl })
    return true
  | .jump condition =>
    let branch ← taken condition
    if branch then setPc (← immediateWord immediates)
    return branch
  | .return condition =>
    let branch ← taken condition
    if branch then setPc (← popWord bus)
    return branch
  | .returnFromInterrupt =>
    let target ← popWord bus
    modifyCpu (fun cpu => { cpu with pc := target, ime := .enabled })
    return true
  | .call condition =>
    let branch ← taken condition
    if branch then
      pushWord bus (← cpu).pc
      setPc (← immediateWord immediates)
    return branch
  | .restart vector =>
    pushWord bus (← cpu).pc
    setPc vector
    return true
  | .pop register =>
    let value ← popWord bus
    modifyCpu (fun cpu => cpu.setStackRegister register value)
    return false
  | .push register =>
    pushWord bus ((← cpu).stackRegister register)
    return false
  | .disableInterrupts =>
    modifyCpu (fun cpu => { cpu with ime := .disabled })
    return false
  | .enableInterrupts =>
    modifyCpu (fun cpu => { cpu with ime := .enablePending })
    return false
  | .halt =>
    modifyCpu (fun cpu => { cpu with runState := .halted })
    return false
  | .stop =>
    let padding ← immediateByte immediates
    if padding ≠ 0 then throw (.invalidStopPadding padding)
    modifyCpu (fun cpu => { cpu with runState := .stopped })
    return false
  | .prefixCb => throw .undispatchedCbPrefix

def fetchAndAdvance (role : BusRole) : Exec σ ℕ := do
  let address := (← cpu).pc
  let value ← fetchInstruction bus address role
  modifyCpu (fun cpu => { cpu with pc := (address + 1) % 65536 })
  return value

/-- The first opcode byte; under the HALT bug the program counter stays. -/
def fetchFirstOpcode (haltBug : Bool) : Exec σ ℕ := do
  let address := (← cpu).pc
  let value ← fetchInstruction bus address .opcodeFetch
  if haltBug then modifyCpu (fun cpu => { cpu with runState := .running })
  else modifyCpu (fun cpu => { cpu with pc := (address + 1) % 65536 })
  return value

def fetchImmediates : ℕ → Exec σ (List ℕ)
  | 0 => return []
  | count + 1 => do
    let first ← fetchAndAdvance bus .immediateRead
    let rest ← fetchImmediates count
    return first :: rest

/-- The instruction at the program counter with its immediate bytes. -/
def fetchAndDecode : Exec σ (DecodedInstruction × List ℕ) := do
  let haltBug := (← cpu).runState = .haltBug
  let opcode ← fetchFirstOpcode bus haltBug
  if opcode = 0xcb then
    let secondary ← fetchAndAdvance bus .opcodeFetch
    return (decodeCb secondary, [])
  else
    match decodePrimary opcode with
    | some instruction =>
      let immediates ← fetchImmediates bus (instruction.byteLen - 1)
      return (instruction, immediates)
    | none => throw (.undefinedOpcode opcode)

/-- Fetch, decode and execute: the instruction and whether a branch was taken. -/
def fetchAndExecute : Exec σ (DecodedInstruction × Bool) := do
  let (instruction, immediates) ← fetchAndDecode bus
  let branch ← execute bus instruction.operation immediates
  return (instruction, branch)

end Exec

end Zksm83
