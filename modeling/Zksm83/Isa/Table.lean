import Zksm83.Isa.Decode

/-!
# The fixed ISA table

Metadata of an instruction, its aligned record, and the 38 outputs of its row in the fixed table.
Undefined opcodes have an all-zero row. After `metadata.rs`, `alignment.rs` and the codes of
`types.rs` in `zksm83-isa`, and `isa.rs` of `zksm83-jolt`.
-/

namespace Zksm83

namespace IsaTable

/-- The class code of an operation. -/
def classCode : Operation → ℕ
  | .nop | .decimalAdjust | .complementAccumulator | .setCarry | .complementCarry => 0
  | .storeSpAbsolute | .load16Immediate _ | .loadAccumulatorIndirect _ _ | .load8Immediate _
  | .load8 _ _ | .highImmediateLoad _ | .loadHlSpOffset | .loadSpHl | .highCLoad _
  | .absoluteAccumulatorLoad _ => 1
  | .increment8 _ | .decrement8 _ | .alu8 _ _ => 2
  | .addHl _ | .increment16 _ | .decrement16 _ | .addSpOffset => 3
  | .rotateAccumulator _ => 4
  | .cb (.testBit _) _ | .cb (.resetBit _) _ | .cb (.setBit _) _ => 5
  | .cb _ _ => 4
  | .relativeJump _ | .jumpHl | .jump _ => 6
  | .return _ | .returnFromInterrupt | .call _ | .restart _ => 7
  | .pop _ | .push _ => 8
  | .disableInterrupts | .enableInterrupts => 9
  | .stop | .halt => 10
  | .prefixCb => 11

/-- What an instruction does to a flag. -/
inductive FlagAction where
  | preserve | clear | set | derived
  deriving DecidableEq, Repr

def flagActionCode : FlagAction → ℕ
  | .preserve => 0
  | .clear => 1
  | .set => 2
  | .derived => 3

structure FlagEffect where
  zero : FlagAction
  subtract : FlagAction
  halfCarry : FlagAction
  carry : FlagAction
  deriving DecidableEq, Repr

def preserveFlags : FlagEffect := ⟨.preserve, .preserve, .preserve, .preserve⟩

def aluFlags : AluOperation → FlagEffect
  | .add | .addCarry => ⟨.derived, .clear, .derived, .derived⟩
  | .subtract | .subtractCarry | .compare => ⟨.derived, .set, .derived, .derived⟩
  | .and => ⟨.derived, .clear, .set, .clear⟩
  | .xor | .or => ⟨.derived, .clear, .clear, .clear⟩

/-- The flag effect of an operation. -/
def flagEffect : Operation → FlagEffect
  | .increment8 _ => ⟨.derived, .clear, .derived, .preserve⟩
  | .decrement8 _ => ⟨.derived, .set, .derived, .preserve⟩
  | .addHl _ => ⟨.preserve, .clear, .derived, .derived⟩
  | .addSpOffset | .loadHlSpOffset => ⟨.clear, .clear, .derived, .derived⟩
  | .rotateAccumulator _ => ⟨.clear, .clear, .clear, .derived⟩
  | .decimalAdjust => ⟨.derived, .preserve, .clear, .derived⟩
  | .complementAccumulator => ⟨.preserve, .set, .set, .preserve⟩
  | .setCarry => ⟨.preserve, .clear, .clear, .set⟩
  | .complementCarry => ⟨.preserve, .clear, .clear, .derived⟩
  | .alu8 operation _ => aluFlags operation
  | .cb (.testBit _) _ => ⟨.derived, .clear, .set, .preserve⟩
  | .cb (.resetBit _) _ | .cb (.setBit _) _ => preserveFlags
  | .cb _ _ => ⟨.derived, .clear, .clear, .derived⟩
  | .pop .af => ⟨.derived, .derived, .derived, .derived⟩
  | _ => preserveFlags

/-- Bus events of an instruction by category. -/
structure BusAccessPattern where
  opcodeFetches : ℕ
  immediateReads : ℕ
  dataReads : ℕ
  dataWrites : ℕ
  takenDataReads : ℕ
  takenDataWrites : ℕ
  deriving DecidableEq, Repr

def directionBus : TransferDirection → ℕ × ℕ × ℕ × ℕ
  | .intoAccumulator => (1, 0, 0, 0)
  | .fromAccumulator => (0, 1, 0, 0)

def operandTransferBus : Operand8 → Operand8 → ℕ × ℕ × ℕ × ℕ
  | .indirectHl, _ => (0, 1, 0, 0)
  | _, .indirectHl => (1, 0, 0, 0)
  | _, _ => (0, 0, 0, 0)

/-- Data reads and writes, and those made only when a condition holds. -/
def dataBus : Operation → ℕ × ℕ × ℕ × ℕ
  | .storeSpAbsolute => (0, 2, 0, 0)
  | .loadAccumulatorIndirect _ direction | .highImmediateLoad direction | .highCLoad direction
  | .absoluteAccumulatorLoad direction => directionBus direction
  | .increment8 .indirectHl | .decrement8 .indirectHl => (1, 1, 0, 0)
  | .load8Immediate .indirectHl => (0, 1, 0, 0)
  | .load8 destination source => operandTransferBus destination source
  | .alu8 _ .indirectHl => (1, 0, 0, 0)
  | .return (some _) => (0, 0, 2, 0)
  | .return none | .returnFromInterrupt | .pop _ => (2, 0, 0, 0)
  | .call (some _) => (0, 0, 0, 2)
  | .call none | .push _ | .restart _ => (0, 2, 0, 0)
  | .cb (.testBit _) .indirectHl => (1, 0, 0, 0)
  | .cb _ .indirectHl => (1, 1, 0, 0)
  | _ => (0, 0, 0, 0)

/-- The bus pattern of an instruction. -/
def busPattern (instruction : DecodedInstruction) : BusAccessPattern :=
  let data := dataBus instruction.operation
  { opcodeFetches := match instruction.encoding with
      | .primary _ => 1
      | .cb _ => 2
    immediateReads := match instruction.encoding with
      | .primary _ => instruction.byteLen - 1
      | .cb _ => 0
    dataReads := data.1
    dataWrites := data.2.1
    takenDataReads := data.2.2.1
    takenDataWrites := data.2.2.2 }

/-- CPU components, in table order. -/
inductive StateComponent where
  | a | b | c | d | e | h | l | f | pc | sp | ime | runState | mCycles
  deriving DecidableEq, Repr

def StateComponent.all : List StateComponent :=
  [.a, .b, .c, .d, .e, .h, .l, .f, .pc, .sp, .ime, .runState, .mCycles]

open StateComponent

def registerComponent : Register8 → StateComponent
  | .a => a
  | .b => b
  | .c => c
  | .d => d
  | .e => e
  | .h => h
  | .l => l

def registerMask : Register16 → List StateComponent
  | .bc => [b, c]
  | .de => [d, e]
  | .hl => [h, l]
  | .sp => [sp]

def stackRegisterMask : StackRegister16 → List StateComponent
  | .bc => registerMask .bc
  | .de => registerMask .de
  | .hl => registerMask .hl
  | .af => [a, f]

def operandRead : Operand8 → List StateComponent
  | .register register => [registerComponent register]
  | .immediate => []
  | .indirectHl => registerMask .hl

def operandWrite : Operand8 → List StateComponent
  | .register register => [registerComponent register]
  | .immediate | .indirectHl => []

def destinationRead (operand : Operand8) : List StateComponent :=
  if operand = .indirectHl then registerMask .hl else []

def indirectRead : IndirectAddress → List StateComponent
  | .bc => registerMask .bc
  | .de => registerMask .de
  | .hlIncrement | .hlDecrement => registerMask .hl

def transferRead : TransferDirection → List StateComponent
  | .intoAccumulator => []
  | .fromAccumulator => [a]

def transferWrite : TransferDirection → List StateComponent
  | .intoAccumulator => [a]
  | .fromAccumulator => []

/-- Components that an operation reads, beyond those that every instruction reads. -/
def operationReads : Operation → List StateComponent
  | .storeSpAbsolute => registerMask .sp
  | .relativeJump condition | .jump condition => if condition.isSome then [f] else []
  | .return condition | .call condition => (if condition.isSome then [f] else []) ++ [sp]
  | .increment16 register | .decrement16 register => registerMask register
  | .addHl register => registerMask .hl ++ registerMask register
  | .loadAccumulatorIndirect address direction => indirectRead address ++ transferRead direction
  | .increment8 operand | .decrement8 operand => operandRead operand
  | .load8Immediate operand => destinationRead operand
  | .rotateAccumulator _ | .decimalAdjust | .complementAccumulator => [a]
  | .load8 destination source => operandRead source ++ destinationRead destination
  | .alu8 _ operand => a :: operandRead operand
  | .highImmediateLoad direction | .absoluteAccumulatorLoad direction => transferRead direction
  | .highCLoad direction => c :: transferRead direction
  | .addSpOffset | .loadHlSpOffset => registerMask .sp
  | .pop _ | .returnFromInterrupt | .restart _ => [sp]
  | .jumpHl | .loadSpHl => registerMask .hl
  | .push register => stackRegisterMask register ++ [sp]
  | .cb _ operand => operandRead operand
  | .nop | .stop | .load16Immediate _ | .setCarry | .complementCarry | .halt | .prefixCb
  | .disableInterrupts | .enableInterrupts => []

/-- Components that an operation writes, beyond those that every instruction writes. -/
def operationWrites : Operation → List StateComponent
  | .stop | .halt => [runState]
  | .return _ | .call _ | .returnFromInterrupt | .push _ | .restart _ => [sp]
  | .load16Immediate register | .increment16 register | .decrement16 register =>
    registerMask register
  | .addHl _ => registerMask .hl
  | .loadAccumulatorIndirect .hlIncrement direction
  | .loadAccumulatorIndirect .hlDecrement direction => transferWrite direction ++ registerMask .hl
  | .loadAccumulatorIndirect _ direction => transferWrite direction
  | .increment8 operand | .decrement8 operand | .load8Immediate operand => operandWrite operand
  | .rotateAccumulator _ | .decimalAdjust | .complementAccumulator => [a]
  | .load8 destination _ => operandWrite destination
  | .alu8 .compare _ => []
  | .alu8 _ _ => [a]
  | .highImmediateLoad direction | .highCLoad direction | .absoluteAccumulatorLoad direction =>
    transferWrite direction
  | .addSpOffset | .loadSpHl => registerMask .sp
  | .loadHlSpOffset => registerMask .hl
  | .pop register => sp :: stackRegisterMask register
  | .disableInterrupts | .enableInterrupts => [ime]
  | .cb (.testBit _) _ => []
  | .cb _ operand => operandWrite operand
  | .nop | .storeSpAbsolute | .relativeJump _ | .jump _ | .jumpHl | .setCarry | .complementCarry
  | .prefixCb => []

/-- All components that an instruction reads. -/
def stateReads (operation : Operation) : List StateComponent :=
  [pc, ime, runState, mCycles, f] ++ operationReads operation

/-- All components that an instruction writes. -/
def stateWrites (operation : Operation) : List StateComponent :=
  [pc, ime, mCycles] ++ operationWrites operation ++
    (if flagEffect operation ≠ preserveFlags then [f] else [])

/-- A component set as a bit mask in table order. -/
def componentMask (components : List StateComponent) : ℕ :=
  (StateComponent.all.zipIdx.map (fun entry =>
    if entry.1 ∈ components then 2 ^ entry.2 else 0)).sum

def conditionCode : Option Condition → ℕ
  | none => 0
  | some .notZero => 1
  | some .zero => 2
  | some .notCarry => 3
  | some .carry => 4

def operand8Code : Operand8 → ℕ
  | .register .b => 0
  | .register .c => 1
  | .register .d => 2
  | .register .e => 3
  | .register .h => 4
  | .register .l => 5
  | .indirectHl => 6
  | .register .a => 7
  | .immediate => 8

def register16Code : Register16 → ℕ
  | .bc => 0
  | .de => 1
  | .hl => 2
  | .sp => 3

def stackRegisterCode : StackRegister16 → ℕ
  | .bc => 0
  | .de => 1
  | .hl => 2
  | .af => 3

def indirectCode : IndirectAddress → ℕ
  | .bc => 0
  | .de => 1
  | .hlIncrement => 2
  | .hlDecrement => 3

def directionCode : TransferDirection → ℕ
  | .intoAccumulator => 0
  | .fromAccumulator => 1

def aluCode : AluOperation → ℕ
  | .add => 0
  | .addCarry => 1
  | .subtract => 2
  | .subtractCarry => 3
  | .and => 4
  | .xor => 5
  | .or => 6
  | .compare => 7

def cbOperationCode : CbOperation → ℕ
  | .rotateLeftCircular => 0
  | .rotateRightCircular => 1
  | .rotateLeft => 2
  | .rotateRight => 3
  | .shiftLeftArithmetic => 4
  | .shiftRightArithmetic => 5
  | .swapNibbles => 6
  | .shiftRightLogical => 7
  | .testBit bit | .resetBit bit | .setBit bit => bit

/-- Operation code and the two argument codes. -/
def descriptor : Operation → ℕ × ℕ × ℕ
  | .nop => (0, 0, 0)
  | .storeSpAbsolute => (1, 0, 0)
  | .stop => (2, 0, 0)
  | .relativeJump condition => (3, conditionCode condition, 0)
  | .load16Immediate register => (4, register16Code register, 0)
  | .addHl register => (5, register16Code register, 0)
  | .loadAccumulatorIndirect address direction =>
    (6, indirectCode address, directionCode direction)
  | .increment16 register => (7, register16Code register, 0)
  | .decrement16 register => (8, register16Code register, 0)
  | .increment8 operand => (9, operand8Code operand, 0)
  | .decrement8 operand => (10, operand8Code operand, 0)
  | .load8Immediate operand => (11, operand8Code operand, 0)
  | .rotateAccumulator rotate => (12, cbOperationCode rotate, 0)
  | .decimalAdjust => (13, 0, 0)
  | .complementAccumulator => (14, 0, 0)
  | .setCarry => (15, 0, 0)
  | .complementCarry => (16, 0, 0)
  | .load8 destination source => (17, operand8Code destination, operand8Code source)
  | .halt => (18, 0, 0)
  | .alu8 operation source => (19, aluCode operation, operand8Code source)
  | .return condition => (20, conditionCode condition, 0)
  | .highImmediateLoad direction => (21, directionCode direction, 0)
  | .addSpOffset => (22, 0, 0)
  | .loadHlSpOffset => (23, 0, 0)
  | .pop register => (24, stackRegisterCode register, 0)
  | .returnFromInterrupt => (25, 0, 0)
  | .jumpHl => (26, 0, 0)
  | .loadSpHl => (27, 0, 0)
  | .jump condition => (28, conditionCode condition, 0)
  | .highCLoad direction => (29, directionCode direction, 0)
  | .absoluteAccumulatorLoad direction => (30, directionCode direction, 0)
  | .prefixCb => (31, 0, 0)
  | .disableInterrupts => (32, 0, 0)
  | .enableInterrupts => (33, 0, 0)
  | .call condition => (34, conditionCode condition, 0)
  | .push register => (35, stackRegisterCode register, 0)
  | .restart vector => (36, vector / 8, 0)
  | .cb (.testBit bit) operand => (38, bit, operand8Code operand)
  | .cb (.resetBit bit) operand => (39, bit, operand8Code operand)
  | .cb (.setBit bit) operand => (40, bit, operand8Code operand)
  | .cb operation operand => (37, cbOperationCode operation, operand8Code operand)

/-- The code of the program-counter rule. -/
def pcRule : Operation → ℕ
  | .relativeJump _ => 1
  | .jump _ => 2
  | .jumpHl => 3
  | .call _ => 4
  | .return _ | .returnFromInterrupt => 5
  | .restart _ => 6
  | _ => 0

/-- The prefix and the opcode byte of an encoding. -/
def alignmentKey : InstructionEncoding → ℕ × ℕ
  | .primary opcode => (0, opcode)
  | .cb opcode => (1, opcode)

/-- Fields packed from the lowest bit up, each in its allotted width. -/
def packFields (fields : List (ℕ × ℕ)) : ℕ :=
  fields.foldr (fun field packed => field.1 + 2 ^ field.2 * packed) 0

/-- The collision-free packing of an aligned record. -/
def packedRecord (instruction : DecodedInstruction) : ℕ :=
  let key := alignmentKey instruction.encoding
  let codes := descriptor instruction.operation
  let flags := flagEffect instruction.operation
  let bus := busPattern instruction
  packFields [(key.1, 1), (key.2, 8), (classCode instruction.operation, 8), (codes.1, 8),
    (codes.2.1, 8), (codes.2.2, 8), (instruction.byteLen, 2), (instruction.baseMCycles, 4),
    (instruction.takenMCycles.getD 0, 4), (pcRule instruction.operation, 3),
    (flagActionCode flags.zero + 4 * flagActionCode flags.subtract +
      16 * flagActionCode flags.halfCarry + 64 * flagActionCode flags.carry, 8),
    (componentMask (stateReads instruction.operation), 16),
    (componentMask (stateWrites instruction.operation), 16),
    (bus.opcodeFetches, 2), (bus.immediateReads, 2), (bus.dataReads, 2), (bus.dataWrites, 2),
    (bus.takenDataReads, 2), (bus.takenDataWrites, 2)]

/-- The lowest `width` bits of a value, lowest first. -/
def bitList (value width : ℕ) : List ℕ :=
  (List.range width).map (fun bit => value / 2 ^ bit % 2)

/-- The 38 outputs of a defined row. -/
def alignedOutputs (instruction : DecodedInstruction) : List ℕ :=
  let codes := descriptor instruction.operation
  let bus := busPattern instruction
  let packed := packedRecord instruction
  let taken := instruction.takenMCycles.getD 0
  [1, packed % 2 ^ 64, packed / 2 ^ 64, instruction.baseMCycles, taken, bus.opcodeFetches,
    bus.immediateReads, bus.dataReads, bus.dataWrites, bus.takenDataReads, bus.takenDataWrites] ++
    bitList (componentMask (stateWrites instruction.operation)) 13 ++
    [if taken ≠ 0 then 1 else 0] ++ bitList codes.1 6 ++ bitList codes.2.1 3 ++
    bitList codes.2.2 4

/-- The outputs of the fixed table at an address. -/
def outputs (address : ℕ) : List ℕ :=
  match decodeAddress address with
  | some instruction => alignedOutputs instruction
  | none => List.replicate 38 0

end IsaTable

end Zksm83
