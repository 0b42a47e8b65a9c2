import Mathlib

/-!
# SM83 instructions and their decoder

The typed instructions and the decoder of primary and CB-prefixed opcodes with byte lengths and
timings. Opcode bytes are natural numbers below 256. After `types.rs` and `decode.rs` of
`zksm83-isa`.
-/

namespace Zksm83

inductive Register8 where
  | a | b | c | d | e | h | l
  deriving DecidableEq, Repr

inductive Register16 where
  | bc | de | hl | sp
  deriving DecidableEq, Repr

inductive StackRegister16 where
  | bc | de | hl | af
  deriving DecidableEq, Repr

inductive Operand8 where
  | register (register : Register8)
  | immediate
  | indirectHl
  deriving DecidableEq, Repr

inductive IndirectAddress where
  | bc | de | hlIncrement | hlDecrement
  deriving DecidableEq, Repr

inductive TransferDirection where
  | intoAccumulator | fromAccumulator
  deriving DecidableEq, Repr

inductive Condition where
  | notZero | zero | notCarry | carry
  deriving DecidableEq, Repr

inductive AluOperation where
  | add | addCarry | subtract | subtractCarry | and | xor | or | compare
  deriving DecidableEq, Repr

inductive CbOperation where
  | rotateLeftCircular | rotateRightCircular | rotateLeft | rotateRight
  | shiftLeftArithmetic | shiftRightArithmetic | swapNibbles | shiftRightLogical
  | testBit (bit : ℕ) | resetBit (bit : ℕ) | setBit (bit : ℕ)
  deriving DecidableEq, Repr

/-- The typed semantic operations. -/
inductive Operation where
  | nop
  | storeSpAbsolute
  | stop
  | relativeJump (condition : Option Condition)
  | load16Immediate (register : Register16)
  | addHl (register : Register16)
  | loadAccumulatorIndirect (address : IndirectAddress) (direction : TransferDirection)
  | increment16 (register : Register16)
  | decrement16 (register : Register16)
  | increment8 (operand : Operand8)
  | decrement8 (operand : Operand8)
  | load8Immediate (operand : Operand8)
  | rotateAccumulator (rotate : CbOperation)
  | decimalAdjust
  | complementAccumulator
  | setCarry
  | complementCarry
  | load8 (destination source : Operand8)
  | halt
  | alu8 (operation : AluOperation) (operand : Operand8)
  | return (condition : Option Condition)
  | highImmediateLoad (direction : TransferDirection)
  | addSpOffset
  | loadHlSpOffset
  | pop (register : StackRegister16)
  | returnFromInterrupt
  | jumpHl
  | loadSpHl
  | jump (condition : Option Condition)
  | highCLoad (direction : TransferDirection)
  | absoluteAccumulatorLoad (direction : TransferDirection)
  | prefixCb
  | disableInterrupts
  | enableInterrupts
  | call (condition : Option Condition)
  | push (register : StackRegister16)
  | restart (vector : ℕ)
  | cb (operation : CbOperation) (operand : Operand8)
  deriving DecidableEq, Repr

/-- The opcode bytes of an instruction: one primary byte, or a byte after the CB prefix. -/
inductive InstructionEncoding where
  | primary (opcode : ℕ)
  | cb (opcode : ℕ)
  deriving DecidableEq, Repr

/-- An instruction with its encoding, length and timing. The remaining metadata are functions of
these fields. -/
structure DecodedInstruction where
  encoding : InstructionEncoding
  operation : Operation
  byteLen : ℕ
  baseMCycles : ℕ
  takenMCycles : Option ℕ
  deriving DecidableEq, Repr

namespace Decode

/-- Operation, byte length, base cycles, and cycles when a condition holds. -/
abbrev Entry := Operation × ℕ × ℕ × Option ℕ

def tuple (operation : Operation) (byteLen mCycles : ℕ) : Entry :=
  (operation, byteLen, mCycles, none)

def conditional (operation : Operation) (byteLen baseMCycles takenMCycles : ℕ) : Entry :=
  (operation, byteLen, baseMCycles, some takenMCycles)

def operand8 : ℕ → Operand8
  | 0 => .register .b
  | 1 => .register .c
  | 2 => .register .d
  | 3 => .register .e
  | 4 => .register .h
  | 5 => .register .l
  | 6 => .indirectHl
  | _ => .register .a

def register16 : ℕ → Register16
  | 0 => .bc
  | 1 => .de
  | 2 => .hl
  | _ => .sp

def stackRegister16 : ℕ → StackRegister16
  | 0 => .bc
  | 1 => .de
  | 2 => .hl
  | _ => .af

def condition : ℕ → Condition
  | 0 => .notZero
  | 1 => .zero
  | 2 => .notCarry
  | _ => .carry

def aluOperation : ℕ → AluOperation
  | 0 => .add
  | 1 => .addCarry
  | 2 => .subtract
  | 3 => .subtractCarry
  | 4 => .and
  | 5 => .xor
  | 6 => .or
  | _ => .compare

def cbRotate : ℕ → CbOperation
  | 0 => .rotateLeftCircular
  | 1 => .rotateRightCircular
  | 2 => .rotateLeft
  | 3 => .rotateRight
  | 4 => .shiftLeftArithmetic
  | 5 => .shiftRightArithmetic
  | 6 => .swapNibbles
  | _ => .shiftRightLogical

def indirectAccumulator (y : ℕ) : Operation :=
  let address : IndirectAddress := match y / 2 with
    | 0 => .bc
    | 1 => .de
    | 2 => .hlIncrement
    | _ => .hlDecrement
  .loadAccumulatorIndirect address (if y % 2 = 0 then .fromAccumulator else .intoAccumulator)

def blockZeroMisc : ℕ → Operation
  | 0 => .rotateAccumulator .rotateLeftCircular
  | 1 => .rotateAccumulator .rotateRightCircular
  | 2 => .rotateAccumulator .rotateLeft
  | 3 => .rotateAccumulator .rotateRight
  | 4 => .decimalAdjust
  | 5 => .complementAccumulator
  | 6 => .setCarry
  | _ => .complementCarry

def decodeBlockZero (y z p q : ℕ) : Entry :=
  match z with
  | 0 => match y with
    | 0 => tuple .nop 1 1
    | 1 => tuple .storeSpAbsolute 3 5
    | 2 => tuple .stop 2 1
    | 3 => tuple (.relativeJump none) 2 3
    | _ => conditional (.relativeJump (some (condition (y - 4)))) 2 2 3
  | 1 => if q = 0 then tuple (.load16Immediate (register16 p)) 3 3
    else tuple (.addHl (register16 p)) 1 2
  | 2 => tuple (indirectAccumulator y) 1 2
  | 3 => if q = 0 then tuple (.increment16 (register16 p)) 1 2
    else tuple (.decrement16 (register16 p)) 1 2
  | 4 => tuple (.increment8 (operand8 y)) 1 (if y = 6 then 3 else 1)
  | 5 => tuple (.decrement8 (operand8 y)) 1 (if y = 6 then 3 else 1)
  | 6 => tuple (.load8Immediate (operand8 y)) 2 (if y = 6 then 3 else 2)
  | _ => tuple (blockZeroMisc y) 1 1

def decodeBlockOne (y z : ℕ) : Entry :=
  if y = 6 ∧ z = 6 then tuple .halt 1 1
  else tuple (.load8 (operand8 y) (operand8 z)) 1 (if y = 6 ∨ z = 6 then 2 else 1)

def decodeBlockTwo (y z : ℕ) : Entry :=
  tuple (.alu8 (aluOperation y) (operand8 z)) 1 (if z = 6 then 2 else 1)

def decodeBlockThreeZOne (p q : ℕ) : Entry :=
  if q = 0 then tuple (.pop (stackRegister16 p)) 1 3
  else match p with
    | 0 => tuple (.return none) 1 4
    | 1 => tuple .returnFromInterrupt 1 4
    | 2 => tuple .jumpHl 1 1
    | _ => tuple .loadSpHl 1 2

def decodeBlockThree (y z p q : ℕ) : Entry :=
  match z with
  | 0 =>
    if y ≤ 3 then conditional (.return (some (condition y))) 1 2 5
    else match y with
      | 4 => tuple (.highImmediateLoad .fromAccumulator) 2 3
      | 5 => tuple .addSpOffset 2 4
      | 6 => tuple (.highImmediateLoad .intoAccumulator) 2 3
      | _ => tuple .loadHlSpOffset 2 3
  | 1 => decodeBlockThreeZOne p q
  | 2 =>
    if y ≤ 3 then conditional (.jump (some (condition y))) 3 3 4
    else match y with
      | 4 => tuple (.highCLoad .fromAccumulator) 1 2
      | 5 => tuple (.absoluteAccumulatorLoad .fromAccumulator) 3 4
      | 6 => tuple (.highCLoad .intoAccumulator) 1 2
      | _ => tuple (.absoluteAccumulatorLoad .intoAccumulator) 3 4
  | 3 => match y with
    | 0 => tuple (.jump none) 3 4
    | 1 => tuple .prefixCb 1 1
    | 6 => tuple .disableInterrupts 1 1
    | _ => tuple .enableInterrupts 1 1
  | 4 => conditional (.call (some (condition y))) 3 3 6
  | 5 => if q = 0 then tuple (.push (stackRegister16 p)) 1 4 else tuple (.call none) 3 6
  | 6 => tuple (.alu8 (aluOperation y) .immediate) 2 2
  | _ => tuple (.restart (y * 8)) 1 4

end Decode

open Decode

/-- The undefined primary opcodes. -/
def isUndefined (byte : ℕ) : Bool :=
  byte ∈ [0xd3, 0xdb, 0xdd, 0xe3, 0xe4, 0xeb, 0xec, 0xed, 0xf4, 0xfc, 0xfd]

/-- The instruction of a defined primary opcode. -/
def decodeDefinedPrimary (byte : ℕ) : DecodedInstruction :=
  let y := byte / 8 % 8
  let z := byte % 8
  let entry := match byte / 64 with
    | 0 => decodeBlockZero y z (y / 2) (y % 2)
    | 1 => decodeBlockOne y z
    | 2 => decodeBlockTwo y z
    | _ => decodeBlockThree y z (y / 2) (y % 2)
  { encoding := .primary byte
    operation := entry.1
    byteLen := entry.2.1
    baseMCycles := entry.2.2.1
    takenMCycles := entry.2.2.2 }

/-- The instruction of a primary opcode, or none where the opcode is undefined. -/
def decodePrimary (byte : ℕ) : Option DecodedInstruction :=
  if isUndefined byte then none else some (decodeDefinedPrimary byte)

/-- The instruction of a byte after the CB prefix. -/
def decodeCb (byte : ℕ) : DecodedInstruction :=
  let x := byte / 64
  let y := byte / 8 % 8
  let target := operand8 (byte % 8)
  let operation : CbOperation := match x with
    | 0 => cbRotate y
    | 1 => .testBit y
    | 2 => .resetBit y
    | _ => .setBit y
  { encoding := .cb byte
    operation := .cb operation target
    byteLen := 2
    baseMCycles := match x, target with
      | 1, .indirectHl => 3
      | _, .indirectHl => 4
      | _, _ => 2
    takenMCycles := none }

/-- The instruction at an address of the fixed ISA table: primary opcodes, then CB opcodes. -/
def decodeAddress (address : ℕ) : Option DecodedInstruction :=
  if address < 256 then decodePrimary address else some (decodeCb (address - 256))

end Zksm83
