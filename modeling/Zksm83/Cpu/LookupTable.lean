import Zksm83.Core.Alu
import Zksm83.Cpu.Lookup

/-!
# The fixed execution tables

The proof plan of an operation names the table that its lanes query. A table entry is evaluated by
rebuilding the typed query at its index, and the packed table looks an address up in the range that
holds it. After `zksm83-isa/src/execution_lookup.rs`, `zksm83-core/src/execution_lookup.rs` and
`evaluate_packed_execution_table_entry` of `zksm83-jolt/src/execution_lookup.rs`.
-/

namespace Zksm83

namespace ExecutionLookupTable

/-- The number of rows of a table. -/
def rowCount (table : ExecutionLookupTable) : ℕ := 2 ^ table.inputBitCount

/-- Every packed range starts at a multiple of its length and fits nineteen bits. -/
theorem packedRange_aligned : ∀ table : ExecutionLookupTable,
    table.packedOffset % table.rowCount = 0 ∧ table.packedOffset + table.rowCount ≤ 2 ^ 19 := by
  intro table
  cases table <;> decide

/-- The packed ranges of two tables do not meet. -/
theorem packedRange_disjoint {table other : ExecutionLookupTable} (hne : table ≠ other) :
    table.packedOffset + table.rowCount ≤ other.packedOffset ∨
      other.packedOffset + other.rowCount ≤ table.packedOffset := by
  cases table <;> cases other <;> first | exact absurd rfl hne | decide

theorem mem_all (table : ExecutionLookupTable) : table ∈ all := by
  cases table <;> decide

end ExecutionLookupTable

/-- How an instruction is proved: by glue alone, by one query, or by two queries of one table. -/
inductive ExecutionProofPlan where
  | glueOnly
  | lookup (table : ExecutionLookupTable)
  | doubleLookup (table : ExecutionLookupTable)
  deriving DecidableEq, Repr

namespace ExecutionProofPlan

def lookupTable : ExecutionProofPlan → Option ExecutionLookupTable
  | .glueOnly => none
  | .lookup table | .doubleLookup table => some table

def lookupCount : ExecutionProofPlan → ℕ
  | .glueOnly => 0
  | .lookup _ => 1
  | .doubleLookup _ => 2

end ExecutionProofPlan

def aluLookupTable : AluOperation → ExecutionLookupTable
  | .add | .addCarry => .add8
  | .subtract | .subtractCarry | .compare => .subtract8
  | .and => .and8
  | .xor => .xor8
  | .or => .or8

def cbLookupTable : CbOperation → ExecutionLookupTable
  | .rotateLeftCircular | .rotateRightCircular | .rotateLeft | .rotateRight
  | .shiftLeftArithmetic | .shiftRightArithmetic | .swapNibbles | .shiftRightLogical =>
    .rotateShift8
  | .testBit _ => .testBit8
  | .resetBit _ => .resetBit8
  | .setBit _ => .setBit8

/-- The proof plan of an operation. -/
def executionProofPlan : Operation → ExecutionProofPlan
  | .addHl _ => .doubleLookup .add8
  | .increment8 _ => .lookup .increment8
  | .decrement8 _ => .lookup .decrement8
  | .rotateAccumulator _ => .lookup .rotateShift8
  | .decimalAdjust => .lookup .decimalAdjust8
  | .alu8 operation _ => .lookup (aluLookupTable operation)
  | .addSpOffset | .loadHlSpOffset => .doubleLookup .add8
  | .relativeJump (some _) | .return (some _) | .jump (some _) | .call (some _) =>
    .lookup .condition
  | .cb operation _ => .lookup (cbLookupTable operation)
  | .nop | .storeSpAbsolute | .stop | .relativeJump none | .load16Immediate _
  | .loadAccumulatorIndirect _ _ | .increment16 _ | .decrement16 _ | .load8Immediate _
  | .complementAccumulator | .setCarry | .complementCarry | .load8 _ _ | .halt | .return none
  | .highImmediateLoad _ | .pop _ | .returnFromInterrupt | .jumpHl | .loadSpHl | .jump none
  | .highCLoad _ | .absoluteAccumulatorLoad _ | .prefixCb | .disableInterrupts
  | .enableInterrupts | .call none | .push _ | .restart _ => .glueOnly

/-- The rotates and shifts of the CB table. -/
inductive RotateShiftOperation where
  | rotateLeftCircular | rotateRightCircular | rotateLeft | rotateRight
  | shiftLeftArithmetic | shiftRightArithmetic | swapNibbles | shiftRightLogical
  deriving DecidableEq, Repr

namespace RotateShiftOperation

def fromCb : CbOperation → Option RotateShiftOperation
  | .rotateLeftCircular => some .rotateLeftCircular
  | .rotateRightCircular => some .rotateRightCircular
  | .rotateLeft => some .rotateLeft
  | .rotateRight => some .rotateRight
  | .shiftLeftArithmetic => some .shiftLeftArithmetic
  | .shiftRightArithmetic => some .shiftRightArithmetic
  | .swapNibbles => some .swapNibbles
  | .shiftRightLogical => some .shiftRightLogical
  | .testBit _ | .resetBit _ | .setBit _ => none

def asCb : RotateShiftOperation → CbOperation
  | .rotateLeftCircular => .rotateLeftCircular
  | .rotateRightCircular => .rotateRightCircular
  | .rotateLeft => .rotateLeft
  | .rotateRight => .rotateRight
  | .shiftLeftArithmetic => .shiftLeftArithmetic
  | .shiftRightArithmetic => .shiftRightArithmetic
  | .swapNibbles => .swapNibbles
  | .shiftRightLogical => .shiftRightLogical

end RotateShiftOperation

/-- The output of a table query. -/
inductive ExecutionLookupOutput where
  | byteWithFlags (value : ℕ) (flags : Flags)
  | byte (value : ℕ)
  | predicate (value : Bool)
  deriving DecidableEq, Repr

/-- The output as one scalar; the table fixes the variant. -/
def ExecutionLookupOutput.packed : ExecutionLookupOutput → ℕ
  | .byteWithFlags value flags => value ||| flags.byte <<< 8
  | .byte value => value
  | .predicate value => value.toNat

/-- Why a query is outside the domain of its table. -/
inductive ExecutionLookupError where
  | invalidBit (bit : ℕ)
  | invalidRotateShift
  | tableQueryMismatch (table : ExecutionLookupTable)
  | addressOutOfRange (table : ExecutionLookupTable) (index : ℕ)
  deriving DecidableEq, Repr

/-- A typed query into one of the tables. -/
inductive ExecutionLookupQuery where
  | binary8 (table : ExecutionLookupTable) (left right : ℕ) (carry : Bool)
  | unary8 (table : ExecutionLookupTable) (value : ℕ) (carry : Bool)
  | rotateShift8 (value : ℕ) (operation : RotateShiftOperation) (carry zeroFromResult : Bool)
  | decimalAdjust8 (accumulator : ℕ) (flags : Flags)
  | bit8 (table : ExecutionLookupTable) (value bit : ℕ) (carry : Bool)
  | condition (branch : Condition) (flags : Flags)
  deriving DecidableEq, Repr

namespace ExecutionLookupQuery

/-- A rotate or shift query; the bit operations have none. -/
def checkedRotateShift8 (value : ℕ) (operation : CbOperation) (carry zeroFromResult : Bool) :
    Except ExecutionLookupError ExecutionLookupQuery :=
  match RotateShiftOperation.fromCb operation with
  | some operation => .ok (.rotateShift8 value operation carry zeroFromResult)
  | none => .error .invalidRotateShift

/-- A bit query; the bit is below eight. -/
def checkedBit8 (table : ExecutionLookupTable) (value bit : ℕ) (carry : Bool) :
    Except ExecutionLookupError ExecutionLookupQuery :=
  if 8 ≤ bit then .error (.invalidBit bit) else .ok (.bit8 table value bit carry)

def flagsFromNibble (nibble : ℕ) : Flags :=
  ⟨nibble.testBit 3, nibble.testBit 2, nibble.testBit 1, nibble.testBit 0⟩

def rotateShiftFromCode : ℕ → CbOperation
  | 0 => .rotateLeftCircular
  | 1 => .rotateRightCircular
  | 2 => .rotateLeft
  | 3 => .rotateRight
  | 4 => .shiftLeftArithmetic
  | 5 => .shiftRightArithmetic
  | 6 => .swapNibbles
  | _ => .shiftRightLogical

def conditionFromCode : ℕ → Condition
  | 0 => .notZero
  | 1 => .zero
  | 2 => .notCarry
  | _ => .carry

def conditionHolds (flags : Flags) : Condition → Bool
  | .notZero => !flags.zero
  | .zero => flags.zero
  | .notCarry => !flags.carry
  | .carry => flags.carry

/-- The query at an index of a table. -/
def fromIndex (table : ExecutionLookupTable) (index : ℕ) :
    Except ExecutionLookupError ExecutionLookupQuery :=
  let byte := fun shift => index / 2 ^ shift % 256
  if 2 ^ table.inputBitCount ≤ index then .error (.addressOutOfRange table index)
  else match table with
    | .add8 => .ok (.binary8 .add8 (byte 0) (byte 8) (index.testBit 16))
    | .subtract8 => .ok (.binary8 .subtract8 (byte 0) (byte 8) (index.testBit 16))
    | .and8 => .ok (.binary8 .and8 (byte 0) (byte 8) false)
    | .xor8 => .ok (.binary8 .xor8 (byte 0) (byte 8) false)
    | .or8 => .ok (.binary8 .or8 (byte 0) (byte 8) false)
    | .increment8 => .ok (.unary8 .increment8 (byte 0) (index.testBit 8))
    | .decrement8 => .ok (.unary8 .decrement8 (byte 0) (index.testBit 8))
    | .rotateShift8 => checkedRotateShift8 (byte 0) (rotateShiftFromCode (byte 8 &&& 0x07))
        (index.testBit 11) (index.testBit 12)
    | .decimalAdjust8 => .ok (.decimalAdjust8 (byte 0) (flagsFromNibble (byte 8 &&& 0x0f)))
    | .testBit8 => checkedBit8 .testBit8 (byte 0) (byte 8 &&& 0x07) (index.testBit 11)
    | .resetBit8 => checkedBit8 .resetBit8 (byte 0) (byte 8 &&& 0x07) false
    | .setBit8 => checkedBit8 .setBit8 (byte 0) (byte 8 &&& 0x07) false
    | .condition => .ok (.condition (conditionFromCode (byte 4 &&& 0x03))
        (flagsFromNibble (byte 0 &&& 0x0f)))

def evaluateBinary8 (table : ExecutionLookupTable) (left right : ℕ) (carry : Bool) :
    Except ExecutionLookupError ExecutionLookupOutput :=
  let apply := fun operation =>
    let result := Alu.applyAlu operation left right ⟨false, false, false, carry⟩
    .ok (.byteWithFlags result.value result.flags)
  match table with
  | .add8 => apply (if carry then .addCarry else .add)
  | .subtract8 => apply (if carry then .subtractCarry else .subtract)
  | .and8 => apply .and
  | .xor8 => apply .xor
  | .or8 => apply .or
  | _ => .error (.tableQueryMismatch table)

def evaluateUnary8 (table : ExecutionLookupTable) (value : ℕ) (carry : Bool) :
    Except ExecutionLookupError ExecutionLookupOutput :=
  let finish := fun (result : Alu.ByteResult) => .ok (.byteWithFlags result.value result.flags)
  match table with
  | .increment8 => finish (Alu.increment value ⟨false, false, false, carry⟩)
  | .decrement8 => finish (Alu.decrement value ⟨false, false, false, carry⟩)
  | _ => .error (.tableQueryMismatch table)

def evaluateBit8 (table : ExecutionLookupTable) (value bit : ℕ) (carry : Bool) :
    Except ExecutionLookupError ExecutionLookupOutput :=
  match table with
  | .testBit8 => .ok (.byteWithFlags value ⟨!value.testBit bit, false, true, carry⟩)
  | .resetBit8 => .ok (.byte (value &&& (0xff - 2 ^ bit)))
  | .setBit8 => .ok (.byte (value ||| 2 ^ bit))
  | _ => .error (.tableQueryMismatch table)

/-- The table function at a query. -/
def evaluate : ExecutionLookupQuery → Except ExecutionLookupError ExecutionLookupOutput
  | .binary8 table left right carry => evaluateBinary8 table left right carry
  | .unary8 table value carry => evaluateUnary8 table value carry
  | .rotateShift8 value operation carry zeroFromResult =>
    match Alu.rotateShift operation.asCb value carry zeroFromResult with
    | some result => .ok (.byteWithFlags result.value result.flags)
    | none => .error .invalidRotateShift
  | .decimalAdjust8 accumulator flags =>
    let result := Alu.decimalAdjust accumulator flags
    .ok (.byteWithFlags result.value result.flags)
  | .bit8 table value bit carry => evaluateBit8 table value bit carry
  | .condition branch flags => .ok (.predicate (conditionHolds flags branch))

end ExecutionLookupQuery

/-- The entry of a table at an index. -/
def evaluateExecutionTableEntry (table : ExecutionLookupTable) (index : ℕ) :
    Except ExecutionLookupError ℕ := do
  let query ← ExecutionLookupQuery.fromIndex table index
  let output ← query.evaluate
  return output.packed

/-- The entry at an address of the packed table, over the tables that are left to try. -/
def evaluatePackedFrom (address : ℕ) : List ExecutionLookupTable → ℕ
  | [] => 0
  | table :: rest =>
    if 2 ^ 32 ≤ table.packedOffset + table.rowCount then 0
    else if table.packedOffset ≤ address ∧ address < table.packedOffset + table.rowCount then
      (evaluateExecutionTableEntry table (address - table.packedOffset)).toOption.getD 0
    else evaluatePackedFrom address rest

/-- The entry at an address of the packed table; addresses outside every range hold zero. -/
def evaluatePackedExecutionTableEntry (address : ℕ) : ℕ :=
  if 2 ^ 19 ≤ address then 0 else evaluatePackedFrom address ExecutionLookupTable.all

/-- The codes of the rotate table name rotates and shifts. -/
theorem RotateShiftOperation.fromCb_fromCode (code : ℕ) : ∃ operation,
    RotateShiftOperation.fromCb (ExecutionLookupQuery.rotateShiftFromCode code) =
      some operation := by
  unfold ExecutionLookupQuery.rotateShiftFromCode
  split <;> exact ⟨_, rfl⟩

/-- Every rotate and shift has a result. -/
theorem RotateShiftOperation.rotateShift_asCb (operation : RotateShiftOperation) (value : ℕ)
    (carry zeroFromResult : Bool) :
    ∃ result, Alu.rotateShift operation.asCb value carry zeroFromResult = some result := by
  cases operation <;> exact ⟨_, rfl⟩

/-- Every index below the row count has an entry. -/
theorem evaluateExecutionTableEntry_total {table : ExecutionLookupTable} {index : ℕ}
    (hindex : index < table.rowCount) :
    ∃ value, evaluateExecutionTableEntry table index = .ok value := by
  have hlt : ¬ 2 ^ table.inputBitCount ≤ index := Nat.not_le.mpr hindex
  have hquery : ∃ query output, ExecutionLookupQuery.fromIndex table index = .ok query ∧
      query.evaluate = .ok output := by
    have hbit : ∀ value, ¬ 8 ≤ value &&& 0x07 := by
      intro value
      have hle : value &&& 0x07 ≤ 0x07 := Nat.and_le_right
      omega
    simp only [ExecutionLookupQuery.fromIndex, if_neg hlt]
    cases table with
    | rotateShift8 =>
      obtain ⟨operation, hoperation⟩ :=
        RotateShiftOperation.fromCb_fromCode (index / 2 ^ 8 % 256 &&& 0x07)
      obtain ⟨result, hresult⟩ := RotateShiftOperation.rotateShift_asCb operation
        (index / 2 ^ 0 % 256) (index.testBit 11) (index.testBit 12)
      refine ⟨.rotateShift8 (index / 2 ^ 0 % 256) operation (index.testBit 11) (index.testBit 12),
        .byteWithFlags result.value result.flags, ?_, ?_⟩
      · rw [ExecutionLookupQuery.checkedRotateShift8, hoperation]
      · rw [ExecutionLookupQuery.evaluate, hresult]
    | testBit8 | resetBit8 | setBit8 =>
      simp only [ExecutionLookupQuery.checkedBit8, if_neg (hbit _)]
      exact ⟨_, _, rfl, rfl⟩
    | _ => exact ⟨_, _, rfl, rfl⟩
  obtain ⟨query, output, hfrom, hevaluate⟩ := hquery
  refine ⟨output.packed, ?_⟩
  rw [evaluateExecutionTableEntry, hfrom]
  show (query.evaluate >>= fun output => pure output.packed) = _
  rw [hevaluate]
  rfl

/-- An address in the range of a table holds the entry of that table. -/
theorem evaluatePackedExecutionTableEntry_eq {table : ExecutionLookupTable} {address : ℕ}
    (hle : table.packedOffset ≤ address) (hlt : address < table.packedOffset + table.rowCount) :
    ∃ value, evaluateExecutionTableEntry table (address - table.packedOffset) = .ok value ∧
      evaluatePackedExecutionTableEntry address = value := by
  obtain ⟨value, hvalue⟩ := evaluateExecutionTableEntry_total
    (show address - table.packedOffset < table.rowCount by omega)
  refine ⟨value, hvalue, ?_⟩
  have hfits := (ExecutionLookupTable.packedRange_aligned table).2
  -- The tables before the one that holds the address do not hold it.
  have hfrom : ∀ tables, table ∈ tables → evaluatePackedFrom address tables = value := by
    intro tables hmem
    induction tables with
    | nil => cases hmem
    | cons head rest ih =>
      have hhead := (ExecutionLookupTable.packedRange_aligned head).2
      rw [evaluatePackedFrom, if_neg (by omega)]
      by_cases heq : table = head
      · rw [← heq, if_pos ⟨hle, hlt⟩, hvalue]
        rfl
      · have hdisjoint := ExecutionLookupTable.packedRange_disjoint heq
        rw [if_neg (by omega)]
        exact ih ((List.mem_cons.mp hmem).resolve_left heq)
  rw [evaluatePackedExecutionTableEntry, if_neg (by omega)]
  exact hfrom _ (ExecutionLookupTable.mem_all table)

end Zksm83
