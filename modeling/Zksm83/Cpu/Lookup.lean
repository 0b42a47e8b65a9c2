import Zksm83.Cpu.Data

/-!
# Execution lookups of packed lanes

Every lane has two queries into the fixed execution table. A query holds a selector, a 19-bit
address (table base and inputs), and twelve output bits. The well-formedness constraints fix the
table that the operation uses; the glue constraints bind inputs and outputs to registers, flags and
bus bytes. After `execution_lookup.rs`, `cpu/execution.rs` and the table layout of
`zksm83-isa/src/execution_lookup.rs`.
-/

namespace Zksm83

open Constraint BlockIsa BlockFrontend

/-- The fixed execution tables, in protocol order. -/
inductive ExecutionLookupTable where
  | add8 | subtract8 | and8 | xor8 | or8 | increment8 | decrement8 | rotateShift8
  | decimalAdjust8 | testBit8 | resetBit8 | setBit8 | condition
  deriving DecidableEq, Repr

namespace ExecutionLookupTable

def all : List ExecutionLookupTable :=
  [.add8, .subtract8, .and8, .xor8, .or8, .increment8, .decrement8, .rotateShift8,
    .decimalAdjust8, .testBit8, .resetBit8, .setBit8, .condition]

/-- Address width of a table. -/
def inputBitCount : ExecutionLookupTable → ℕ
  | .add8 | .subtract8 => 17
  | .and8 | .xor8 | .or8 => 16
  | .increment8 | .decrement8 => 9
  | .rotateShift8 => 13
  | .decimalAdjust8 => 12
  | .testBit8 => 12
  | .resetBit8 | .setBit8 => 11
  | .condition => 6

/-- Base of a table in the packed domain. -/
def packedOffset : ExecutionLookupTable → ℕ
  | .add8 => 0
  | .subtract8 => 131072
  | .and8 => 262144
  | .xor8 => 327680
  | .or8 => 393216
  | .increment8 => 479232
  | .decrement8 => 480256
  | .rotateShift8 => 458752
  | .decimalAdjust8 => 466944
  | .testBit8 => 471040
  | .resetBit8 => 475136
  | .setBit8 => 477184
  | .condition => 481280

end ExecutionLookupTable

namespace ExecutionLookup

abbrev inputBitCount : ℕ := 17
abbrev addressBitCount : ℕ := 19
abbrev outputBitCount : ℕ := 12
abbrev lookupsPerInstruction : ℕ := 2
abbrev lookupsPerBlock : ℕ := basicBlockInstructionBound * lookupsPerInstruction
abbrev addressBitsOffset : ℕ := 1
abbrev outputBitsOffset : ℕ := addressBitsOffset + addressBitCount
abbrev slotWidth : ℕ := outputBitsOffset + outputBitCount
abbrev columnCount : ℕ := lookupsPerBlock * slotWidth
abbrev lookupStart : ℕ := BlockMemory.columnCount + PackedLane.packedCpuAuxColumnCount

/-- First column of a query. -/
def queryStart (lane query : ℕ) : ℕ :=
  lookupStart + (lane * lookupsPerInstruction + query) * slotWidth

variable {R : Type*}

/-- Whether a query is made. -/
def lookupSelector (row : Row R) (lane query : ℕ) : R := row (queryStart lane query)

/-- An address bit of a query. -/
def lookupAddressBit (row : Row R) (lane query bit : ℕ) : R :=
  row (queryStart lane query + addressBitsOffset + bit)

/-- An output bit of a query: eight result bits, then carry, half carry, subtract, zero. -/
def lookupOutputBit (row : Row R) (lane query bit : ℕ) : R :=
  row (queryStart lane query + outputBitsOffset + bit)

variable [Add R] [Sub R] [Mul R] [NatCast R]

/-- The selectors of the thirteen tables for the first query of a lane. -/
def tableSelectors (row : Row R) (lane : ℕ) : List R :=
  let active := PackedLane.instruction row lane
  let operation := PackedLane.operationSelector row lane
  let argument := PackedLane.argumentZero row lane
  let alu := operation 19
  [operation 5 + operation 22 + operation 23 + alu * (argument 0 + argument 1),
    alu * (argument 2 + argument 3 + argument 7),
    alu * argument 4, alu * argument 5, alu * argument 6,
    operation 9, operation 10, operation 12 + operation 37, operation 13,
    operation 38, operation 39, operation 40,
    (operation 3 + operation 20 + operation 28 + operation 34) *
      (argument 1 + argument 2 + argument 3 + argument 4)].map (fun selected => active * selected)

/-- The selectors for the second query, which only word operations make. -/
def secondTableSelectors (row : Row R) (lane : ℕ) : List R :=
  let operation := PackedLane.operationSelector row lane
  (PackedLane.instruction row lane * (operation 5 + operation 22 + operation 23)) ::
    List.replicate 12 ((0 : ℕ) : R)

/-- The tables that leave an address bit to the input. -/
def allowedSum (tables : List R) (addressBit : ℕ) : R :=
  total ((ExecutionLookupTable.all.zip tables).flatMap (fun entry =>
    if addressBit < entry.1.inputBitCount then [entry.2] else []))

/-- The table base at an address bit. -/
def fixedSum (tables : List R) (addressBit : ℕ) : R :=
  total ((ExecutionLookupTable.all.zip tables).flatMap (fun entry =>
    if addressBit < entry.1.inputBitCount then []
    else [entry.2 * ((entry.1.packedOffset / 2 ^ addressBit % 2 : ℕ) : R)]))

/-- Selector, address and output bits of one query. -/
def constrainLookupSlot (row : Row R) (lane query : ℕ) (tables : List R) : List R :=
  let one : R := ((1 : ℕ) : R)
  let selector := lookupSelector row lane query
  [selector * (selector - one), selector - total tables] ++
    booleans ((List.range addressBitCount).map (lookupAddressBit row lane query)) ++
    (List.range addressBitCount).map (fun bit =>
      (one - allowedSum tables bit) * lookupAddressBit row lane query bit - fixedSum tables bit) ++
    (List.range outputBitCount).flatMap (fun bit =>
      let output := lookupOutputBit row lane query bit
      [output * (output - one), (one - selector) * output])

/-- Well-formedness of all queries of a row. -/
def constrainExecutionLookupWellFormed (row : Row R) : List R :=
  (List.range basicBlockInstructionBound).flatMap (fun lane =>
    constrainLookupSlot row lane 0 (tableSelectors row lane) ++
      constrainLookupSlot row lane 1 (secondTableSelectors row lane))

variable {S : Type*} [Add S] [Sub S] [Mul S] [NatCast S] (φ : ArithHom R S)

@[simp] theorem map_lookupSelector (row : Row R) (lane query : ℕ) :
    φ (lookupSelector row lane query) = lookupSelector (φ.row row) lane query := rfl

@[simp] theorem map_lookupAddressBit (row : Row R) (lane query bit : ℕ) :
    φ (lookupAddressBit row lane query bit) = lookupAddressBit (φ.row row) lane query bit := rfl

@[simp] theorem map_lookupOutputBit (row : Row R) (lane query bit : ℕ) :
    φ (lookupOutputBit row lane query bit) = lookupOutputBit (φ.row row) lane query bit := rfl

@[simp] theorem map_tableSelectors (row : Row R) (lane : ℕ) :
    (tableSelectors row lane).map φ = tableSelectors (φ.row row) lane := by
  simp [tableSelectors]

@[simp] theorem map_secondTableSelectors (row : Row R) (lane : ℕ) :
    (secondTableSelectors row lane).map φ = secondTableSelectors (φ.row row) lane := by
  simp [secondTableSelectors]

@[simp] theorem map_allowedSum (tables : List R) (addressBit : ℕ) :
    φ (allowedSum tables addressBit) = allowedSum (tables.map φ) addressBit := by
  simp [allowedSum, List.zip_map_right, List.flatMap_map, List.map_flatMap,
    apply_ite (List.map φ.toFun)]

@[simp] theorem map_fixedSum (tables : List R) (addressBit : ℕ) :
    φ (fixedSum tables addressBit) = fixedSum (tables.map φ) addressBit := by
  simp [fixedSum, List.zip_map_right, List.flatMap_map, List.map_flatMap,
    apply_ite (List.map φ.toFun)]

@[simp] theorem map_constrainLookupSlot (row : Row R) (lane query : ℕ) (tables : List R) :
    (constrainLookupSlot row lane query tables).map φ =
      constrainLookupSlot (φ.row row) lane query (tables.map φ) := by
  simp [constrainLookupSlot, List.map_flatMap, Function.comp_def]

@[simp] theorem map_constrainExecutionLookupWellFormed (row : Row R) :
    (constrainExecutionLookupWellFormed row).map φ =
      constrainExecutionLookupWellFormed (φ.row row) := by
  simp [constrainExecutionLookupWellFormed, List.map_flatMap]

end ExecutionLookup

namespace PackedLane

open ExecutionLookup

abbrev outputCarryBit : ℕ := 8
abbrev outputHalfCarryBit : ℕ := 9
abbrev outputSubtractBit : ℕ := 10
abbrev outputZeroBit : ℕ := 11
abbrev flagCarryBit : ℕ := 4

/-- The operations that use the execution table. -/
structure LookupSelectors (R : Type*) where
  addHl : R
  increment : R
  decrement : R
  rotateAccumulator : R
  decimalAdjust : R
  alu : R
  signedSp : R
  conditional : R
  cbRotate : R
  testBit : R
  resetBit : R
  setBit : R

variable {R : Type*}

/-- A flag before the lane: carry, half carry, subtract, zero. -/
def beforeFlagBit (row : Row R) (lane bit : ℕ) : R :=
  beforeCpuBit row lane stateFlags (flagCarryBit + bit)

/-- A flag after the lane. -/
def afterFlagBit (row : Row R) (lane bit : ℕ) : R :=
  afterCpuBit row lane stateFlags (flagCarryBit + bit)

variable [Add R] [Sub R] [Mul R] [NatCast R]

/-- The lookup selectors of a lane. -/
def lookupSelectors (row : Row R) (lane : ℕ) : LookupSelectors R :=
  let active := instruction row lane
  let operation := operationSelector row lane
  { addHl := active * operation 5
    increment := active * operation 9
    decrement := active * operation 10
    rotateAccumulator := active * operation 12
    decimalAdjust := active * operation 13
    alu := active * operation 19
    signedSp := active * (operation 22 + operation 23)
    conditional := active * conditionalOperation row lane * conditionArgument row lane
    cbRotate := active * operation 37
    testBit := active * operation 38
    resetBit := active * operation 39
    setBit := active * operation 40 }

/-- All CB operations. -/
def LookupSelectors.cb (selectors : LookupSelectors R) : R :=
  selectors.cbRotate + selectors.testBit + selectors.resetBit + selectors.setBit

/-- The operations that use an input bit of the first query. -/
def firstInputSelector (row : Row R) (lane : ℕ) (selectors : LookupSelectors R) (bit : ℕ) : R :=
  let argument := argumentZero row lane
  let alu := if bit < 16 then selectors.alu
    else selectors.alu * (argument 0 + argument 1 + argument 2 + argument 3 + argument 7)
  total ([selectors.addHl, selectors.signedSp, alu] ++
    (if bit < 13 then [selectors.rotateAccumulator + selectors.cbRotate] else []) ++
    (if bit < 12 then [selectors.decimalAdjust + selectors.testBit] else []) ++
    (if bit < 11 then [selectors.resetBit + selectors.setBit] else []) ++
    (if bit < 9 then [selectors.increment + selectors.decrement] else []) ++
    (if bit < 6 then [selectors.conditional] else []))

/-- A bit of the condition code. -/
def conditionCodeBit (row : Row R) (lane bit : ℕ) (selected : R) : R :=
  let argument := argumentZero row lane
  if bit = 0 then selected * (argument 2 + argument 4) else selected * (argument 3 + argument 4)

/-- A bit of the selected byte operand: a register, the event in `slot`, or an immediate there. -/
def selectedPrimaryOperandBit (row : Row R) (lane argumentStart width slot bit : ℕ) : R :=
  let argument := argumentSelector row lane argumentStart width
  let busBit := busValueBit row lane slot bit
  total (byteRegisterRoutes.map (fun route => argument route.1 * beforeCpuBit row lane route.2 bit) ++
    [argument 6 * busBit] ++ (if width = 4 then [argument 8 * busBit] else []))

/-- A bit of the selected byte destination: a register or the event in `slot`. -/
def selectedPrimaryDestinationBit (row : Row R) (lane argumentStart width slot bit : ℕ) : R :=
  let argument := argumentSelector row lane argumentStart width
  total (byteRegisterRoutes.map (fun route => argument route.1 * afterCpuBit row lane route.2 bit) ++
    [argument 6 * busValueBit row lane slot bit])

/-- A bit of the selected register pair. -/
def selectedWordBit (row : Row R) (lane bit : ℕ) : R :=
  total (wordRegisterRoutes.map (fun route => argumentZero row lane route.1 *
      (if bit < 8 then beforeCpuBit row lane route.2.2 bit
        else beforeCpuBit row lane route.2.1 (bit - 8))) ++
    [argumentZero row lane 3 * beforeSpBit row lane bit])

/-- An input bit of the second operand byte. -/
def secondByteInputBit (row : Row R) (lane : ℕ) (selectors : LookupSelectors R) (bit : ℕ) : R :=
  let operationBit := isa row lane (isaArgumentZeroBitsStart + bit)
  let rotates := selectors.rotateAccumulator + selectors.cbRotate
  total ([selectors.addHl * selectedWordBit row lane bit +
      selectors.signedSp * laneColumn row lane (immediateLowBits + bit) +
      selectors.alu * selectedPrimaryOperandBit row lane isaArgumentOneBitsStart 4 1 bit] ++
    (if bit = 0 then
      [(selectors.increment + selectors.decrement) * beforeFlagBit row lane 0] else []) ++
    (if bit < 3 then [rotates * operationBit,
      (selectors.testBit + selectors.resetBit + selectors.setBit) * operationBit] else []) ++
    (if bit = 3 then [rotates * beforeFlagBit row lane 0,
      selectors.testBit * beforeFlagBit row lane 0] else []) ++
    (if bit = 4 then [selectors.cbRotate] else []) ++
    (if bit < 4 then [selectors.decimalAdjust * beforeFlagBit row lane bit] else []))

/-- An input bit of the first query. -/
def firstInputBit (row : Row R) (lane : ℕ) (selectors : LookupSelectors R) (bit : ℕ) : R :=
  if bit < 8 then
    total ([selectors.addHl * beforeCpuBit row lane stateL bit +
        selectors.signedSp * beforeSpBit row lane bit +
        selectors.alu * beforeCpuBit row lane stateA bit +
        (selectors.increment + selectors.decrement) *
          selectedPrimaryOperandBit row lane isaArgumentZeroBitsStart 3 1 bit +
        selectors.rotateAccumulator * beforeCpuBit row lane stateA bit +
        selectors.decimalAdjust * beforeCpuBit row lane stateA bit +
        selectors.cb * selectedPrimaryOperandBit row lane isaArgumentOneBitsStart 4 2 bit] ++
      (if bit < 4 then [selectors.conditional * beforeFlagBit row lane bit]
        else if bit = 4 then [conditionCodeBit row lane 0 selectors.conditional]
        else if bit = 5 then [conditionCodeBit row lane 1 selectors.conditional] else []))
  else if bit < 16 then secondByteInputBit row lane selectors (bit - 8)
  else selectors.alu * (argumentZero row lane 1 + argumentZero row lane 3) *
    beforeFlagBit row lane 0

/-- An input bit of the second query, which continues the word with the carry of the first. -/
def secondInputBit (row : Row R) (lane : ℕ) (selectors : LookupSelectors R) (bit : ℕ) : R :=
  if bit < 8 then
    selectors.addHl * beforeCpuBit row lane stateH bit +
      selectors.signedSp * beforeSpBit row lane (bit + 8)
  else if bit < 16 then
    selectors.addHl * selectedWordBit row lane bit +
      selectors.signedSp * laneColumn row lane (immediateLowBits + 7)
  else (selectors.addHl + selectors.signedSp) * lookupOutputBit row lane 0 outputCarryBit

/-- A bit of the word that ADD SP,e and LD HL,SP+e produce. -/
def signedDestinationBit (row : Row R) (lane bit : ℕ) : R :=
  operationSelector row lane 22 * afterSpBit row lane bit + operationSelector row lane 23 *
    (if bit < 8 then afterCpuBit row lane stateL bit else afterCpuBit row lane stateH (bit - 8))

/-- The result bytes of the queries are the destination bytes. -/
def constrainResultBytes (row : Row R) (lane : ℕ) (selectors : LookupSelectors R) : List R :=
  let aluWrite := selectors.alu * (((1 : ℕ) : R) - argumentZero row lane 7)
  let primaryWrite := selectors.increment + selectors.decrement
  let cbWrite := selectors.cbRotate + selectors.resetBit + selectors.setBit
  (List.range 8).flatMap (fun bit =>
    let first := lookupOutputBit row lane 0 bit
    let second := lookupOutputBit row lane 1 bit
    [primaryWrite * (first -
          selectedPrimaryDestinationBit row lane isaArgumentZeroBitsStart 3 2 bit) +
        (selectors.rotateAccumulator + selectors.decimalAdjust + aluWrite) *
          (first - afterCpuBit row lane stateA bit) +
        cbWrite * (first -
          selectedPrimaryDestinationBit row lane isaArgumentOneBitsStart 4 3 bit) +
        selectors.addHl * (first - afterCpuBit row lane stateL bit) +
        selectors.signedSp * (first - signedDestinationBit row lane bit),
      selectors.addHl * (second - afterCpuBit row lane stateH bit) +
        selectors.signedSp * (second - signedDestinationBit row lane (bit + 8))])

/-- The flag outputs of the queries are the flags after the lane. -/
def constrainResultFlags (row : Row R) (lane : ℕ) (selectors : LookupSelectors R) : List R :=
  let singleFlags := selectors.increment + selectors.decrement + selectors.rotateAccumulator +
    selectors.decimalAdjust + selectors.alu + selectors.cbRotate + selectors.testBit
  let first := lookupOutputBit row lane 0
  let second := lookupOutputBit row lane 1
  let flag := afterFlagBit row lane
  (List.range 4).map (fun bit => singleFlags * (first (outputCarryBit + bit) - flag bit)) ++
    [selectors.addHl * (second outputCarryBit - flag 0),
      selectors.addHl * (second outputHalfCarryBit - flag 1),
      selectors.addHl * flag 2,
      selectors.addHl * (flag 3 - beforeFlagBit row lane 3),
      selectors.signedSp * (first outputCarryBit - flag 0),
      selectors.signedSp * (first outputHalfCarryBit - flag 1),
      selectors.signedSp * flag 2,
      selectors.signedSp * flag 3]

/-- The glue between the queries of a lane and its state. -/
def constrainExecutionLookupGlue (row : Row R) (lane : ℕ) : List R :=
  let selectors := lookupSelectors row lane
  (List.range inputBitCount).flatMap (fun bit =>
      [firstInputSelector row lane selectors bit * lookupAddressBit row lane 0 bit -
          firstInputBit row lane selectors bit,
        (selectors.addHl + selectors.signedSp) * lookupAddressBit row lane 1 bit -
          secondInputBit row lane selectors bit]) ++
    constrainResultBytes row lane selectors ++
    constrainResultFlags row lane selectors ++
    [selectors.conditional * (lookupOutputBit row lane 0 0 - branchTaken row lane)]

section Map

variable {S : Type*} [Add S] [Sub S] [Mul S] [NatCast S] (φ : ArithHom R S)

@[simp] theorem map_beforeFlagBit (row : Row R) (lane bit : ℕ) :
    φ (beforeFlagBit row lane bit) = beforeFlagBit (φ.row row) lane bit := rfl

@[simp] theorem map_afterFlagBit (row : Row R) (lane bit : ℕ) :
    φ (afterFlagBit row lane bit) = afterFlagBit (φ.row row) lane bit := rfl

/-- The image of the lookup selectors, field by field. -/
def LookupSelectors.map (selectors : LookupSelectors R) : LookupSelectors S where
  addHl := φ selectors.addHl
  increment := φ selectors.increment
  decrement := φ selectors.decrement
  rotateAccumulator := φ selectors.rotateAccumulator
  decimalAdjust := φ selectors.decimalAdjust
  alu := φ selectors.alu
  signedSp := φ selectors.signedSp
  conditional := φ selectors.conditional
  cbRotate := φ selectors.cbRotate
  testBit := φ selectors.testBit
  resetBit := φ selectors.resetBit
  setBit := φ selectors.setBit

theorem map_lookupSelectors (row : Row R) (lane : ℕ) :
    (lookupSelectors row lane).map φ = lookupSelectors (φ.row row) lane := by
  simp [lookupSelectors, LookupSelectors.map]

@[simp] theorem map_firstInputSelector (row : Row R) (lane : ℕ) (selectors : LookupSelectors R)
    (bit : ℕ) :
    φ (firstInputSelector row lane selectors bit) =
      firstInputSelector (φ.row row) lane (selectors.map φ) bit := by
  simp [firstInputSelector, LookupSelectors.map, apply_ite φ, apply_ite (List.map φ.toFun)]

@[simp] theorem map_conditionCodeBit (row : Row R) (lane bit : ℕ) (selected : R) :
    φ (conditionCodeBit row lane bit selected) =
      conditionCodeBit (φ.row row) lane bit (φ selected) := by
  simp [conditionCodeBit, apply_ite φ]

@[simp] theorem map_selectedPrimaryOperandBit (row : Row R) (lane argumentStart width slot bit : ℕ) :
    φ (selectedPrimaryOperandBit row lane argumentStart width slot bit) =
      selectedPrimaryOperandBit (φ.row row) lane argumentStart width slot bit := by
  simp [selectedPrimaryOperandBit, apply_ite (List.map φ.toFun), Function.comp_def]

@[simp] theorem map_selectedPrimaryDestinationBit (row : Row R)
    (lane argumentStart width slot bit : ℕ) :
    φ (selectedPrimaryDestinationBit row lane argumentStart width slot bit) =
      selectedPrimaryDestinationBit (φ.row row) lane argumentStart width slot bit := by
  simp [selectedPrimaryDestinationBit, Function.comp_def]

@[simp] theorem map_selectedWordBit (row : Row R) (lane bit : ℕ) :
    φ (selectedWordBit row lane bit) = selectedWordBit (φ.row row) lane bit := by
  simp [selectedWordBit, apply_ite φ, Function.comp_def]

@[simp] theorem map_secondByteInputBit (row : Row R) (lane : ℕ) (selectors : LookupSelectors R)
    (bit : ℕ) :
    φ (secondByteInputBit row lane selectors bit) =
      secondByteInputBit (φ.row row) lane (selectors.map φ) bit := by
  simp [secondByteInputBit, LookupSelectors.map, apply_ite (List.map φ.toFun)]

@[simp] theorem map_firstInputBit (row : Row R) (lane : ℕ) (selectors : LookupSelectors R)
    (bit : ℕ) :
    φ (firstInputBit row lane selectors bit) =
      firstInputBit (φ.row row) lane (selectors.map φ) bit := by
  simp [firstInputBit, LookupSelectors.cb, LookupSelectors.map, apply_ite φ,
    apply_ite (List.map φ.toFun)]

@[simp] theorem map_secondInputBit (row : Row R) (lane : ℕ) (selectors : LookupSelectors R)
    (bit : ℕ) :
    φ (secondInputBit row lane selectors bit) =
      secondInputBit (φ.row row) lane (selectors.map φ) bit := by
  simp [secondInputBit, LookupSelectors.map, apply_ite φ]

@[simp] theorem map_signedDestinationBit (row : Row R) (lane bit : ℕ) :
    φ (signedDestinationBit row lane bit) = signedDestinationBit (φ.row row) lane bit := by
  simp [signedDestinationBit, apply_ite φ]

@[simp] theorem map_constrainResultBytes (row : Row R) (lane : ℕ) (selectors : LookupSelectors R) :
    (constrainResultBytes row lane selectors).map φ =
      constrainResultBytes (φ.row row) lane (selectors.map φ) := by
  simp [constrainResultBytes, LookupSelectors.map, List.map_flatMap]

@[simp] theorem map_constrainResultFlags (row : Row R) (lane : ℕ) (selectors : LookupSelectors R) :
    (constrainResultFlags row lane selectors).map φ =
      constrainResultFlags (φ.row row) lane (selectors.map φ) := by
  simp [constrainResultFlags, LookupSelectors.map, Function.comp_def]

@[simp] theorem map_constrainExecutionLookupGlue (row : Row R) (lane : ℕ) :
    (constrainExecutionLookupGlue row lane).map φ =
      constrainExecutionLookupGlue (φ.row row) lane := by
  simp only [constrainExecutionLookupGlue, ← map_lookupSelectors φ]
  simp [LookupSelectors.map, List.map_flatMap]

end Map

end PackedLane

end Zksm83
