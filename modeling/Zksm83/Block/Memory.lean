import Zksm83.Block.RegisterWrite

/-!
# Mutable-memory chronology and log cursors of packed blocks

Each bus slot that carries a memory event names a predecessor timestamp and the distance to it, both
as 17 columns, and the row index is committed as 14 bits. Input and output events carry the log
cursor that the events before them leave. After `block_memory.rs`.
-/

namespace Zksm83

open Constraint BlockMetadata BlockBoundary BlockBus BlockFrontend

abbrev uniformNumVariables : ℕ := 14
abbrev traceMemoryTimestampBits : ℕ := 17

namespace BlockMemory

abbrev memoryKindCodes : List ℕ := [4, 5, 14, 15, 17, 18]
abbrev memoryWriteKindCodes : List ℕ := [5, 18]
abbrev inputKindCodes : List ℕ := [6, 13]
abbrev outputKindCodes : List ℕ := [7]

abbrev rowBitsStart : ℕ := 0
abbrev slotsStart : ℕ := rowBitsStart + uniformNumVariables
abbrev slotSelectorOffset : ℕ := 0
abbrev slotWriteSelectorOffset : ℕ := 1
abbrev slotPredecessorBitsOffset : ℕ := 2
abbrev slotDeltaBitsOffset : ℕ := slotPredecessorBitsOffset + traceMemoryTimestampBits
abbrev slotWidth : ℕ := slotDeltaBitsOffset + traceMemoryTimestampBits
abbrev logSelectorsStart : ℕ := slotsStart + basicBlockBusEventBound * slotWidth
abbrev logSelectorWidth : ℕ := 2
abbrev logInputSelectorOffset : ℕ := 0
abbrev logOutputSelectorOffset : ℕ := 1
abbrev blockMemoryAuxColumnCount : ℕ :=
  logSelectorsStart + basicBlockBusEventBound * logSelectorWidth
abbrev memoryPhysicalAddressBits : ℕ := traceMemoryTimestampBits

abbrev blockMemoryAuxStart : ℕ := BlockDevicePpuMmio.columnCount

abbrev columnCount : ℕ := BlockDevicePpuMmio.columnCount + blockMemoryAuxColumnCount

/-- First memory column of a slot. -/
def slotStart (slot : ℕ) : ℕ := slotsStart + slot * slotWidth

/-- First log column of a slot. -/
def logSelectorStart (slot : ℕ) : ℕ := logSelectorsStart + slot * logSelectorWidth

variable {R : Type*}

/-- The memory columns of a row. -/
def memoryPlane (row : Row R) : Row R := slice row blockMemoryAuxStart

/-- Whether a slot carries a memory event. -/
def memorySelectorValue (row : Row R) (slot : ℕ) : R :=
  memoryPlane row (slotStart slot + slotSelectorOffset)

/-- Whether a slot carries a memory write. -/
def memoryWriteSelectorValue (row : Row R) (slot : ℕ) : R :=
  memoryPlane row (slotStart slot + slotWriteSelectorOffset)

/-- A column of a slot's predecessor timestamp. -/
def memoryPredecessorBit (row : Row R) (slot bit : ℕ) : R :=
  memoryPlane row (slotStart slot + slotPredecessorBitsOffset + bit)

/-- A column of a slot's distance to its predecessor. -/
def memoryDeltaBit (row : Row R) (slot bit : ℕ) : R :=
  memoryPlane row (slotStart slot + slotDeltaBitsOffset + bit)

variable [Add R] [Sub R] [Mul R] [NatCast R]

/-- The committed row index. -/
def memoryRowIndexValue (row : Row R) : R :=
  packedBits (memoryPlane row) rowBitsStart uniformNumVariables

/-- The predecessor timestamp of a slot. -/
def memoryPredecessorValue (row : Row R) (slot : ℕ) : R :=
  packedBits (memoryPlane row) (slotStart slot + slotPredecessorBitsOffset)
    traceMemoryTimestampBits

/-- The distance of a slot to its predecessor, less one. -/
def memoryDeltaValue (row : Row R) (slot : ℕ) : R :=
  packedBits (memoryPlane row) (slotStart slot + slotDeltaBitsOffset) traceMemoryTimestampBits

/-- The timestamp of a slot of the row with index `rowIndex`. -/
def currentTimestamp (rowIndex : R) (slot : ℕ) : R :=
  rowIndex * (basicBlockBusEventBound : R) + ((slot + 1 : ℕ) : R)

/-- The memory constraints of one slot. -/
def constrainMemorySlot (bus auxiliary : Row R) (rowIndex : R) (slot : ℕ) : List R :=
  let one : R := ((1 : ℕ) : R)
  let start := slotStart slot
  let selected := auxiliary (start + slotSelectorOffset)
  let write := auxiliary (start + slotWriteSelectorOffset)
  let predecessor := packedBits auxiliary (start + slotPredecessorBitsOffset)
    traceMemoryTimestampBits
  let delta := packedBits auxiliary (start + slotDeltaBitsOffset) traceMemoryTimestampBits
  [boolean selected, boolean write, selected - kindSelectorSum bus slot memoryKindCodes,
    write - kindSelectorSum bus slot memoryWriteKindCodes] ++
    (List.range traceMemoryTimestampBits).flatMap (fun bit =>
      [(one - selected) * auxiliary (start + slotPredecessorBitsOffset + bit),
        (one - selected) * auxiliary (start + slotDeltaBitsOffset + bit)]) ++
    [selected * (currentTimestamp rowIndex slot - predecessor - delta - one)] ++
    (List.range' memoryPhysicalAddressBits (romAddressBitCount - memoryPhysicalAddressBits)).map
      (fun bit => selected * slotPhysicalAddressBit bus slot bit)

/-- The selector of an input event of a slot. -/
def logInput (auxiliary : Row R) (slot : ℕ) : R :=
  auxiliary (logSelectorStart slot + logInputSelectorOffset)

/-- The selector of an output event of a slot. -/
def logOutput (auxiliary : Row R) (slot : ℕ) : R :=
  auxiliary (logSelectorStart slot + logOutputSelectorOffset)

/-- The log constraints of one slot. -/
def constrainLogSlot (bus auxiliary : Row R) (expectedInput expectedOutput : R) (slot : ℕ) :
    List R :=
  let input := logInput auxiliary slot
  let output := logOutput auxiliary slot
  let eventIndex := slotIndexValue bus slot
  [boolean input, boolean output, input - kindSelectorSum bus slot inputKindCodes,
    output - kindSelectorSum bus slot outputKindCodes,
    input * (eventIndex - expectedInput), output * (eventIndex - expectedOutput)]

/-- The memory and log constraints of a row. -/
def constrainMemory (ppu auxiliary : Row R) : List R :=
  let bus := busPlane ppu
  let boundary := boundaryPlane ppu
  let rowIndex := packedBits auxiliary rowBitsStart uniformNumVariables
  let initialInput := localStateValue boundary 0 stateInputNext
  let initialOutput := localStateValue boundary 0 stateOutputNext
  (List.range uniformNumVariables).map (fun bit => boolean (auxiliary (rowBitsStart + bit))) ++
    (List.range basicBlockBusEventBound).flatMap (fun slot =>
      constrainMemorySlot bus auxiliary rowIndex slot ++
        constrainLogSlot bus auxiliary (initialInput + totalOver slot (logInput auxiliary))
          (initialOutput + totalOver slot (logOutput auxiliary)) slot)

/-- PPU register relation plus memory chronology: the relation of `BlockMemoryRelation`. -/
def evaluate (row : Row R) : List R :=
  BlockDevicePpuMmio.evaluate row ++ constrainMemory row (memoryPlane row)

variable {S : Type*} [Add S] [Sub S] [Mul S] [NatCast S] (φ : ArithHom R S)

@[simp] theorem row_memoryPlane (row : Row R) :
    φ.row (memoryPlane row) = memoryPlane (φ.row row) := rfl

@[simp] theorem map_memorySelectorValue (row : Row R) (slot : ℕ) :
    φ (memorySelectorValue row slot) = memorySelectorValue (φ.row row) slot := rfl

@[simp] theorem map_memoryWriteSelectorValue (row : Row R) (slot : ℕ) :
    φ (memoryWriteSelectorValue row slot) = memoryWriteSelectorValue (φ.row row) slot := rfl

@[simp] theorem map_memoryRowIndexValue (row : Row R) :
    φ (memoryRowIndexValue row) = memoryRowIndexValue (φ.row row) := by
  simp [memoryRowIndexValue]

@[simp] theorem map_memoryPredecessorValue (row : Row R) (slot : ℕ) :
    φ (memoryPredecessorValue row slot) = memoryPredecessorValue (φ.row row) slot := by
  simp [memoryPredecessorValue]

@[simp] theorem map_memoryDeltaValue (row : Row R) (slot : ℕ) :
    φ (memoryDeltaValue row slot) = memoryDeltaValue (φ.row row) slot := by
  simp [memoryDeltaValue]

@[simp] theorem map_currentTimestamp (rowIndex : R) (slot : ℕ) :
    φ (currentTimestamp rowIndex slot) = currentTimestamp (φ rowIndex) slot := by
  simp [currentTimestamp]

@[simp] theorem map_logInput (auxiliary : Row R) (slot : ℕ) :
    φ (logInput auxiliary slot) = logInput (φ.row auxiliary) slot := rfl

@[simp] theorem map_logOutput (auxiliary : Row R) (slot : ℕ) :
    φ (logOutput auxiliary slot) = logOutput (φ.row auxiliary) slot := rfl

@[simp] theorem map_constrainMemorySlot (bus auxiliary : Row R) (rowIndex : R) (slot : ℕ) :
    (constrainMemorySlot bus auxiliary rowIndex slot).map φ =
      constrainMemorySlot (φ.row bus) (φ.row auxiliary) (φ rowIndex) slot := by
  simp [constrainMemorySlot, List.map_flatMap, Function.comp_def]

@[simp] theorem map_constrainLogSlot (bus auxiliary : Row R) (expectedInput expectedOutput : R)
    (slot : ℕ) :
    (constrainLogSlot bus auxiliary expectedInput expectedOutput slot).map φ =
      constrainLogSlot (φ.row bus) (φ.row auxiliary) (φ expectedInput) (φ expectedOutput) slot := by
  simp [constrainLogSlot]

@[simp] theorem map_constrainMemory (ppu auxiliary : Row R) :
    (constrainMemory ppu auxiliary).map φ = constrainMemory (φ.row ppu) (φ.row auxiliary) := by
  simp [constrainMemory, List.map_flatMap, Function.comp_def]

@[simp] theorem map_evaluate (row : Row R) : (evaluate row).map φ = evaluate (φ.row row) := by
  simp [evaluate]

end BlockMemory

end Zksm83
