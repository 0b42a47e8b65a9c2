import Zksm83.NativeField
import Zksm83.Library.Bits
import Zksm83.Cpu.Relation
import Zksm83.Isa.Table

/-!
# Rows written down by hand

A row of the native field is written as an assignment of its nonzero columns and is checked by
evaluating the constraints over residues. The two rows below satisfy `BlockCpuRelation`, and no run
of the machine has them. They are used to show what the relation does not bind.
-/

namespace Zksm83

open Constraint
open IsaTable (bitList)

namespace Forgery

/-- The row of an assignment over the native field, `128` bits to a column. -/
def nativeRow (number : ℕ) : Row NativeField :=
  (Residue.toZMod fieldModulus).row (Assignment.residueRow fieldModulus 128 number)

/-- A row satisfies the relation if its constraints vanish over residues. -/
theorem holds_nativeRow {number : ℕ}
    (hzero : Residue.allZero
      (BlockCpu.evaluate (Assignment.residueRow fieldModulus 128 number)) = true) :
    Holds (BlockCpu.evaluate (nativeRow number)) := by
  have hinverses := Residue.toZMod_keepsInverses fieldModulus (by norm_num)
  rw [nativeRow, ← BlockCpu.map_evaluate hinverses]
  exact Residue.holds_of_allZero hzero

/-- A column of a written row. -/
theorem nativeRow_eq {number column n : ℕ}
    (h : (Assignment.residueRow fieldModulus 128 number column).val = n) :
    nativeRow number column = (n : NativeField) := by
  rw [← h]
  rfl

/-- The number that some columns of a written row spell. -/
theorem columnsNat_nativeRow {number start : ℕ} (width value : ℕ) (hvalue : value < 2 ^ width)
    (h : ∀ bit < width, (Assignment.residueRow fieldModulus 128 number (start + bit)).val =
      value / 2 ^ bit % 2) :
    columnsNat (nativeRow number) start width = value := by
  rw [columnsNat, List.map_congr_left (g := fun bit => ((value / 2 ^ bit % 2 : ℕ) : NativeField))]
  · exact bitsNat_natBits width value hvalue
  · intro bit hbit
    exact nativeRow_eq (h bit (List.mem_range.mp hbit))

abbrev boundaryStart : ℕ := BlockRouting.columnCount
abbrev isaStart : ℕ := BlockControl.columnCount
abbrev busStart : ℕ := BlockIsaControl.columnCount

/-- The metadata columns of the four planes that repeat them. -/
def metadataCells (values : List ℕ) : Assignment :=
  [0, boundaryStart, isaStart, busStart].map (fun start => (start, values))

/-- The local scalars at a boundary. -/
def localCells (boundary : ℕ) (values : List ℕ) : Assignment :=
  [(boundaryStart + BlockBoundary.localStateColumn boundary 0, values)]

/-- The device scalars before and after the block. -/
def deviceCells (before after : List ℕ) : Assignment :=
  [(boundaryStart + BlockBoundary.deviceBeforeStart, before),
    (boundaryStart + BlockBoundary.deviceAfterStart, after)]

/-- The ISA queries of the lanes: the address and the outputs of the fixed table. -/
def isaCells (addresses : List ℕ) : Assignment :=
  addresses.zipIdx.map (fun entry =>
    (isaStart + BlockIsa.laneStart entry.2,
      bitList entry.1 isaAddressBitCount ++ IsaTable.outputs entry.1))

/-- An active bus slot with its decompositions. -/
def busCells (slot kind address physical value : ℕ) : Assignment :=
  [(busStart + BlockBus.slotStart slot,
      [1] ++ bitList kind traceBusKindBits ++ [address, physical, 0, 0, value, 0]),
    (busStart + BlockBus.addressBitsStart + slot * 16, bitList address 16),
    (busStart + BlockBus.physicalBitsStart + slot * romAddressBitCount,
      bitList physical romAddressBitCount),
    (busStart + BlockBus.valueBitsStart + slot * 8, bitList value 8)]

/-- Device columns of a block with the LCD, serial port, timer and DMA off and IF = 1 on both
sides. -/
def idleDeviceCells : Assignment :=
  [(BlockDevicePpu.ppuAuxStart + BlockDevicePpu.beforeLineSlackBitsStart,
      bitList 153 8 ++ bitList 455 9 ++ bitList 153 8 ++ bitList 455 9),
    (BlockDeviceSerial.serialAuxStart + BlockDeviceSerial.beforeZeroProductsStart,
      bitList 0xfff 12 ++ bitList 0xfff 12),
    (BlockDeviceSerial.serialAuxStart + BlockDeviceSerial.beforeIfBitsStart,
      bitList 1 5 ++ bitList 1 5),
    (BlockDevicePpuInterrupt.ppuInterruptAuxStart + BlockDevicePpuInterrupt.stateCoincidence,
      [1, 0] ++ bitList 0xff 8),
    (BlockDevicePpuInterrupt.ppuInterruptAuxStart + BlockDevicePpuInterrupt.stateWidth +
      BlockDevicePpuInterrupt.stateCoincidence, [1, 0] ++ bitList 0xff 8),
    (BlockDeviceDma.dmaAuxStart + BlockDeviceDma.beforeIndexSlackBitsStart,
      bitList 160 8 ++ bitList 160 8 ++ bitList 6 3 ++ bitList 6 3 ++ bitList 0x1f 8 ++
        bitList 0x1f 8),
    (BlockDeviceJoypad.joypadAuxStart + BlockDeviceJoypad.beforeVisibleBitsStart,
      bitList 0xf 4 ++ bitList 0xf 4),
    (BlockDeviceJoypad.joypadAuxStart + BlockDeviceJoypad.fallingClearPrefixStart, bitList 0xf 4)]

/-- The CPU state around the forged load: HL = 0xc000, IME enabled, profile 4. -/
def loadState (a pc cycles : ℕ) : List ℕ :=
  [a, 0, 0, 0, 0, 0xc0, 0, 0, pc, 0xfffe, 2, 0, cycles, 0, 1, 0, 0, 0, 0, 0, 4]

/-- The bit columns of that state. -/
def loadStateBits (a pc : ℕ) : List ℕ :=
  bitList a 8 ++ bitList 0 32 ++ bitList 0xc0 8 ++ bitList 0 16 ++ bitList pc 16 ++
    bitList 0xfffe 16 ++ bitList 1 6 ++ bitList 0 4

/-- One lane that executes `LD A,(HL)` at PC = 0x0100 with IF = IE = 1 and IME enabled. Its first
event is a memory read of the opcode byte at the program counter with physical address 0x1234, its
second event an opcode fetch at 0x1111 of the byte that is loaded. The first event names the
predecessor 5, though it has timestamp 1. -/
def loadCells : Assignment :=
  metadataCells [1, 1, 1, 0, 0, 0] ++
    [(BlockRouting.cycleOwnerStart, [1, 0, 0, 0, 1]),
      (BlockRouting.busOwnerStart, [1, 0, 0, 0, 1])] ++
    localCells 0 (loadState 0 0x100 0) ++
    [1, 2, 3, 4].flatMap (fun boundary => localCells boundary (loadState 0x42 0x101 2)) ++
    deviceCells [1, 1] [1, 1, 0, 0, 0, 0, 8] ++
    isaCells [0x7e, isaPaddingAddress, isaPaddingAddress, isaPaddingAddress] ++
    busCells 0 4 0x100 0x1234 0x7e ++ busCells 1 14 0x1111 0x1111 0x42 ++ idleDeviceCells ++
    [(BlockDeviceTimer.timerAuxStart + BlockDeviceTimer.afterDivBitsStart, bitList 8 16),
      (BlockDeviceTimerCore.timerCoreAuxStart, [1])] ++
    (List.range TimerStage.timerTickBound).map (fun tick =>
      (BlockDeviceTimerCore.sharedTimerStageColumnStart + tick * TimerStage.stageWidth,
        bitList (min (tick + 1) 8) 16)) ++
    [(BlockDevicePpuInterrupt.ppuInterruptAuxStart +
        BlockDevicePpuInterrupt.finalPendingClearPrefixStart, bitList 0x1f 5),
      (BlockMemory.blockMemoryAuxStart + BlockMemory.slotStart 0, [1, 0, 5]),
      (BlockMemory.blockMemoryAuxStart + BlockMemory.slotStart 0 + BlockMemory.slotDeltaBitsOffset,
        [fieldModulus - 5]),
      (BlockMemory.blockMemoryAuxStart + BlockMemory.slotStart 1, [1, 0, 1]),
      (PackedLane.packedCpuAuxStart, loadStateBits 0 0x100)] ++
    [1, 2, 3, 4].map (fun boundary =>
      (PackedLane.packedCpuAuxStart + boundary * PackedLane.cpuBoundaryAuxColumnCount,
        loadStateBits 0x42 0x101)) ++
    [(PackedLane.packedCpuAuxStart +
        PackedLane.cpuSharedBoundaryCount * PackedLane.cpuBoundaryAuxColumnCount,
        bitList 0x42 8 ++ bitList 0 16 ++ bitList 0x101 16),
      (PackedLane.packedCpuAuxStart + PackedLane.packedCpuBusMatchOffset 0 0 0, [1]),
      (PackedLane.packedCpuAuxStart + PackedLane.packedCpuBusMatchOffset 0 1 1, [1])]

def loadNumber : ℕ := Assignment.packed 128 loadCells

/-- The forged load over residues. -/
def loadResidues : Row (Residue fieldModulus) :=
  Assignment.residueRow fieldModulus 128 loadNumber

/-- The forged load. -/
def loadRow : Row NativeField := nativeRow loadNumber

/-- The CPU state around the forged wake-up. -/
def wakeState (runState : ℕ) : List ℕ :=
  [0, 0, 0, 0, 0, 0xc0, 0, 0, 0x100, 0xfffe, 0, runState, 0, 0, 1, 0, 0, 0, 0, 0, 4]

/-- A HALT wake with IF = IE = 1 that also changes the timer counter from 0 to 7. -/
def wakeCells : Assignment :=
  metadataCells [1, 0, 0, 0, 0, 0] ++ localCells 0 (wakeState 1) ++ localCells 4 (wakeState 0) ++
    deviceCells [1, 1] [1, 1, 0, 0, 0, 0, 0, 7] ++
    isaCells [isaPaddingAddress, isaPaddingAddress, isaPaddingAddress, isaPaddingAddress] ++
    [(BlockMachine.machineAuxStart + BlockMachine.haltWakeMode, [1]),
      (BlockMachine.machineAuxStart + BlockMachine.beforeIfBitsStart,
        bitList 1 5 ++ bitList 1 5 ++ bitList 0x100 16 ++ bitList 0xfffe 16)] ++ idleDeviceCells

def wakeNumber : ℕ := Assignment.packed 128 wakeCells

/-- The forged wake-up over residues. -/
def wakeResidues : Row (Residue fieldModulus) :=
  Assignment.residueRow fieldModulus 128 wakeNumber

/-- The forged wake-up. -/
def wakeRow : Row NativeField := nativeRow wakeNumber

/-- What is read off the columns of the forged load. -/
structure LoadReading : Prop where
  lane : (BlockMetadata.laneValue loadResidues 0).val = 1
  opcode : ∀ bit < 9, (PackedLane.isaAddressBit loadResidues 0 bit).val = 0x7e / 2 ^ bit % 2
  outputs : ∀ output < isaOutputCount, (PackedLane.isa loadResidues 0 output).val =
    (IsaTable.outputs 0x7e).getD output 0
  owners : ∀ slot < basicBlockBusEventBound,
    (BlockRouting.busOwnerValue loadResidues slot 0).val = if slot < 2 then 1 else 0
  kinds : ∀ slot < 2, ∀ bit < 5,
    (loadResidues (busStart + (BlockBus.slotStart slot + 1) + bit)).val =
      (if slot = 0 then 4 else 14) / 2 ^ bit % 2
  addresses : ∀ slot < 2, ∀ bit < 16,
    (loadResidues (busStart + (BlockBus.addressBitsStart + slot * 16) + bit)).val =
      (if slot = 0 then 0x100 else 0x1111) / 2 ^ bit % 2
  physical : ∀ bit < 20,
    (loadResidues (busStart + (BlockBus.physicalBitsStart + 0 * 20) + bit)).val =
      0x1234 / 2 ^ bit % 2
  hl : (BlockBoundary.localStateValue (BlockFrontend.boundaryPlane loadResidues) 0 5).val = 0xc0 ∧
    (BlockBoundary.localStateValue (BlockFrontend.boundaryPlane loadResidues) 0 6).val = 0
  selected : ∀ slot < 2, (BlockMemory.memorySelectorValue loadResidues slot).val = 1
  predecessor : (BlockMemory.memoryPredecessorValue loadResidues 0).val = 5
  rowIndex : (BlockMemory.memoryRowIndexValue loadResidues).val = 0

/-- What is read off the columns of the forged wake-up. -/
structure WakeReading : Prop where
  mode : (BlockMachine.modeValue (BlockMachine.machinePlane wakeResidues)
    BlockMachine.haltWakeMode).val = 1
  counterBefore : (BlockBoundary.deviceStateValue (BlockFrontend.boundaryPlane wakeResidues) false
    stateTimerCounter).val = 0
  counterAfter : (BlockBoundary.deviceStateValue (BlockFrontend.boundaryPlane wakeResidues) true
    stateTimerCounter).val = 7

/-- What is read off the forged load and the forged wake-up, and that both satisfy the packed CPU
relation. The kernel evaluates both rows in one declaration. -/
theorem forgedRows_read : (LoadReading ∧ WakeReading) ∧
    Holds (BlockCpu.evaluate loadRow) ∧ Holds (BlockCpu.evaluate wakeRow) :=
  ⟨⟨⟨by decide +kernel, by decide +kernel, by decide +kernel, by decide +kernel,
      by decide +kernel, by decide +kernel, by decide +kernel, by decide +kernel,
      by decide +kernel, by decide +kernel, by decide +kernel⟩,
    ⟨by decide +kernel, by decide +kernel, by decide +kernel⟩⟩,
    holds_nativeRow (BlockCpu.all_evaluate _ _ (by decide +kernel) (by decide +kernel)
      (by decide +kernel) (by decide +kernel) (by decide +kernel) (by decide +kernel)
      (by decide +kernel)),
    holds_nativeRow (BlockCpu.all_evaluate _ _ (by decide +kernel) (by decide +kernel)
      (by decide +kernel) (by decide +kernel) (by decide +kernel) (by decide +kernel)
      (by decide +kernel))⟩

theorem loadReading : LoadReading := forgedRows_read.1.1

theorem wakeReading : WakeReading := forgedRows_read.1.2

theorem loadRow_holds : Holds (BlockCpu.evaluate loadRow) := forgedRows_read.2.1

theorem wakeRow_holds : Holds (BlockCpu.evaluate wakeRow) := forgedRows_read.2.2

end Forgery

end Zksm83
