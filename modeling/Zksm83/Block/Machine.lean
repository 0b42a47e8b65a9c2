import Zksm83.Block.Frontend

/-!
# Machine modes of packed rows

A block without instructions is one machine event: HALT idling, a long HALT skip, a HALT wake, an
interrupt dispatch, or one byte of OAM DMA. The machine columns select the mode and decompose the
interrupt registers, the program counter and the stack pointer. The envelope relation adds the
device-I/O selector and the device scalars that only device I/O may change.
After `block_machine.rs` and `block_device.rs`.
-/

namespace Zksm83

open Constraint BlockMetadata BlockBoundary BlockBus BlockFrontend

namespace BlockMachine

abbrev machineAuxStart : ℕ := BlockFrontend.columnCount

abbrev haltIdleMode : ℕ := 0
abbrev haltUntilVBlankMode : ℕ := 1
abbrev haltWakeMode : ℕ := 2
abbrev interruptMode : ℕ := 3
abbrev dmaByteMode : ℕ := 4
abbrev haltUntilSerialMode : ℕ := 5
abbrev haltUntilTimerMode : ℕ := 6
abbrev machineModeCount : ℕ := 7

abbrev beforeIfBitsStart : ℕ := machineModeCount
abbrev beforeIeBitsStart : ℕ := beforeIfBitsStart + 5
abbrev beforePcBitsStart : ℕ := beforeIeBitsStart + 5
abbrev beforeSpBitsStart : ℕ := beforePcBitsStart + 16
abbrev interruptSourceStart : ℕ := beforeSpBitsStart + 16
abbrev pendingClearPrefixStart : ℕ := interruptSourceStart + 5
abbrev stackWrap : ℕ := pendingClearPrefixStart + 5
abbrev stackFirstWrap : ℕ := stackWrap + 1
abbrev shortCycleActiveStart : ℕ := stackFirstWrap + 1
abbrev machineAuxColumnCount : ℕ := shortCycleActiveStart + 6

abbrev columnCount : ℕ := BlockFrontend.columnCount + machineAuxColumnCount

abbrev memoryWriteKind : ℕ := 5
abbrev dmaSourceKindRom : ℕ := 16
abbrev dmaSourceKindMemory : ℕ := 17

variable {R : Type*}

/-- The machine columns of a row. -/
def machinePlane (row : Row R) : Row R := slice row machineAuxStart

/-- The selector of a machine mode. -/
def modeValue (auxiliary : Row R) (mode : ℕ) : R := auxiliary mode

variable [Add R] [Sub R] [Mul R] [NatCast R]

/-- The modes in which the CPU sleeps through device cycles. -/
def sleepingMode (auxiliary : Row R) : R :=
  modeValue auxiliary haltIdleMode + modeValue auxiliary haltUntilVBlankMode +
    modeValue auxiliary haltUntilSerialMode + modeValue auxiliary haltUntilTimerMode

/-- The step of a local scalar over the whole block. -/
def stateDelta (boundary : Row R) (scalar : ℕ) : R :=
  localStateValue boundary basicBlockInstructionBound scalar - localStateValue boundary 0 scalar

/-- Exactly one mode on machine rows, and the DMA mode exactly with a DMA source event. -/
def constrainModePartition (bus auxiliary : Row R) (machine : R) : List R :=
  [totalOver machineModeCount (modeValue auxiliary) - machine,
    modeValue auxiliary dmaByteMode -
      (slotKindSelector bus 0 dmaSourceKindRom + slotKindSelector bus 0 dmaSourceKindMemory)]

/-- The decompositions of IF, IE, PC and SP before a machine row. -/
def constrainMachineInputs (boundary auxiliary : Row R) (machine : R) : List R :=
  [machine * (deviceStateValue boundary false stateInterruptRequest -
      packedBits auxiliary beforeIfBitsStart 5),
    machine * (deviceStateValue boundary false stateInterruptEnable -
      packedBits auxiliary beforeIeBitsStart 5),
    machine * (localStateValue boundary 0 statePc - packedBits auxiliary beforePcBitsStart 16),
    machine * (localStateValue boundary 0 stateSp - packedBits auxiliary beforeSpBitsStart 16)]

/-- The pending product of an interrupt source. -/
def pendingValue (auxiliary : Row R) (bit : ℕ) : R :=
  auxiliary (beforeIfBitsStart + bit) * auxiliary (beforeIeBitsStart + bit)

/-- Whether no source before `bit` is pending: the machine flag, then the prefix columns. -/
def higherClear (auxiliary : Row R) (machine : R) : ℕ → R :=
  previous machine (fun bit => auxiliary (pendingClearPrefixStart + bit))

/-- The prefix of clear sources and the selection of the first pending source. -/
def constrainInterruptPriority (auxiliary : Row R) (machine : R) : List R :=
  let one : R := ((1 : ℕ) : R)
  let interrupt := modeValue auxiliary interruptMode
  (List.range 5).flatMap (fun bit =>
      [auxiliary (pendingClearPrefixStart + bit) -
          higherClear auxiliary machine bit * (one - pendingValue auxiliary bit),
        auxiliary (interruptSourceStart + bit) -
          interrupt * pendingValue auxiliary bit * higherClear auxiliary machine bit]) ++
    [totalOver 5 (fun bit => auxiliary (interruptSourceStart + bit)) - interrupt]

/-- The M-cycles of the zero-cycle, interrupt and idle modes. -/
def constrainMachineCycles (boundary auxiliary : Row R) : List R :=
  let increment := stateDelta boundary stateCpuMCycles
  [(modeValue auxiliary haltWakeMode + modeValue auxiliary dmaByteMode) * increment,
    modeValue auxiliary interruptMode * (increment - ((5 : ℕ) : R)),
    productFrom (modeValue auxiliary haltIdleMode)
      ((List.range 6).map (fun admitted => increment - ((admitted + 1 : ℕ) : R)))]

/-- Run state, IME and pending sources that each mode requires. -/
def constrainModeSelection (boundary auxiliary : Row R) : List R :=
  let one : R := ((1 : ℕ) : R)
  let beforeRun := localStateValue boundary 0 stateRunState
  let afterRun := localStateValue boundary basicBlockInstructionBound stateRunState
  let beforeIme := localStateValue boundary 0 stateIme
  let afterIme := localStateValue boundary basicBlockInstructionBound stateIme
  let interrupt := modeValue auxiliary interruptMode
  let nonePending := auxiliary (pendingClearPrefixStart + 4)
  let wake := modeValue auxiliary haltWakeMode
  let sleeping := sleepingMode auxiliary
  let vblank := modeValue auxiliary haltUntilVBlankMode
  [interrupt * beforeRun * (beforeRun - one) * (beforeRun - ((3 : ℕ) : R)),
    interrupt * (beforeIme - ((2 : ℕ) : R)),
    interrupt * afterIme,
    interrupt * afterRun,
    wake * (beforeRun - one),
    wake * afterRun,
    wake * beforeIme * (beforeIme - one),
    wake * nonePending,
    sleeping * (beforeRun - one),
    sleeping * (nonePending - one),
    vblank * (auxiliary beforeIeBitsStart - one),
    vblank * auxiliary (beforeIeBitsStart + 4),
    modeValue auxiliary haltUntilSerialMode * (auxiliary (beforeIeBitsStart + 3) - one),
    modeValue auxiliary haltUntilTimerMode * (auxiliary (beforeIeBitsStart + 2) - one)] ++
    constrainMachineCycles boundary auxiliary

/-- The unary cycle counter of idle and interrupt rows. -/
def constrainShortCycles (boundary auxiliary : Row R) : List R :=
  let one : R := ((1 : ℕ) : R)
  let active := fun cycle => auxiliary (shortCycleActiveStart + cycle)
  (List.range 5).map (fun cycle => (one - active cycle) * active (cycle + 1)) ++
    [totalOver 6 active -
      (modeValue auxiliary haltIdleMode + modeValue auxiliary interruptMode) *
        stateDelta boundary stateCpuMCycles]

/-- The interrupt vectors, lowest source first. -/
abbrev interruptVectors : List ℕ := [0x40, 0x48, 0x50, 0x58, 0x60]

/-- Vector, stack pointer, and the two pushes of an interrupt dispatch. -/
def constrainInterruptCpu (boundary bus auxiliary : Row R) (machine interrupt : R) : List R :=
  let one : R := ((1 : ℕ) : R)
  let vector := totalOver 5 (fun source =>
    auxiliary (interruptSourceStart + source) * ((interruptVectors.getD source 0 : ℕ) : R))
  let beforeSp := localStateValue boundary 0 stateSp
  let afterSp := localStateValue boundary basicBlockInstructionBound stateSp
  let wrap := auxiliary stackWrap
  let firstWrap := auxiliary stackFirstWrap
  [interrupt * (localStateValue boundary basicBlockInstructionBound statePc - vector),
    interrupt * (afterSp - beforeSp + ((2 : ℕ) : R) - ((65536 : ℕ) : R) * wrap),
    interrupt * (slotAddressValue bus 0 - beforeSp + one - ((65536 : ℕ) : R) * firstWrap),
    interrupt * (slotAddressValue bus 1 - beforeSp + ((2 : ℕ) : R) - ((65536 : ℕ) : R) * wrap),
    interrupt * (slotValueValue bus 0 - packedBits auxiliary (beforePcBitsStart + 8) 8),
    interrupt * (slotValueValue bus 1 - packedBits auxiliary beforePcBitsStart 8)] ++
    (List.range 2).map (fun slot =>
      machine * (slotKindSelector bus slot memoryWriteKind - interrupt)) ++
    (List.range (basicBlockBusEventBound - 2)).map (fun slot =>
      interrupt * slotActiveValue bus (slot + 2))

/-- The CPU registers that each mode leaves alone, and the interrupt dispatch. -/
def constrainCpu (boundary bus auxiliary : Row R) (machine : R) : List R :=
  let passive := sleepingMode auxiliary + modeValue auxiliary dmaByteMode
  let wake := modeValue auxiliary haltWakeMode
  let interrupt := modeValue auxiliary interruptMode
  (List.range stateCpuMCycles).map (fun state => passive * stateDelta boundary state) ++
    (List.range stateRunState).map (fun state => wake * stateDelta boundary state) ++
    (List.range statePc).map (fun state => interrupt * stateDelta boundary state) ++
    constrainInterruptCpu boundary bus auxiliary machine interrupt

/-- The local scalars that no machine event changes. -/
abbrev machineInvariants : List ℕ :=
  [13, 14, 15, stateInputNext, stateOutputNext, stateBusNext, stateIsaNext, stateMachineProfile]

/-- Mapper, cursors and profile stay, and the sleeping and waking modes use no bus. -/
def constrainNonCpuFlow (boundary bus auxiliary : Row R) (machine : R) : List R :=
  let busFree := sleepingMode auxiliary + modeValue auxiliary haltWakeMode
  machineInvariants.map (fun scalar => machine * stateDelta boundary scalar) ++
    (List.range basicBlockBusEventBound).map (fun slot => busFree * slotActiveValue bus slot)

/-- The machine constraints of a row over its front-end and machine columns. -/
def constrainMachine (frontend auxiliary : Row R) : List R :=
  let machine := blockActiveValue frontend - instructionValue frontend
  let boundary := boundaryPlane frontend
  let bus := busPlane frontend
  ownedBits machineAuxColumnCount auxiliary (fun _ => machine) ++
    constrainModePartition bus auxiliary machine ++
    constrainMachineInputs boundary auxiliary machine ++
    constrainInterruptPriority auxiliary machine ++
    constrainModeSelection boundary auxiliary ++
    constrainShortCycles boundary auxiliary ++
    constrainCpu boundary bus auxiliary machine ++
    constrainNonCpuFlow boundary bus auxiliary machine

/-- Flow relation plus machine constraints. -/
def evaluate (row : Row R) : List R :=
  BlockFlow.evaluate row ++ constrainMachine row (machinePlane row)

/-- Instruction, idle and interrupt rows: the devices advance by at most six M-cycles. -/
def shortDeviceClockedValue (row : Row R) : R :=
  instructionValue row + row (machineAuxStart + haltIdleMode) +
    row (machineAuxStart + interruptMode)

/-- Rows over which the devices advance. -/
def deviceClockedValue (row : Row R) : R :=
  shortDeviceClockedValue row + row (machineAuxStart + haltUntilVBlankMode) +
    row (machineAuxStart + haltUntilSerialMode) + row (machineAuxStart + haltUntilTimerMode)

omit [Add R] [Sub R] [Mul R] [NatCast R]

def haltIdleValue (row : Row R) : R := row (machineAuxStart + haltIdleMode)

def haltUntilVblankValue (row : Row R) : R := row (machineAuxStart + haltUntilVBlankMode)

def haltUntilSerialValue (row : Row R) : R := row (machineAuxStart + haltUntilSerialMode)

def haltUntilTimerValue (row : Row R) : R := row (machineAuxStart + haltUntilTimerMode)

/-- A bit of IE before a machine row. -/
def beforeInterruptEnableBitValue (row : Row R) (bit : ℕ) : R :=
  row (machineAuxStart + beforeIeBitsStart + bit)

/-- The unary cycle counter of idle and interrupt rows. -/
def shortCycleActiveValue (row : Row R) (cycle : ℕ) : R :=
  row (machineAuxStart + shortCycleActiveStart + cycle)

/-- Whether an interrupt row acknowledges source `bit`. -/
def interruptSourceValue (row : Row R) (bit : ℕ) : R :=
  row (machineAuxStart + interruptSourceStart + bit)

variable [Add R] [Sub R] [Mul R] [NatCast R]
variable {S : Type*} [Add S] [Sub S] [Mul S] [NatCast S] (φ : ArithHom R S)

@[simp] theorem row_machinePlane (row : Row R) :
    φ.row (machinePlane row) = machinePlane (φ.row row) := rfl

@[simp] theorem map_modeValue (auxiliary : Row R) (mode : ℕ) :
    φ (modeValue auxiliary mode) = modeValue (φ.row auxiliary) mode := rfl

@[simp] theorem map_stateDelta (boundary : Row R) (scalar : ℕ) :
    φ (stateDelta boundary scalar) = stateDelta (φ.row boundary) scalar := by
  simp [stateDelta]

@[simp] theorem map_sleepingMode (auxiliary : Row R) :
    φ (sleepingMode auxiliary) = sleepingMode (φ.row auxiliary) := by
  simp [sleepingMode]

@[simp] theorem map_higherClear (auxiliary : Row R) (machine : R) (bit : ℕ) :
    φ (higherClear auxiliary machine bit) = higherClear (φ.row auxiliary) (φ machine) bit := by
  simp [higherClear]

@[simp] theorem map_constrainInterruptPriority (auxiliary : Row R) (machine : R) :
    (constrainInterruptPriority auxiliary machine).map φ =
      constrainInterruptPriority (φ.row auxiliary) (φ machine) := by
  simp [constrainInterruptPriority, pendingValue, List.map_flatMap]

@[simp] theorem map_constrainModeSelection (boundary auxiliary : Row R) :
    (constrainModeSelection boundary auxiliary).map φ =
      constrainModeSelection (φ.row boundary) (φ.row auxiliary) := by
  simp [constrainModeSelection, constrainMachineCycles, Function.comp_def]

@[simp] theorem map_constrainShortCycles (boundary auxiliary : Row R) :
    (constrainShortCycles boundary auxiliary).map φ =
      constrainShortCycles (φ.row boundary) (φ.row auxiliary) := by
  simp [constrainShortCycles, Function.comp_def]

@[simp] theorem map_constrainCpu (boundary bus auxiliary : Row R) (machine : R) :
    (constrainCpu boundary bus auxiliary machine).map φ =
      constrainCpu (φ.row boundary) (φ.row bus) (φ.row auxiliary) (φ machine) := by
  simp [constrainCpu, constrainInterruptCpu, Function.comp_def]

@[simp] theorem map_constrainMachine (frontend auxiliary : Row R) :
    (constrainMachine frontend auxiliary).map φ =
      constrainMachine (φ.row frontend) (φ.row auxiliary) := by
  simp [constrainMachine, constrainModePartition, constrainMachineInputs, constrainNonCpuFlow,
    Function.comp_def]

@[simp] theorem map_evaluate (row : Row R) : (evaluate row).map φ = evaluate (φ.row row) := by
  simp [evaluate]

@[simp] theorem map_shortDeviceClockedValue (row : Row R) :
    φ (shortDeviceClockedValue row) = shortDeviceClockedValue (φ.row row) := by
  simp [shortDeviceClockedValue]

@[simp] theorem map_deviceClockedValue (row : Row R) :
    φ (deviceClockedValue row) = deviceClockedValue (φ.row row) := by
  simp [deviceClockedValue]

@[simp] theorem map_haltIdleValue (row : Row R) :
    φ (haltIdleValue row) = haltIdleValue (φ.row row) := rfl

@[simp] theorem map_haltUntilVblankValue (row : Row R) :
    φ (haltUntilVblankValue row) = haltUntilVblankValue (φ.row row) := rfl

@[simp] theorem map_haltUntilSerialValue (row : Row R) :
    φ (haltUntilSerialValue row) = haltUntilSerialValue (φ.row row) := rfl

@[simp] theorem map_haltUntilTimerValue (row : Row R) :
    φ (haltUntilTimerValue row) = haltUntilTimerValue (φ.row row) := rfl

@[simp] theorem map_beforeInterruptEnableBitValue (row : Row R) (bit : ℕ) :
    φ (beforeInterruptEnableBitValue row bit) = beforeInterruptEnableBitValue (φ.row row) bit :=
  rfl

@[simp] theorem map_shortCycleActiveValue (row : Row R) (cycle : ℕ) :
    φ (shortCycleActiveValue row cycle) = shortCycleActiveValue (φ.row row) cycle := rfl

@[simp] theorem map_interruptSourceValue (row : Row R) (bit : ℕ) :
    φ (interruptSourceValue row bit) = interruptSourceValue (φ.row row) bit := rfl

end BlockMachine

namespace BlockDeviceEnvelope

abbrev columnCount : ℕ := BlockMachine.columnCount + 1

abbrev deviceIoSelector : ℕ := BlockMachine.columnCount

abbrev deviceIoCodes : List ℕ := [11, 12, 13]

/-- Device scalars that stay when a block performs no device I/O. -/
abbrev quietDeviceInvariants : List ℕ :=
  [stateInterruptEnable, stateApuControlLowPack, stateApuControlHighPack, stateApuMixerPack,
    stateApuWaveLowPack, stateApuWaveHighPack, stateJoypadPack]

variable {R : Type*}

/-- Whether the block performs device I/O. -/
def deviceIoSelectorValue (row : Row R) : R := row deviceIoSelector

variable [Add R] [Sub R] [Mul R] [NatCast R]

/-- The number of bus slots with a device-I/O kind. -/
def typedDeviceIoCount (bus : Row R) : R :=
  total ((List.range basicBlockBusEventBound).flatMap (fun slot =>
    deviceIoCodes.map (slotKindSelector bus slot)))

/-- At most one device event per block, and the scalars that only such an event may change. -/
def constrainDeviceEnvelope (row : Row R) : List R :=
  let one : R := ((1 : ℕ) : R)
  let deviceIo := deviceIoSelectorValue row
  let quiet := blockActiveValue row * (one - deviceIo)
  let boundary := boundaryPlane row
  [deviceIo * (deviceIo - one), deviceIo - typedDeviceIoCount (busPlane row)] ++
    quietDeviceInvariants.map (fun scalar =>
      quiet * (deviceStateValue boundary true scalar - deviceStateValue boundary false scalar))

/-- Device-clocked rows without device I/O, on which the device slices constrain a transition. -/
def quietValue (row : Row R) : R :=
  BlockMachine.deviceClockedValue row * (((1 : ℕ) : R) - deviceIoSelectorValue row)

/-- Machine relation plus device envelope. -/
def evaluate (row : Row R) : List R :=
  BlockMachine.evaluate row ++ constrainDeviceEnvelope row

variable {S : Type*} [Add S] [Sub S] [Mul S] [NatCast S] (φ : ArithHom R S)

@[simp] theorem map_deviceIoSelectorValue (row : Row R) :
    φ (deviceIoSelectorValue row) = deviceIoSelectorValue (φ.row row) := rfl

@[simp] theorem map_quietValue (row : Row R) : φ (quietValue row) = quietValue (φ.row row) := by
  simp [quietValue]

@[simp] theorem map_typedDeviceIoCount (bus : Row R) :
    φ (typedDeviceIoCount bus) = typedDeviceIoCount (φ.row bus) := by
  simp [typedDeviceIoCount, List.map_flatMap]

@[simp] theorem map_evaluate (row : Row R) : (evaluate row).map φ = evaluate (φ.row row) := by
  simp [evaluate, constrainDeviceEnvelope]

end BlockDeviceEnvelope

end Zksm83
