import Zksm83.Block.PpuInterrupt

/-!
# OAM DMA and register I/O of packed blocks

The DMA pack (source high byte, index, active flag, owed bytes) with its scheduling over quiet
blocks and its step over a DMA-byte row, and the classification of the one device event a block may
contain, with the registers whose visible byte it carries or writes.
After `block_device_dma.rs` and `block_device_mmio.rs`.
-/

namespace Zksm83

open Constraint BlockMetadata BlockBoundary BlockBus BlockFrontend BlockMachine
  BlockDeviceEnvelope BlockDevicePpu BlockDeviceSerial BlockDeviceTimer

namespace BlockDeviceDma

abbrev dmaAuxStart : ℕ := BlockDevicePpuInterrupt.columnCount
abbrev beforePackBitsStart : ℕ := 0
abbrev afterPackBitsStart : ℕ := beforePackBitsStart + 32
abbrev beforeIndexSlackBitsStart : ℕ := afterPackBitsStart + 32
abbrev afterIndexSlackBitsStart : ℕ := beforeIndexSlackBitsStart + 8
abbrev beforeOwedSlackBitsStart : ℕ := afterIndexSlackBitsStart + 8
abbrev afterOwedSlackBitsStart : ℕ := beforeOwedSlackBitsStart + 3
abbrev beforeIndexZeroPrefixStart : ℕ := afterOwedSlackBitsStart + 3
abbrev afterIndexZeroPrefixStart : ℕ := beforeIndexZeroPrefixStart + 8
abbrev nearEnd : ℕ := afterIndexZeroPrefixStart + 8
abbrev nearEndGapBitsStart : ℕ := nearEnd + 1
abbrev dmaByteSelector : ℕ := nearEndGapBitsStart + 8
abbrev dmaAuxColumnCount : ℕ := dmaByteSelector + 1

abbrev dmaLength : ℕ := 160
abbrev dmaMaxOwed : ℕ := 6
abbrev dmaWriteKind : ℕ := 18

abbrev columnCount : ℕ := BlockDevicePpuInterrupt.columnCount + dmaAuxColumnCount

def packStart (after : Bool) : ℕ := if after then afterPackBitsStart else beforePackBitsStart

def indexSlackStart (after : Bool) : ℕ :=
  if after then afterIndexSlackBitsStart else beforeIndexSlackBitsStart

def owedSlackStart (after : Bool) : ℕ :=
  if after then afterOwedSlackBitsStart else beforeOwedSlackBitsStart

def indexZeroPrefixStart (after : Bool) : ℕ :=
  if after then afterIndexZeroPrefixStart else beforeIndexZeroPrefixStart

variable {R : Type*}

/-- The DMA columns of a row. -/
def dmaPlane (row : Row R) : Row R := slice row dmaAuxStart

/-- A bit of a byte of the DMA pack before or after the block. -/
def stateBit (auxiliary : Row R) (after : Bool) (byte bit : ℕ) : R :=
  auxiliary (packStart after + (byte * 8 + bit))

variable [Add R] [Sub R] [Mul R] [NatCast R]

/-- A byte of the DMA pack: 0 source high, 1 index, 2 active, 3 owed. -/
def stateByte (auxiliary : Row R) (after : Bool) (byte : ℕ) : R :=
  packedBits auxiliary (packStart after + byte * 8) 8

/-- A byte of the DMA pack, read from a full row. -/
def dmaStateByteValue (row : Row R) (after : Bool) (byte : ℕ) : R :=
  stateByte (dmaPlane row) after byte

/-- The pack decomposition with its ranges; an active transfer has not reached its end. -/
def constrainDmaState (boundary auxiliary : Row R) (after : Bool) (blockActive : R) : List R :=
  let one : R := ((1 : ℕ) : R)
  let prefixes := fun bit => auxiliary (indexZeroPrefixStart after + bit)
  [deviceStateValue boundary after stateDmaPack - packedBits auxiliary (packStart after) 32,
    stateByte auxiliary after 1 + packedBits auxiliary (indexSlackStart after) 8 -
      ((dmaLength : ℕ) : R) * blockActive,
    stateByte auxiliary after 3 + packedBits auxiliary (owedSlackStart after) 3 -
      ((dmaMaxOwed : ℕ) : R) * blockActive] ++
    (List.range 7).map (fun bit => stateBit auxiliary after 2 (bit + 1)) ++
    prefixChain 8 blockActive prefixes (fun bit =>
      one - auxiliary (indexSlackStart after + bit)) ++
    [stateBit auxiliary after 2 0 * prefixes 7]

/-- The DMA selector is the kind of the first two slots, and excludes instructions. -/
def constrainDmaSelector (frontend bus auxiliary : Row R) : List R :=
  let dma := auxiliary dmaByteSelector
  [dma - (slotKindSelector bus 0 dmaSourceKindRom + slotKindSelector bus 0 dmaSourceKindMemory),
    dma - slotKindSelector bus 1 dmaWriteKind] ++
    (List.range (basicBlockBusEventBound - 2)).map (fun slot =>
      dma * slotActiveValue bus (slot + 2)) ++
    [dma * instructionValue frontend]

/-- Over a quiet block no byte is owed before, and an active transfer is charged its M-cycles. -/
def constrainQuietSchedule (ppuInterrupt boundary auxiliary : Row R) : List R :=
  let quiet := quietValue ppuInterrupt
  let beforeActive := stateBit auxiliary false 2 0
  let long := haltUntilVblankValue ppuInterrupt + haltUntilSerialValue ppuInterrupt +
    haltUntilTimerValue ppuInterrupt
  let cycles := stateDelta boundary stateCpuMCycles
  let remaining := packedBits auxiliary beforeIndexSlackBitsStart 8
  let expectedOwed := beforeActive * (cycles - auxiliary nearEnd * (cycles - remaining))
  [long * beforeActive, quiet * stateByte auxiliary false 3] ++
    (List.range 3).map (fun byte =>
      quiet * (stateByte auxiliary true byte - stateByte auxiliary false byte)) ++
    BlockDevicePpuInterrupt.constrainComparison auxiliary (quiet * beforeActive) cycles remaining
      nearEnd nearEndGapBitsStart 8 ++
    [quiet * (stateByte auxiliary true 3 - expectedOwed)]

/-- The step of the pack and the copied byte of a DMA row. -/
def constrainDmaByte (bus auxiliary : Row R) : List R :=
  let one : R := ((1 : ℕ) : R)
  let dma := auxiliary dmaByteSelector
  let beforeActive := stateBit auxiliary false 2 0
  let afterCompletion := auxiliary (afterIndexZeroPrefixStart + 7)
  let owedZero := (one - stateBit auxiliary false 3 0) * (one - stateBit auxiliary false 3 1) *
    (one - stateBit auxiliary false 3 2)
  let sourceAddress := ((256 : ℕ) : R) * stateByte auxiliary false 0 + stateByte auxiliary false 1
  let destinationAddress := ((0xfe00 : ℕ) : R) + stateByte auxiliary false 1
  [dma * (beforeActive - one),
    dma * owedZero,
    dma * (stateByte auxiliary true 0 - stateByte auxiliary false 0),
    dma * (stateByte auxiliary true 1 - stateByte auxiliary false 1 - one),
    dma * (stateByte auxiliary true 3 - stateByte auxiliary false 3 + one),
    dma * (stateBit auxiliary true 2 0 - beforeActive + afterCompletion),
    dma * (slotAddressValue bus 0 - sourceAddress),
    dma * (slotAddressValue bus 1 - destinationAddress),
    dma * (slotValueValue bus 1 - slotValueValue bus 0)]

/-- The DMA constraints of a row. -/
def constrainDma (ppuInterrupt auxiliary : Row R) : List R :=
  let blockActive := blockActiveValue ppuInterrupt
  let boundary := boundaryPlane ppuInterrupt
  let bus := busPlane ppuInterrupt
  ownedBits dmaAuxColumnCount auxiliary (fun _ => blockActive) ++
    constrainDmaState boundary auxiliary false blockActive ++
    constrainDmaState boundary auxiliary true blockActive ++
    constrainDmaSelector ppuInterrupt bus auxiliary ++
    constrainQuietSchedule ppuInterrupt boundary auxiliary ++
    constrainDmaByte bus auxiliary

/-- PPU-interrupt relation plus DMA. -/
def evaluate (row : Row R) : List R :=
  BlockDevicePpuInterrupt.evaluate row ++ constrainDma row (dmaPlane row)

variable {S : Type*} [Add S] [Sub S] [Mul S] [NatCast S] (φ : ArithHom R S)

@[simp] theorem row_dmaPlane (row : Row R) : φ.row (dmaPlane row) = dmaPlane (φ.row row) := rfl

@[simp] theorem map_stateBit (auxiliary : Row R) (after : Bool) (byte bit : ℕ) :
    φ (stateBit auxiliary after byte bit) = stateBit (φ.row auxiliary) after byte bit := rfl

@[simp] theorem map_stateByte (auxiliary : Row R) (after : Bool) (byte : ℕ) :
    φ (stateByte auxiliary after byte) = stateByte (φ.row auxiliary) after byte := by
  simp [stateByte]

@[simp] theorem map_dmaStateByteValue (row : Row R) (after : Bool) (byte : ℕ) :
    φ (dmaStateByteValue row after byte) = dmaStateByteValue (φ.row row) after byte := by
  simp [dmaStateByteValue]

@[simp] theorem map_constrainDmaState (boundary auxiliary : Row R) (after : Bool)
    (blockActive : R) :
    (constrainDmaState boundary auxiliary after blockActive).map φ =
      constrainDmaState (φ.row boundary) (φ.row auxiliary) after (φ blockActive) := by
  simp [constrainDmaState, Function.comp_def]

@[simp] theorem map_constrainDma (ppuInterrupt auxiliary : Row R) :
    (constrainDma ppuInterrupt auxiliary).map φ =
      constrainDma (φ.row ppuInterrupt) (φ.row auxiliary) := by
  simp [constrainDma, constrainDmaSelector, constrainQuietSchedule, constrainDmaByte,
    Function.comp_def]

@[simp] theorem map_evaluate (row : Row R) : (evaluate row).map φ = evaluate (φ.row row) := by
  simp [evaluate]

end BlockDeviceDma

open BlockDeviceDma

namespace BlockDeviceMmio

/-- The low bytes of the supported register addresses. -/
def mmioLowAddresses : List ℕ :=
  [0x00, 0x01, 0x02, 0x04, 0x05, 0x06, 0x07, 0x0f, 0x10, 0x11, 0x12, 0x13, 0x14, 0x15, 0x16, 0x17,
    0x18, 0x19, 0x1a, 0x1b, 0x1c, 0x1d, 0x1e, 0x1f, 0x20, 0x21, 0x22, 0x23, 0x24, 0x25, 0x26, 0x27,
    0x28, 0x29, 0x2a, 0x2b, 0x2c, 0x2d, 0x2e, 0x2f, 0x30, 0x31, 0x32, 0x33, 0x34, 0x35, 0x36, 0x37,
    0x38, 0x39, 0x3a, 0x3b, 0x3c, 0x3d, 0x3e, 0x3f, 0x40, 0x41, 0x42, 0x43, 0x44, 0x45, 0x46, 0x47,
    0x48, 0x49, 0x4a, 0x4b, 0xff]

abbrev mmioAuxStart : ℕ := BlockDeviceDma.columnCount
abbrev addressBitsStart : ℕ := 0
abbrev addressBitCount : ℕ := 8
abbrev ioValue : ℕ := addressBitsStart + addressBitCount
abbrev ioBefore : ℕ := ioValue + 1
abbrev ioAuxiliary : ℕ := ioBefore + 1
abbrev ioIndex : ℕ := ioAuxiliary + 1
abbrev ioValueBitsStart : ℕ := ioIndex + 1
abbrev beforeIeBitsStart : ℕ := ioValueBitsStart + 8
abbrev afterIeBitsStart : ℕ := beforeIeBitsStart + 5
abbrev mmioAuxColumnCount : ℕ := afterIeBitsStart + 5

abbrev mmioReadKind : ℕ := 11
abbrev mmioWriteKind : ℕ := 12
abbrev joypadReadKind : ℕ := 13

abbrev columnCount : ℕ := BlockDeviceDma.columnCount + mmioAuxColumnCount

variable {R : Type*}

/-- The MMIO columns of a row. -/
def mmioPlane (row : Row R) : Row R := slice row mmioAuxStart

def mmioIoValue (row : Row R) : R := mmioPlane row ioValue

def mmioIoBeforeValue (row : Row R) : R := mmioPlane row ioBefore

def mmioIoAuxiliaryValue (row : Row R) : R := mmioPlane row ioAuxiliary

def mmioIoIndexValue (row : Row R) : R := mmioPlane row ioIndex

/-- A bit of the byte of the device event. -/
def mmioIoValueBit (row : Row R) (bit : ℕ) : R := mmioPlane row (ioValueBitsStart + bit)

variable [Add R] [Sub R] [Mul R] [NatCast R]

/-- Whether the low address byte of the device event is `lowAddress`. -/
def addressSelector (auxiliary : Row R) (lowAddress : ℕ) : R :=
  bitSelector ((List.range addressBitCount).map (fun bit => auxiliary (addressBitsStart + bit)))
    lowAddress

/-- The address selector, read from a full row. -/
def mmioAddressSelectorValue (row : Row R) (lowAddress : ℕ) : R :=
  addressSelector (mmioPlane row) lowAddress

/-- Whether the low address byte is a supported register. -/
def supportedAddressSelectorSum (auxiliary : Row R) : R :=
  total (mmioLowAddresses.map (addressSelector auxiliary))

/-- A sum over the slots of a field weighted by the selectors of some device kinds. -/
def weightedSlots (bus : Row R) (codes : List ℕ) (field : Row R → ℕ → R) : R :=
  totalOver basicBlockBusEventBound (fun slot => kindSelectorSum bus slot codes * field bus slot)

/-- The fields of the one device event of a block, summed over the slots. -/
structure SelectedEvents (R : Type*) where
  read : R
  write : R
  joypad : R
  address : R
  value : R
  before : R
  physical : R
  auxiliary : R
  index : R
  plainAuxiliary : R
  plainIndex : R

abbrev deviceKinds : List ℕ := [mmioReadKind, mmioWriteKind, joypadReadKind]

abbrev plainKinds : List ℕ := [mmioReadKind, mmioWriteKind]

/-- The device event selected from the bus plane. -/
def selectedEvents (row : Row R) : SelectedEvents R :=
  let bus := busPlane row
  { read := totalOver basicBlockBusEventBound (fun slot => slotKindSelector bus slot mmioReadKind)
    write := totalOver basicBlockBusEventBound (fun slot => slotKindSelector bus slot mmioWriteKind)
    joypad :=
      totalOver basicBlockBusEventBound (fun slot => slotKindSelector bus slot joypadReadKind)
    address := weightedSlots bus deviceKinds slotAddressValue
    value := weightedSlots bus deviceKinds slotValueValue
    before := weightedSlots bus deviceKinds slotBeforeValue
    physical := weightedSlots bus deviceKinds slotPhysicalAddressValue
    auxiliary := weightedSlots bus deviceKinds slotAuxiliaryValue
    index := weightedSlots bus deviceKinds slotIndexValue
    plainAuxiliary := weightedSlots bus plainKinds slotAuxiliaryValue
    plainIndex := weightedSlots bus plainKinds slotIndexValue }

def mmioReadSelectorValue (row : Row R) : R := (selectedEvents row).read

def mmioWriteSelectorValue (row : Row R) : R := (selectedEvents row).write

def mmioJoypadSelectorValue (row : Row R) : R := (selectedEvents row).joypad

/-- A byte of the low or high register pack before or after the block. -/
def packedRegisterByte (row : Row R) (after highPack : Bool) (byte : ℕ) : R :=
  packed ((List.range 8).map (fun bit =>
    if highPack then highPackBitValue row after (byte * 8 + bit)
    else lowPackBitValue row after (byte * 8 + bit)))

/-- The byte of the device event under a write mask. -/
def maskedIoValue (auxiliary : Row R) (mask : ℕ) : R :=
  packed ((List.range 8).map (fun bit =>
    if mask / 2 ^ bit % 2 = 1 then auxiliary (ioValueBitsStart + bit) else ((0 : ℕ) : R)))

/-- Bits of the event byte and of IE before and after a block with device I/O. -/
def constrainValueAndIeBits (boundary auxiliary : Row R) (deviceIo ioValue : R) : List R :=
  ownedBits 8 (slice auxiliary ioValueBitsStart) (fun _ => deviceIo) ++
    ownedBits 5 (slice auxiliary beforeIeBitsStart) (fun _ => deviceIo) ++
    ownedBits 5 (slice auxiliary afterIeBitsStart) (fun _ => deviceIo) ++
    [ioValue - packedBits auxiliary ioValueBitsStart 8,
      deviceIo * (deviceStateValue boundary false stateInterruptEnable -
        packedBits auxiliary beforeIeBitsStart 5),
      deviceIo * (deviceStateValue boundary true stateInterruptEnable -
        packedBits auxiliary afterIeBitsStart 5)]

/-- FF46 starts a transfer; other device events leave the DMA pack, and none runs while a transfer
is active. -/
def constrainDmaStart (dma auxiliary : Row R) (deviceIo ioValue ioBefore : R)
    (events : SelectedEvents R) : List R :=
  let address := addressSelector auxiliary 0x46
  let ff46Read := address * events.read
  let ff46 := address * events.write
  let beforeSource := dmaStateByteValue dma false 0
  let step := fun (byte : ℕ) (target : R) =>
    deviceIo * (dmaStateByteValue dma true byte - dmaStateByteValue dma false byte) -
      ff46 * (target - dmaStateByteValue dma false byte)
  [deviceIo * dmaStateByteValue dma false 2,
    ff46Read * (ioValue - beforeSource),
    ff46 * (ioBefore - beforeSource),
    step 0 ioValue, step 1 ((0 : ℕ) : R), step 2 ((1 : ℕ) : R), step 3 ((0 : ℕ) : R)]

/-- FFFF reads and writes IE; other device events leave it. -/
def constrainInterruptEnable (auxiliary : Row R) (deviceIo ioValue ioBefore : R)
    (events : SelectedEvents R) : List R :=
  let address := addressSelector auxiliary 0xff
  let read := address * events.read
  let write := address * events.write
  let before := packedBits auxiliary beforeIeBitsStart 5
  let after := packedBits auxiliary afterIeBitsStart 5
  let written := packedBits auxiliary ioValueBitsStart 5
  [read * (ioValue - before), write * (ioBefore - before),
    deviceIo * (after - before) - write * (written - before)]

/-- A read carries the visible byte of a register, and a write has it as its before byte. -/
def constrainVisible (address ioValue ioBefore visible : R) (events : SelectedEvents R) : List R :=
  [address * events.read * (ioValue - visible), address * events.write * (ioBefore - visible)]

/-- The high byte of the divider before the block. -/
def timerDivHighByte (row : Row R) : R :=
  packed ((List.range 8).map (fun bit => timerDivBitValue row false (bit + 8)))

/-- The visible bytes of FF0F, FF44 and FF04. -/
def constrainDirectRegisterTuples (dma auxiliary : Row R) (ioValue ioBefore : R)
    (events : SelectedEvents R) : List R :=
  let boundary := boundaryPlane dma
  constrainVisible (addressSelector auxiliary 0x0f) ioValue ioBefore
      (deviceStateValue boundary false stateInterruptRequest + ((0xe0 : ℕ) : R)) events ++
    constrainVisible (addressSelector auxiliary 0x44) ioValue ioBefore
      (deviceStateValue boundary false statePpuLine + ((0 : ℕ) : R)) events ++
    constrainVisible (addressSelector auxiliary 0x04) ioValue ioBefore (timerDivHighByte dma) events

/-- Registers stored in the packs: address, pack, byte, and the bits that read as one. -/
def packedRegisters : List (ℕ × Bool × ℕ × ℕ) :=
  [(0x01, false, 0, 0), (0x02, false, 1, 0), (0x06, false, 2, 0), (0x07, false, 3, 0xf8),
    (0x40, false, 4, 0), (0x42, false, 6, 0), (0x43, false, 7, 0), (0x45, true, 5, 0),
    (0x47, true, 0, 0), (0x48, true, 1, 0), (0x49, true, 2, 0), (0x4a, true, 3, 0),
    (0x4b, true, 4, 0)]

/-- The visible bytes of the packed registers. -/
def constrainPackedRegisterTuples (dma auxiliary : Row R) (ioValue ioBefore : R)
    (events : SelectedEvents R) : List R :=
  packedRegisters.flatMap (fun register =>
    constrainVisible (addressSelector auxiliary register.1) ioValue ioBefore
      (packedRegisterByte dma false register.2.1 register.2.2.1 + (register.2.2.2 : R)) events)

/-- Registers a device event changes only by writing them: address, pack, byte, write mask. -/
def stableRegisters : List (ℕ × Bool × ℕ × ℕ) :=
  [(0x02, false, 1, 0xff), (0x06, false, 2, 0xff), (0x07, false, 3, 0x07), (0x40, false, 4, 0xff),
    (0x41, false, 5, 0x78), (0x42, false, 6, 0xff), (0x43, false, 7, 0xff), (0x45, true, 5, 0xff),
    (0x47, true, 0, 0xff), (0x48, true, 1, 0xff), (0x49, true, 2, 0xff), (0x4a, true, 3, 0xff),
    (0x4b, true, 4, 0xff)]

/-- The written registers over a block with device I/O. -/
def constrainStablePackedRegisters (dma auxiliary : Row R) (deviceIo write : R) : List R :=
  stableRegisters.map (fun register =>
    let before := packedRegisterByte dma false register.2.1 register.2.2.1
    let after := packedRegisterByte dma true register.2.1 register.2.2.1
    deviceIo * (after - before) - addressSelector auxiliary register.1 * write *
      (maskedIoValue auxiliary register.2.2.2 - before))

/-- The MMIO constraints of a row. -/
def constrainMmio (dma auxiliary : Row R) : List R :=
  let one : R := ((1 : ℕ) : R)
  let deviceIo := deviceIoSelectorValue dma
  let lowAddress := packedBits auxiliary addressBitsStart addressBitCount
  let value := auxiliary ioValue
  let before := auxiliary ioBefore
  let events := selectedEvents dma
  let addressZero := addressSelector auxiliary 0x00
  (List.range addressBitCount).map (fun bit =>
      auxiliary (addressBitsStart + bit) * (auxiliary (addressBitsStart + bit) - one)) ++
    [deviceIo * (supportedAddressSelectorSum auxiliary - one),
      (one - deviceIo) * value, (one - deviceIo) * before,
      (one - deviceIo) * auxiliary ioAuxiliary, (one - deviceIo) * auxiliary ioIndex] ++
    constrainValueAndIeBits (boundaryPlane dma) auxiliary deviceIo value ++
    [((0xff00 : ℕ) : R) * deviceIo + lowAddress - events.address,
      value - events.value, before - events.before,
      auxiliary ioAuxiliary - events.auxiliary, auxiliary ioIndex - events.index,
      events.joypad * (one - addressZero), addressZero * events.read, events.read * before,
      events.physical, events.plainAuxiliary, events.plainIndex] ++
    constrainDmaStart dma auxiliary deviceIo value before events ++
    constrainInterruptEnable auxiliary deviceIo value before events ++
    constrainDirectRegisterTuples dma auxiliary value before events ++
    constrainPackedRegisterTuples dma auxiliary value before events ++
    constrainStablePackedRegisters dma auxiliary deviceIo events.write

/-- DMA relation plus MMIO classification. -/
def evaluate (row : Row R) : List R :=
  BlockDeviceDma.evaluate row ++ constrainMmio row (mmioPlane row)

variable {S : Type*} [Add S] [Sub S] [Mul S] [NatCast S] (φ : ArithHom R S)

@[simp] theorem row_mmioPlane (row : Row R) : φ.row (mmioPlane row) = mmioPlane (φ.row row) := rfl

@[simp] theorem map_mmioIoValue (row : Row R) : φ (mmioIoValue row) = mmioIoValue (φ.row row) := rfl

@[simp] theorem map_mmioIoBeforeValue (row : Row R) :
    φ (mmioIoBeforeValue row) = mmioIoBeforeValue (φ.row row) := rfl

@[simp] theorem map_mmioIoAuxiliaryValue (row : Row R) :
    φ (mmioIoAuxiliaryValue row) = mmioIoAuxiliaryValue (φ.row row) := rfl

@[simp] theorem map_mmioIoIndexValue (row : Row R) :
    φ (mmioIoIndexValue row) = mmioIoIndexValue (φ.row row) := rfl

@[simp] theorem map_mmioIoValueBit (row : Row R) (bit : ℕ) :
    φ (mmioIoValueBit row bit) = mmioIoValueBit (φ.row row) bit := rfl

@[simp] theorem map_addressSelector (auxiliary : Row R) (lowAddress : ℕ) :
    φ (addressSelector auxiliary lowAddress) = addressSelector (φ.row auxiliary) lowAddress := by
  simp [addressSelector, Function.comp_def]

@[simp] theorem map_mmioAddressSelectorValue (row : Row R) (lowAddress : ℕ) :
    φ (mmioAddressSelectorValue row lowAddress) =
      mmioAddressSelectorValue (φ.row row) lowAddress := by
  simp [mmioAddressSelectorValue]

theorem map_weightedSlots (bus : Row R) (codes : List ℕ) (field : Row R → ℕ → R)
    (image : Row S → ℕ → S) (hfield : ∀ slot, φ (field bus slot) = image (φ.row bus) slot) :
    φ (weightedSlots bus codes field) = weightedSlots (φ.row bus) codes image := by
  simp [weightedSlots, hfield]

/-- The image of the selected event, field by field. -/
def SelectedEvents.map (events : SelectedEvents R) : SelectedEvents S where
  read := φ events.read
  write := φ events.write
  joypad := φ events.joypad
  address := φ events.address
  value := φ events.value
  before := φ events.before
  physical := φ events.physical
  auxiliary := φ events.auxiliary
  index := φ events.index
  plainAuxiliary := φ events.plainAuxiliary
  plainIndex := φ events.plainIndex

@[simp] theorem map_selectedEvents (row : Row R) :
    (selectedEvents row).map φ = selectedEvents (φ.row row) := by
  simp only [selectedEvents, SelectedEvents.map, ArithHom.map_totalOver, map_slotKindSelector,
    row_busPlane, SelectedEvents.mk.injEq, true_and]
  refine ⟨?_, ?_, ?_, ?_, ?_, ?_, ?_, ?_⟩ <;>
    exact map_weightedSlots φ _ _ _ _ (fun _ => rfl)

@[simp] theorem map_mmioReadSelectorValue (row : Row R) :
    φ (mmioReadSelectorValue row) = mmioReadSelectorValue (φ.row row) := by
  rw [mmioReadSelectorValue, mmioReadSelectorValue, ← map_selectedEvents, SelectedEvents.map]

@[simp] theorem map_mmioWriteSelectorValue (row : Row R) :
    φ (mmioWriteSelectorValue row) = mmioWriteSelectorValue (φ.row row) := by
  rw [mmioWriteSelectorValue, mmioWriteSelectorValue, ← map_selectedEvents, SelectedEvents.map]

@[simp] theorem map_mmioJoypadSelectorValue (row : Row R) :
    φ (mmioJoypadSelectorValue row) = mmioJoypadSelectorValue (φ.row row) := by
  rw [mmioJoypadSelectorValue, mmioJoypadSelectorValue, ← map_selectedEvents, SelectedEvents.map]

@[simp] theorem map_packedRegisterByte (row : Row R) (after highPack : Bool) (byte : ℕ) :
    φ (packedRegisterByte row after highPack byte) =
      packedRegisterByte (φ.row row) after highPack byte := by
  cases highPack <;> simp [packedRegisterByte, Function.comp_def]

@[simp] theorem map_maskedIoValue (auxiliary : Row R) (mask : ℕ) :
    φ (maskedIoValue auxiliary mask) = maskedIoValue (φ.row auxiliary) mask := by
  simp [maskedIoValue, Function.comp_def, apply_ite φ]

@[simp] theorem map_timerDivHighByte (row : Row R) :
    φ (timerDivHighByte row) = timerDivHighByte (φ.row row) := by
  simp [timerDivHighByte, Function.comp_def]

@[simp] theorem map_constrainVisible (address value before visible : R)
    (events : SelectedEvents R) :
    (constrainVisible address value before visible events).map φ =
      constrainVisible (φ address) (φ value) (φ before) (φ visible) (events.map φ) := by
  simp [constrainVisible, SelectedEvents.map]

@[simp] theorem map_constrainDmaStart (dma auxiliary : Row R) (deviceIo value before : R)
    (events : SelectedEvents R) :
    (constrainDmaStart dma auxiliary deviceIo value before events).map φ =
      constrainDmaStart (φ.row dma) (φ.row auxiliary) (φ deviceIo) (φ value) (φ before)
        (events.map φ) := by
  simp [constrainDmaStart, SelectedEvents.map]

@[simp] theorem map_constrainInterruptEnable (auxiliary : Row R) (deviceIo value before : R)
    (events : SelectedEvents R) :
    (constrainInterruptEnable auxiliary deviceIo value before events).map φ =
      constrainInterruptEnable (φ.row auxiliary) (φ deviceIo) (φ value) (φ before)
        (events.map φ) := by
  simp [constrainInterruptEnable, SelectedEvents.map]

@[simp] theorem map_constrainMmio (dma auxiliary : Row R) :
    (constrainMmio dma auxiliary).map φ = constrainMmio (φ.row dma) (φ.row auxiliary) := by
  simp only [constrainMmio, ← map_selectedEvents φ dma]
  simp [constrainValueAndIeBits, supportedAddressSelectorSum, constrainDirectRegisterTuples,
    constrainPackedRegisterTuples, constrainStablePackedRegisters, List.map_flatMap,
    SelectedEvents.map, Function.comp_def]

@[simp] theorem map_evaluate (row : Row R) : (evaluate row).map φ = evaluate (φ.row row) := by
  simp [evaluate]

end BlockDeviceMmio

end Zksm83
