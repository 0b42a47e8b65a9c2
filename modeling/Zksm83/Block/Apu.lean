import Zksm83.Block.Mmio

/-!
# Joypad and APU registers of packed blocks

P1 sampling with its select lines and falling edges, and the APU register file with its read
masks, power switch, DAC enables, triggers, and wave RAM.
After `block_device_joypad.rs`, `block_device_apu.rs` and `read_mask` of the core APU.
-/

namespace Zksm83

open Constraint BlockMetadata BlockBoundary BlockFrontend BlockMachine BlockDeviceEnvelope
  BlockDeviceSerial BlockDeviceMmio

namespace BlockDeviceJoypad

abbrev joypadAuxStart : ℕ := BlockDeviceMmio.columnCount
abbrev stateWidth : ℕ := 10
abbrev beforeStateStart : ℕ := 0
abbrev afterStateStart : ℕ := beforeStateStart + stateWidth
abbrev inputBitsStart : ℕ := afterStateStart + stateWidth
abbrev beforeVisibleBitsStart : ℕ := inputBitsStart + 8
abbrev afterVisibleBitsStart : ℕ := beforeVisibleBitsStart + 4
abbrev fallingBitsStart : ℕ := afterVisibleBitsStart + 4
abbrev fallingClearPrefixStart : ℕ := fallingBitsStart + 4
abbrev p1Event : ℕ := fallingClearPrefixStart + 4
abbrev joypadAuxColumnCount : ℕ := p1Event + 1

abbrev columnCount : ℕ := BlockDeviceMmio.columnCount + joypadAuxColumnCount

def stateStart (after : Bool) : ℕ := if after then afterStateStart else beforeStateStart

def visibleStart (after : Bool) : ℕ :=
  if after then afterVisibleBitsStart else beforeVisibleBitsStart

variable {R : Type*}

/-- The joypad columns of a row. -/
def joypadPlane (row : Row R) : Row R := slice row joypadAuxStart

variable [Add R] [Sub R] [Mul R] [NatCast R]

/-- The two select lines in their register positions. -/
def selectValue (auxiliary : Row R) (start : ℕ) : R :=
  ((16 : ℕ) : R) * auxiliary start + ((32 : ℕ) : R) * auxiliary (start + 1)

/-- A low bit of the visible P1 byte: the selected groups, active low. -/
def visibleLowBit (auxiliary : Row R) (start bit : ℕ) : R :=
  let one : R := ((1 : ℕ) : R)
  let direction := one - (one - auxiliary start) * auxiliary (start + 2 + bit)
  let action := one - (one - auxiliary (start + 1)) * auxiliary (start + 6 + bit)
  direction * action

/-- The visible P1 byte before or after the block. -/
def visibleByte (auxiliary : Row R) (after : Bool) : R :=
  ((0xc0 : ℕ) : R) + selectValue auxiliary (stateStart after) +
    packedBits auxiliary (visibleStart after) 4

/-- The joypad pack decomposition and the visible low bits. -/
def constrainState (boundary auxiliary : Row R) (after : Bool) (blockActive : R) : List R :=
  let start := stateStart after
  (deviceStateValue boundary after stateJoypadPack -
      (selectValue auxiliary start + ((256 : ℕ) : R) * packedBits auxiliary (start + 2) 8)) ::
    (List.range 4).map (fun bit => blockActive *
      (auxiliary (visibleStart after + bit) - visibleLowBit auxiliary start bit))

/-- Only P1 reads change the buttons, and only P1 writes change the select lines. -/
def constrainStateTransition (mmio auxiliary : Row R) (input joypad ff00Write : R) : List R :=
  let beforeButtons := packedBits auxiliary (beforeStateStart + 2) 8
  let afterButtons := packedBits auxiliary (afterStateStart + 2) 8
  let beforeSelect := selectValue auxiliary beforeStateStart
  let afterSelect := selectValue auxiliary afterStateStart
  let writtenSelect := ((16 : ℕ) : R) * mmioIoValueBit mmio 4 +
    ((32 : ℕ) : R) * mmioIoValueBit mmio 5
  [afterButtons - beforeButtons - joypad * (input - beforeButtons),
    afterSelect - beforeSelect - ff00Write * (writtenSelect - beforeSelect)]

/-- The tuples of P1 reads and writes. -/
def constrainBusTuple (mmio auxiliary boundary : Row R) (joypad ff00Write : R) : List R :=
  [joypad * (mmioIoBeforeValue mmio - packedBits auxiliary (beforeStateStart + 2) 8),
    joypad * (mmioIoValue mmio - visibleByte auxiliary true),
    joypad * (mmioIoIndexValue mmio - localStateValue boundary 0 stateInputNext),
    ff00Write * (mmioIoBeforeValue mmio - visibleByte auxiliary false)]

/-- The falling edges of the visible bits and their running disjunction. -/
def constrainFalling (auxiliary : Row R) (blockActive : R) : List R :=
  let one : R := ((1 : ℕ) : R)
  let clear := fun bit => auxiliary (fallingClearPrefixStart + bit)
  (List.range 4).flatMap (fun bit =>
    let falling := auxiliary (fallingBitsStart + bit)
    [falling - auxiliary (beforeVisibleBitsStart + bit) *
        (one - auxiliary (afterVisibleBitsStart + bit)),
      clear bit - previous blockActive clear bit * (one - falling)])

/-- The joypad request bit over a block with device I/O. -/
def constrainInterrupt (mmio : Row R) (falling p1 write : R) : List R :=
  let before := interruptRequestBitValue mmio false 4
  let after := interruptRequestBitValue mmio true 4
  let ff0fWrite := mmioAddressSelectorValue mmio 0x0f * write
  [deviceIoSelectorValue mmio * (after - before) -
      ff0fWrite * (mmioIoValueBit mmio 4 - before) - p1 * (falling - before * falling)]

/-- The joypad constraints of a row. -/
def constrainJoypad (mmio auxiliary : Row R) : List R :=
  let blockActive := blockActiveValue mmio
  let boundary := boundaryPlane mmio
  let input := packedBits auxiliary inputBitsStart 8
  let joypad := mmioJoypadSelectorValue mmio
  let write := mmioWriteSelectorValue mmio
  let p1 := auxiliary p1Event
  let ff00Write := p1 - joypad
  let falling := blockActive - auxiliary (fallingClearPrefixStart + 3)
  ownedBits joypadAuxColumnCount auxiliary (fun _ => blockActive) ++
    constrainState boundary auxiliary false blockActive ++
    constrainState boundary auxiliary true blockActive ++
    [input - mmioIoAuxiliaryValue mmio,
      p1 - joypad - mmioAddressSelectorValue mmio 0x00 * write] ++
    constrainStateTransition mmio auxiliary input joypad ff00Write ++
    constrainBusTuple mmio auxiliary boundary joypad ff00Write ++
    constrainFalling auxiliary blockActive ++
    constrainInterrupt mmio falling p1 write

/-- MMIO relation plus the joypad. -/
def evaluate (row : Row R) : List R :=
  BlockDeviceMmio.evaluate row ++ constrainJoypad row (joypadPlane row)

variable {S : Type*} [Add S] [Sub S] [Mul S] [NatCast S] (φ : ArithHom R S)

@[simp] theorem row_joypadPlane (row : Row R) :
    φ.row (joypadPlane row) = joypadPlane (φ.row row) := rfl

@[simp] theorem map_selectValue (auxiliary : Row R) (start : ℕ) :
    φ (selectValue auxiliary start) = selectValue (φ.row auxiliary) start := by
  simp [selectValue]

@[simp] theorem map_visibleLowBit (auxiliary : Row R) (start bit : ℕ) :
    φ (visibleLowBit auxiliary start bit) = visibleLowBit (φ.row auxiliary) start bit := by
  simp [visibleLowBit]

@[simp] theorem map_visibleByte (auxiliary : Row R) (after : Bool) :
    φ (visibleByte auxiliary after) = visibleByte (φ.row auxiliary) after := by
  simp [visibleByte]

@[simp] theorem map_constrainJoypad (mmio auxiliary : Row R) :
    (constrainJoypad mmio auxiliary).map φ = constrainJoypad (φ.row mmio) (φ.row auxiliary) := by
  simp [constrainJoypad, constrainState, constrainStateTransition, constrainBusTuple,
    constrainFalling, constrainInterrupt, List.map_flatMap, Function.comp_def]

@[simp] theorem map_evaluate (row : Row R) : (evaluate row).map φ = evaluate (φ.row row) := by
  simp [evaluate]

end BlockDeviceJoypad

/-- Bits of an APU register that read as one, by low address byte. -/
def apuReadMask (address : ℕ) : ℕ :=
  match address with
  | 0x10 => 0x80
  | 0x11 | 0x16 => 0x3f
  | 0x13 | 0x15 | 0x18 | 0x1b | 0x1d | 0x1f | 0x20 => 0xff
  | 0x14 | 0x19 | 0x1e | 0x23 => 0xbf
  | 0x1a => 0x7f
  | 0x1c => 0x9f
  | 0x26 => 0x70
  | _ => 0

namespace BlockDeviceApu

abbrev apuAuxStart : ℕ := BlockDeviceJoypad.columnCount
abbrev packWidth : ℕ := 64
abbrev packCount : ℕ := 5
abbrev apuStateWidth : ℕ := packWidth * packCount
abbrev beforeBitsStart : ℕ := 0
abbrev afterBitsStart : ℕ := beforeBitsStart + apuStateWidth
abbrev powerOff : ℕ := afterBitsStart + apuStateWidth
abbrev powerOn : ℕ := powerOff + 1
abbrev afterDacEnabledStart : ℕ := powerOn + 1
abbrev dacWriteStart : ℕ := afterDacEnabledStart + 4
abbrev writtenDacEnabledStart : ℕ := dacWriteStart + 4
abbrev triggerStart : ℕ := writtenDacEnabledStart + 4
abbrev apuWrite : ℕ := triggerStart + 4
abbrev apuAuxColumnCount : ℕ := apuWrite + 1

abbrev mixerUnusedByte : ℕ := 7

abbrev columnCount : ℕ := BlockDeviceJoypad.columnCount + apuAuxColumnCount

/-- First column of a register pack. -/
def packStart (after : Bool) (pack : ℕ) : ℕ :=
  (if after then afterBitsStart else beforeBitsStart) + pack * packWidth

/-- First column of the byte that stores a register. -/
def storageBitStart (address : ℕ) (after : Bool) : ℕ :=
  if address ≤ 0x17 then packStart after 0 + (address - 0x10) * 8
  else if address ≤ 0x1f then packStart after 1 + (address - 0x18) * 8
  else if address ≤ 0x26 then packStart after 2 + (address - 0x20) * 8
  else if address ≤ 0x37 then packStart after 3 + (address - 0x30) * 8
  else packStart after 4 + (address - 0x38) * 8

/-- The state scalar of a register pack. -/
def packStateIndex (pack : ℕ) : ℕ := stateApuControlLowPack + pack

/-- Length registers are writable while the APU is off. -/
def isLengthRegister (address : ℕ) : Bool := address ∈ [0x11, 0x16, 0x1b, 0x20]

def dacAddress : ℕ → ℕ
  | 0 => 0x12
  | 1 => 0x17
  | 2 => 0x1a
  | _ => 0x21

def triggerAddress : ℕ → ℕ
  | 0 => 0x14
  | 1 => 0x19
  | 2 => 0x1e
  | _ => 0x23

/-- The bits of a DAC register that enable the DAC: first bit and width. -/
def dacBits (channel : ℕ) : ℕ × ℕ := if channel = 2 then (7, 1) else (3, 5)

/-- Low address bytes of the control registers below NR52, of NR52, and of the wave RAM. -/
abbrev controlAddresses : List ℕ := List.range' 0x10 0x16
abbrev storedAddresses : List ℕ := List.range' 0x10 0x17
abbrev waveAddresses : List ℕ := List.range' 0x30 0x10
abbrev apuAddresses : List ℕ := List.range' 0x10 0x30

variable {R : Type*}

/-- The APU columns of a row. -/
def apuPlane (row : Row R) : Row R := slice row apuAuxStart

/-- A bit of a register pack. -/
def stateBit (auxiliary : Row R) (after : Bool) (pack bit : ℕ) : R :=
  auxiliary (packStart after pack + bit)

variable [Add R] [Sub R] [Mul R] [NatCast R]

/-- A stored register byte. -/
def storedByte (auxiliary : Row R) (address : ℕ) (after : Bool) : R :=
  packedBits auxiliary (storageBitStart address after) 8

/-- The byte a read of a register returns. -/
def visibleByte (auxiliary : Row R) (address : ℕ) : R :=
  if address ≤ 0x26 then storedByte auxiliary address false + (apuReadMask address : R)
  else if address ≤ 0x2f then ((0xff : ℕ) : R)
  else storedByte auxiliary address false

/-- The written byte without the bits that are not stored. -/
def writtenStoredByte (joypad : Row R) (address : ℕ) : R :=
  packed ((List.range 8).map (fun bit =>
    if apuReadMask address / 2 ^ bit % 2 = 0 then mmioIoValueBit joypad bit else ((0 : ℕ) : R)))

/-- Whether one of the listed bits is set. -/
def anyBits (bits : List R) : R :=
  let one : R := ((1 : ℕ) : R)
  one - productFrom one (bits.map (fun bit => one - bit))

/-- Whether the DAC of a channel is enabled by its stored register. -/
def dacEnabledFromPack (auxiliary : Row R) (channel : ℕ) (after : Bool) : R :=
  anyBits ((List.range (dacBits channel).2).map (fun bit =>
    auxiliary (storageBitStart (dacAddress channel) after + (dacBits channel).1 + bit)))

/-- Whether the written byte enables the DAC of a channel. -/
def writtenDacEnabled (joypad : Row R) (channel : ℕ) : R :=
  anyBits ((List.range (dacBits channel).2).map (fun bit =>
    mmioIoValueBit joypad ((dacBits channel).1 + bit)))

/-- The five pack decompositions on both sides. -/
def constrainPacks (boundary auxiliary : Row R) : List R :=
  (List.range packCount).flatMap (fun pack =>
    [false, true].map (fun after => deviceStateValue boundary after (packStateIndex pack) -
      packedBits auxiliary (packStart after pack) packWidth))

/-- Bits that read as one are stored as zero. -/
def constrainStorageMasks (auxiliary : Row R) : List R :=
  storedAddresses.flatMap (fun address =>
      [false, true].flatMap (fun after =>
        (List.range 8).flatMap (fun bit =>
          if apuReadMask address / 2 ^ bit % 2 = 1 then
            [auxiliary (storageBitStart address after + bit)]
          else []))) ++
    [false, true].flatMap (fun after =>
      (List.range 8).map (fun bit => auxiliary (packStart after 2 + mixerUnusedByte * 8 + bit)))

/-- A powered-off APU stores zero outside the length registers. -/
def constrainPoweredOffStates (auxiliary : Row R) : List R :=
  let one : R := ((1 : ℕ) : R)
  [false, true].flatMap (fun after =>
    let power := stateBit auxiliary after 2 55
    controlAddresses.flatMap (fun address =>
        if isLengthRegister address then [] else [(one - power) * storedByte auxiliary address after]) ++
      (List.range 4).map (fun channel => (one - power) * stateBit auxiliary after 2 (48 + channel)))

/-- Reads return the visible byte, and writes have it as their before byte. -/
def constrainBusValues (joypad auxiliary : Row R) : List R :=
  let selected := total (apuAddresses.map (mmioAddressSelectorValue joypad))
  let expected := total (apuAddresses.map (fun address =>
    mmioAddressSelectorValue joypad address * visibleByte auxiliary address))
  [mmioReadSelectorValue joypad * (selected * mmioIoValue joypad - expected),
    mmioWriteSelectorValue joypad * (selected * mmioIoBeforeValue joypad - expected)]

/-- The write, power, DAC and trigger columns. -/
def constrainEventWitnesses (joypad auxiliary : Row R) : List R :=
  let one : R := ((1 : ℕ) : R)
  let write := mmioWriteSelectorValue joypad
  let power := mmioIoValueBit joypad 7
  let powerWrite := write * mmioAddressSelectorValue joypad 0x26
  [auxiliary apuWrite - write * total (apuAddresses.map (mmioAddressSelectorValue joypad)),
    auxiliary powerOff - powerWrite * (one - power),
    auxiliary powerOn - powerWrite * power] ++
    (List.range 4).flatMap (fun channel =>
      [auxiliary (dacWriteStart + channel) -
          auxiliary apuWrite * mmioAddressSelectorValue joypad (dacAddress channel),
        auxiliary (writtenDacEnabledStart + channel) - writtenDacEnabled joypad channel,
        auxiliary (triggerStart + channel) -
          auxiliary apuWrite * mmioAddressSelectorValue joypad (triggerAddress channel) * power,
        auxiliary (afterDacEnabledStart + channel) - dacEnabledFromPack auxiliary channel true])

/-- The control registers: cleared by power-off, else changed by a permitted write. -/
def constrainControlUpdates (joypad auxiliary : Row R) : List R :=
  let one : R := ((1 : ℕ) : R)
  let powered := stateBit auxiliary false 2 55
  controlAddresses.map (fun address =>
    let before := storedByte auxiliary address false
    let permission := if isLengthRegister address then one else powered
    let selected := auxiliary apuWrite * mmioAddressSelectorValue joypad address
    storedByte auxiliary address true - (one - auxiliary powerOff) *
      (before + permission * selected * (writtenStoredByte joypad address - before)))

/-- The wave RAM changes only by writing it. -/
def constrainWaveUpdates (joypad auxiliary : Row R) : List R :=
  waveAddresses.map (fun address =>
    let before := storedByte auxiliary address false
    let selected := auxiliary apuWrite * mmioAddressSelectorValue joypad address
    storedByte auxiliary address true - before - selected * (mmioIoValue joypad - before))

/-- The power bit and the channel status bits of NR52. -/
def constrainMasterStatus (auxiliary : Row R) : List R :=
  let one : R := ((1 : ℕ) : R)
  let beforePower := stateBit auxiliary false 2 55
  let off := auxiliary powerOff
  (stateBit auxiliary true 2 55 -
      (one - off) * (beforePower + auxiliary powerOn * (one - beforePower))) ::
    (List.range 4).map (fun channel =>
      let disabled := auxiliary (dacWriteStart + channel) *
        (one - auxiliary (writtenDacEnabledStart + channel))
      let retained := stateBit auxiliary false 2 (48 + channel) * (one - disabled)
      let activation := auxiliary (triggerStart + channel) *
        auxiliary (afterDacEnabledStart + channel)
      stateBit auxiliary true 2 (48 + channel) -
        (one - off) * (retained + (one - retained) * activation))

/-- The APU constraints of a row. -/
def constrainApu (joypad auxiliary : Row R) : List R :=
  let blockActive := blockActiveValue joypad
  ownedBits apuAuxColumnCount auxiliary (fun _ => blockActive) ++
    constrainPacks (boundaryPlane joypad) auxiliary ++
    constrainStorageMasks auxiliary ++
    constrainPoweredOffStates auxiliary ++
    constrainBusValues joypad auxiliary ++
    constrainEventWitnesses joypad auxiliary ++
    constrainControlUpdates joypad auxiliary ++
    constrainWaveUpdates joypad auxiliary ++
    constrainMasterStatus auxiliary

/-- Joypad relation plus the APU. -/
def evaluate (row : Row R) : List R :=
  BlockDeviceJoypad.evaluate row ++ constrainApu row (apuPlane row)

variable {S : Type*} [Add S] [Sub S] [Mul S] [NatCast S] (φ : ArithHom R S)

@[simp] theorem row_apuPlane (row : Row R) : φ.row (apuPlane row) = apuPlane (φ.row row) := rfl

@[simp] theorem map_stateBit (auxiliary : Row R) (after : Bool) (pack bit : ℕ) :
    φ (stateBit auxiliary after pack bit) = stateBit (φ.row auxiliary) after pack bit := rfl

@[simp] theorem map_storedByte (auxiliary : Row R) (address : ℕ) (after : Bool) :
    φ (storedByte auxiliary address after) = storedByte (φ.row auxiliary) address after := by
  simp [storedByte]

@[simp] theorem map_visibleByte (auxiliary : Row R) (address : ℕ) :
    φ (visibleByte auxiliary address) = visibleByte (φ.row auxiliary) address := by
  simp [visibleByte, apply_ite φ]

@[simp] theorem map_writtenStoredByte (joypad : Row R) (address : ℕ) :
    φ (writtenStoredByte joypad address) = writtenStoredByte (φ.row joypad) address := by
  simp [writtenStoredByte, Function.comp_def, apply_ite φ]

@[simp] theorem map_anyBits (bits : List R) : φ (anyBits bits) = anyBits (bits.map φ) := by
  simp [anyBits, Function.comp_def]

@[simp] theorem map_dacEnabledFromPack (auxiliary : Row R) (channel : ℕ) (after : Bool) :
    φ (dacEnabledFromPack auxiliary channel after) =
      dacEnabledFromPack (φ.row auxiliary) channel after := by
  simp [dacEnabledFromPack, Function.comp_def]

@[simp] theorem map_writtenDacEnabled (joypad : Row R) (channel : ℕ) :
    φ (writtenDacEnabled joypad channel) = writtenDacEnabled (φ.row joypad) channel := by
  simp [writtenDacEnabled, Function.comp_def]

@[simp] theorem map_constrainPacks (boundary auxiliary : Row R) :
    (constrainPacks boundary auxiliary).map φ =
      constrainPacks (φ.row boundary) (φ.row auxiliary) := by
  simp [constrainPacks, List.map_flatMap]

@[simp] theorem map_constrainStorageMasks (auxiliary : Row R) :
    (constrainStorageMasks auxiliary).map φ = constrainStorageMasks (φ.row auxiliary) := by
  simp [constrainStorageMasks, List.map_flatMap, apply_ite (List.map φ.toFun), Function.comp_def]

@[simp] theorem map_constrainPoweredOffStates (auxiliary : Row R) :
    (constrainPoweredOffStates auxiliary).map φ =
      constrainPoweredOffStates (φ.row auxiliary) := by
  simp [constrainPoweredOffStates, List.map_flatMap, apply_ite (List.map φ.toFun),
    Function.comp_def]

@[simp] theorem map_constrainEventWitnesses (joypad auxiliary : Row R) :
    (constrainEventWitnesses joypad auxiliary).map φ =
      constrainEventWitnesses (φ.row joypad) (φ.row auxiliary) := by
  simp [constrainEventWitnesses, List.map_flatMap, Function.comp_def]

@[simp] theorem map_constrainControlUpdates (joypad auxiliary : Row R) :
    (constrainControlUpdates joypad auxiliary).map φ =
      constrainControlUpdates (φ.row joypad) (φ.row auxiliary) := by
  simp [constrainControlUpdates, Function.comp_def, apply_ite φ]

@[simp] theorem map_constrainApu (joypad auxiliary : Row R) :
    (constrainApu joypad auxiliary).map φ = constrainApu (φ.row joypad) (φ.row auxiliary) := by
  simp [constrainApu, constrainBusValues, constrainWaveUpdates, constrainMasterStatus,
    Function.comp_def]

@[simp] theorem map_evaluate (row : Row R) : (evaluate row).map φ = evaluate (φ.row row) := by
  simp [evaluate]

end BlockDeviceApu

end Zksm83
