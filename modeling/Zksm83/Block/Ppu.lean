import Zksm83.Block.Machine

/-!
# PPU position of packed blocks

Decompositions of the low register pack and of the PPU line and dot before and after a block, and
the advance of the PPU position over device-clocked blocks without device I/O.
After `block_device_ppu.rs`.
-/

namespace Zksm83

open Constraint BlockMetadata BlockBoundary BlockFrontend BlockMachine BlockDeviceEnvelope

namespace BlockDevicePpu

abbrev ppuLineMaximum : ℕ := 153
abbrev ppuDotMaximum : ℕ := 455
abbrev ppuFrameTCycles : ℕ := 154 * 456
abbrev lcdEnableLowPackBit : ℕ := 39

abbrev ppuAuxStart : ℕ := BlockDeviceEnvelope.columnCount
abbrev beforeLowPackBitsStart : ℕ := 0
abbrev afterLowPackBitsStart : ℕ := beforeLowPackBitsStart + 64
abbrev beforeLineBitsStart : ℕ := afterLowPackBitsStart + 64
abbrev beforeDotBitsStart : ℕ := beforeLineBitsStart + 8
abbrev afterLineBitsStart : ℕ := beforeDotBitsStart + 9
abbrev afterDotBitsStart : ℕ := afterLineBitsStart + 8
abbrev beforeLineSlackBitsStart : ℕ := afterDotBitsStart + 9
abbrev beforeDotSlackBitsStart : ℕ := beforeLineSlackBitsStart + 8
abbrev afterLineSlackBitsStart : ℕ := beforeDotSlackBitsStart + 9
abbrev afterDotSlackBitsStart : ℕ := afterLineSlackBitsStart + 8
abbrev frameWrap : ℕ := afterDotSlackBitsStart + 9
abbrev ppuAuxColumnCount : ℕ := frameWrap + 1

abbrev columnCount : ℕ := BlockDeviceEnvelope.columnCount + ppuAuxColumnCount

variable {R : Type*}

/-- The PPU columns of a row. -/
def ppuPlane (row : Row R) : Row R := slice row ppuAuxStart

/-- A bit of the low register pack before or after the block. -/
def lowPackBitValue (row : Row R) (after : Bool) (bit : ℕ) : R :=
  row (ppuAuxStart + (if after then afterLowPackBitsStart else beforeLowPackBitsStart) + bit)

/-- A bit of the PPU line before or after the block. -/
def ppuLineBitValue (row : Row R) (after : Bool) (bit : ℕ) : R :=
  row (ppuAuxStart + (if after then afterLineBitsStart else beforeLineBitsStart) + bit)

/-- A bit of the PPU dot before or after the block. -/
def ppuDotBitValue (row : Row R) (after : Bool) (bit : ℕ) : R :=
  row (ppuAuxStart + (if after then afterDotBitsStart else beforeDotBitsStart) + bit)

variable [Add R] [Sub R] [Mul R] [NatCast R]

/-- The four PPU scalars of a block. -/
structure PpuPositions (R : Type*) where
  beforeLine : R
  beforeDot : R
  afterLine : R
  afterDot : R

/-- The PPU scalars read from the boundary plane. -/
def ppuPositions (boundary : Row R) : PpuPositions R where
  beforeLine := deviceStateValue boundary false statePpuLine
  beforeDot := deviceStateValue boundary false statePpuDot
  afterLine := deviceStateValue boundary true statePpuLine
  afterDot := deviceStateValue boundary true statePpuDot

/-- With the LCD on the position advances by four dots per M-cycle around the frame; with the LCD
off it is zero. -/
def constrainPositionAdvance (boundary auxiliary : Row R) (quiet : R)
    (positions : PpuPositions R) : List R :=
  let one : R := ((1 : ℕ) : R)
  let enabled := auxiliary (beforeLowPackBitsStart + lcdEnableLowPackBit)
  let disabled := one - enabled
  let beforePosition := positions.beforeLine * ((456 : ℕ) : R) + positions.beforeDot
  let afterPosition := positions.afterLine * ((456 : ℕ) : R) + positions.afterDot
  let cycles := stateDelta boundary stateCpuMCycles
  let wrap := auxiliary frameWrap
  [quiet * disabled * positions.beforeLine, quiet * disabled * positions.beforeDot,
    quiet * disabled * positions.afterLine, quiet * disabled * positions.afterDot,
    quiet * enabled * (afterPosition - beforePosition - ((4 : ℕ) : R) * cycles +
      ((ppuFrameTCycles : ℕ) : R) * wrap),
    quiet * disabled * wrap]

/-- A PPU scalar is its bits, and the slack bits bound it by `maximum`. -/
def constrainRange (auxiliary : Row R) (blockActive state : R)
    (bits slack width maximum : ℕ) : List R :=
  [blockActive * (state - packedBits auxiliary bits width),
    blockActive * (state + packedBits auxiliary slack width - (maximum : R))]

/-- Decompositions, ranges, the stable part of the low pack, and the position advance. -/
def constrainPpuTransition (boundary auxiliary : Row R) (blockActive quiet : R) : List R :=
  let positions := ppuPositions boundary
  [blockActive * (deviceStateValue boundary false stateDmgLowRegisterPack -
      packedBits auxiliary beforeLowPackBitsStart 64),
    blockActive * (deviceStateValue boundary true stateDmgLowRegisterPack -
      packedBits auxiliary afterLowPackBitsStart 64)] ++
    (List.range 48).map (fun bit =>
      quiet * (auxiliary (beforeLowPackBitsStart + (bit + 16)) -
        auxiliary (afterLowPackBitsStart + (bit + 16)))) ++
    constrainRange auxiliary blockActive positions.beforeLine beforeLineBitsStart
      beforeLineSlackBitsStart 8 ppuLineMaximum ++
    constrainRange auxiliary blockActive positions.beforeDot beforeDotBitsStart
      beforeDotSlackBitsStart 9 ppuDotMaximum ++
    constrainRange auxiliary blockActive positions.afterLine afterLineBitsStart
      afterLineSlackBitsStart 8 ppuLineMaximum ++
    constrainRange auxiliary blockActive positions.afterDot afterDotBitsStart
      afterDotSlackBitsStart 9 ppuDotMaximum ++
    constrainPositionAdvance boundary auxiliary quiet positions

/-- The LCD state that the long HALT skips require. -/
def constrainLongModePreconditions (envelope auxiliary : Row R) : List R :=
  let one : R := ((1 : ℕ) : R)
  let lcdEnabled := auxiliary (beforeLowPackBitsStart + lcdEnableLowPackBit)
  let vblank := haltUntilVblankValue envelope
  [vblank * (lcdEnabled - one), haltUntilSerialValue envelope * lcdEnabled,
    haltUntilTimerValue envelope * lcdEnabled,
    vblank * packedBits auxiliary (beforeLowPackBitsStart + 40) 8]

/-- The PPU constraints of a row. -/
def constrainPpu (envelope auxiliary : Row R) : List R :=
  let quiet := quietValue envelope
  let blockActive := blockActiveValue envelope
  ownedBits ppuAuxColumnCount auxiliary
      (fun column => if column = frameWrap then quiet else blockActive) ++
    constrainPpuTransition (boundaryPlane envelope) auxiliary blockActive quiet ++
    constrainLongModePreconditions envelope auxiliary

/-- Envelope relation plus PPU position. -/
def evaluate (row : Row R) : List R :=
  BlockDeviceEnvelope.evaluate row ++ constrainPpu row (ppuPlane row)

variable {S : Type*} [Add S] [Sub S] [Mul S] [NatCast S] (φ : ArithHom R S)

@[simp] theorem row_ppuPlane (row : Row R) : φ.row (ppuPlane row) = ppuPlane (φ.row row) := rfl

@[simp] theorem map_lowPackBitValue (row : Row R) (after : Bool) (bit : ℕ) :
    φ (lowPackBitValue row after bit) = lowPackBitValue (φ.row row) after bit := rfl

@[simp] theorem map_ppuLineBitValue (row : Row R) (after : Bool) (bit : ℕ) :
    φ (ppuLineBitValue row after bit) = ppuLineBitValue (φ.row row) after bit := rfl

@[simp] theorem map_ppuDotBitValue (row : Row R) (after : Bool) (bit : ℕ) :
    φ (ppuDotBitValue row after bit) = ppuDotBitValue (φ.row row) after bit := rfl

@[simp] theorem map_constrainPpuTransition (boundary auxiliary : Row R) (blockActive quiet : R) :
    (constrainPpuTransition boundary auxiliary blockActive quiet).map φ =
      constrainPpuTransition (φ.row boundary) (φ.row auxiliary) (φ blockActive) (φ quiet) := by
  simp [constrainPpuTransition, constrainRange, constrainPositionAdvance, ppuPositions,
    Function.comp_def]

@[simp] theorem map_constrainPpu (envelope auxiliary : Row R) :
    (constrainPpu envelope auxiliary).map φ = constrainPpu (φ.row envelope) (φ.row auxiliary) := by
  simp [constrainPpu, constrainLongModePreconditions, apply_ite φ]

@[simp] theorem map_evaluate (row : Row R) : (evaluate row).map φ = evaluate (φ.row row) := by
  simp [evaluate]

end BlockDevicePpu

end Zksm83
