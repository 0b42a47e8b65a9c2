import Zksm83.Block.Ppu

/-!
# Serial countdown and timer divider of packed blocks

Decompositions of the high register pack and of IF, the serial countdown with its completion, and
the free-running divider. After `block_device_serial.rs` and `block_device_timer.rs`.
-/

namespace Zksm83

open Constraint BlockMetadata BlockBoundary BlockFrontend BlockMachine BlockDeviceEnvelope
  BlockDevicePpu

namespace BlockDeviceSerial

abbrev serialAuxStart : ℕ := BlockDevicePpu.columnCount
abbrev beforeHighBitsStart : ℕ := 0
abbrev afterHighBitsStart : ℕ := beforeHighBitsStart + 64
abbrev beforeZeroProductsStart : ℕ := afterHighBitsStart + 64
abbrev afterZeroProductsStart : ℕ := beforeZeroProductsStart + 12
abbrev serialCompleted : ℕ := afterZeroProductsStart + 12
abbrev completionGapBitsStart : ℕ := serialCompleted + 1
abbrev beforeIfBitsStart : ℕ := completionGapBitsStart + 5
abbrev afterIfBitsStart : ℕ := beforeIfBitsStart + 5
abbrev serialAuxColumnCount : ℕ := afterIfBitsStart + 5

abbrev serialCountdownBitsStart : ℕ := 48
abbrev serialCountdownWidth : ℕ := 13
abbrev serialControlBitZero : ℕ := 8
abbrev serialControlBitSeven : ℕ := 15

abbrev columnCount : ℕ := BlockDevicePpu.columnCount + serialAuxColumnCount

variable {R : Type*}

/-- The serial columns of a row. -/
def serialPlane (row : Row R) : Row R := slice row serialAuxStart

/-- A bit of IF before or after the block. -/
def interruptRequestBitValue (row : Row R) (after : Bool) (bit : ℕ) : R :=
  row (serialAuxStart + (if after then afterIfBitsStart else beforeIfBitsStart) + bit)

/-- Whether a serial transfer completes in the block. -/
def serialCompletedValue (row : Row R) : R := row (serialAuxStart + serialCompleted)

/-- Whether the serial countdown is zero before or after the block. -/
def serialCountdownZeroValue (row : Row R) (after : Bool) : R :=
  row (serialAuxStart + (if after then afterZeroProductsStart else beforeZeroProductsStart) + 11)

/-- A bit of the T-cycles left over after a serial completion. -/
def serialCompletionGapBitValue (row : Row R) (bit : ℕ) : R :=
  row (serialAuxStart + completionGapBitsStart + bit)

/-- A bit of the high register pack before or after the block. -/
def highPackBitValue (row : Row R) (after : Bool) (bit : ℕ) : R :=
  row (serialAuxStart + (if after then afterHighBitsStart else beforeHighBitsStart) + bit)

variable [Add R] [Sub R] [Mul R] [NatCast R]

/-- The serial countdown, recomposed from the high pack bits at `highStart`. -/
def countdownBits (auxiliary : Row R) (highStart : ℕ) : R :=
  packedBits auxiliary (highStart + serialCountdownBitsStart) serialCountdownWidth

/-- The countdown is at most 4096. -/
def constrainCountdownRange (auxiliary : Row R) (highStart : ℕ) (active : R) : List R :=
  let countdown := highStart + serialCountdownBitsStart
  (List.range 3).map (fun bit => active * auxiliary (countdown + (bit + 13))) ++
    (List.range 12).map (fun bit =>
      active * auxiliary (countdown + 12) * auxiliary (countdown + bit))

/-- Decompositions of the high packs, their stable part, and the countdown ranges. -/
def constrainHighPacks (boundary auxiliary : Row R) (blockActive quiet : R) : List R :=
  [blockActive * (deviceStateValue boundary false stateDmgHighRegisterPack -
      packedBits auxiliary beforeHighBitsStart 64),
    blockActive * (deviceStateValue boundary true stateDmgHighRegisterPack -
      packedBits auxiliary afterHighBitsStart 64)] ++
    (List.range 48).map (fun bit =>
      quiet * (auxiliary (beforeHighBitsStart + bit) - auxiliary (afterHighBitsStart + bit))) ++
    constrainCountdownRange auxiliary beforeHighBitsStart blockActive ++
    constrainCountdownRange auxiliary afterHighBitsStart blockActive

/-- The running products of complemented countdown bits; the last one says the countdown is
zero. -/
def constrainZeroProducts (auxiliary : Row R) (bitsStart productsStart : ℕ) (active : R) :
    List R :=
  let one : R := ((1 : ℕ) : R)
  active * (auxiliary productsStart -
      (one - auxiliary bitsStart) * (one - auxiliary (bitsStart + 1))) ::
    (List.range (serialCountdownWidth - 2)).map (fun bit =>
      active * (auxiliary (productsStart + (bit + 1)) -
        auxiliary (productsStart + bit) * (one - auxiliary (bitsStart + (bit + 2)))))

/-- The T-cycles left over after a completion, as five bits. -/
def constrainCompletionGap (auxiliary : Row R) (quiet completed before ticks : R) : List R :=
  let one : R := ((1 : ℕ) : R)
  (List.range 5).map (fun bit =>
      quiet * (one - completed) * auxiliary (completionGapBitsStart + bit)) ++
    [quiet * completed * (packedBits auxiliary completionGapBitsStart 5 - ticks + before)]

/-- The countdown step over a quiet block, and the control bits of a running transfer. -/
def constrainCountdown (ppu boundary auxiliary : Row R) (blockActive quiet : R) : List R :=
  let one : R := ((1 : ℕ) : R)
  let beforeZero := auxiliary (beforeZeroProductsStart + 11)
  let afterZero := auxiliary (afterZeroProductsStart + 11)
  let active := one - beforeZero
  let completed := auxiliary serialCompleted
  let before := countdownBits auxiliary beforeHighBitsStart
  let after := countdownBits auxiliary afterHighBitsStart
  let ticks := ((4 : ℕ) : R) * stateDelta boundary stateCpuMCycles
  constrainZeroProducts auxiliary (beforeHighBitsStart + serialCountdownBitsStart)
      beforeZeroProductsStart blockActive ++
    constrainZeroProducts auxiliary (afterHighBitsStart + serialCountdownBitsStart)
      afterZeroProductsStart blockActive ++
    [quiet * (completed - active * afterZero),
      quiet * (after - before + active * (one - completed) * ticks + completed * before)] ++
    constrainCompletionGap auxiliary quiet completed before ticks ++
    [quiet * active * (lowPackBitValue ppu false serialControlBitZero - one),
      quiet * active * (lowPackBitValue ppu false serialControlBitSeven - one)]

/-- Serial data becomes `0xff` and the transfer bit clears on completion. -/
def constrainSerialRegisters (ppu auxiliary : Row R) (quiet : R) : List R :=
  let one : R := ((1 : ℕ) : R)
  let completed := auxiliary serialCompleted
  (List.range 8).map (fun bit =>
      let before := lowPackBitValue ppu false bit
      quiet * (lowPackBitValue ppu true bit - before - completed * (one - before))) ++
    (List.range 7).map (fun bit =>
      quiet * (lowPackBitValue ppu true (bit + 8) - lowPackBitValue ppu false (bit + 8))) ++
    [quiet * (lowPackBitValue ppu true serialControlBitSeven -
      lowPackBitValue ppu false serialControlBitSeven * (one - completed))]

/-- Decompositions of IF and the serial request bit. -/
def constrainSerialInterrupt (ppu boundary auxiliary : Row R) (blockActive quiet : R) : List R :=
  let one : R := ((1 : ℕ) : R)
  let before := auxiliary (beforeIfBitsStart + 3) * (one - interruptSourceValue ppu 3)
  let after := auxiliary (afterIfBitsStart + 3)
  let completed := auxiliary serialCompleted
  [blockActive * (deviceStateValue boundary false stateInterruptRequest -
      packedBits auxiliary beforeIfBitsStart 5),
    blockActive * (deviceStateValue boundary true stateInterruptRequest -
      packedBits auxiliary afterIfBitsStart 5),
    quiet * (after - before - (one - before) * completed)]

/-- The serial state that the long HALT skips require. -/
def constrainLongModes (ppu auxiliary : Row R) : List R :=
  let one : R := ((1 : ℕ) : R)
  let serial := haltUntilSerialValue ppu
  let vblank := haltUntilVblankValue ppu
  let timer := haltUntilTimerValue ppu
  [serial * (auxiliary serialCompleted - one),
    serial * packedBits auxiliary completionGapBitsStart 5,
    vblank * countdownBits auxiliary beforeHighBitsStart,
    vblank * lowPackBitValue ppu false serialControlBitSeven,
    timer * countdownBits auxiliary beforeHighBitsStart,
    timer * lowPackBitValue ppu false serialControlBitSeven]

/-- The serial constraints of a row. -/
def constrainSerial (ppu auxiliary : Row R) : List R :=
  let quiet := quietValue ppu
  let blockActive := blockActiveValue ppu
  let boundary := boundaryPlane ppu
  ownedBits serialAuxColumnCount auxiliary
      (fun column => if serialCompleted ≤ column ∧ column < beforeIfBitsStart then quiet
        else blockActive) ++
    constrainHighPacks boundary auxiliary blockActive quiet ++
    constrainCountdown ppu boundary auxiliary blockActive quiet ++
    constrainSerialRegisters ppu auxiliary quiet ++
    constrainSerialInterrupt ppu boundary auxiliary blockActive quiet ++
    constrainLongModes ppu auxiliary

/-- PPU relation plus serial countdown. -/
def evaluate (row : Row R) : List R :=
  BlockDevicePpu.evaluate row ++ constrainSerial row (serialPlane row)

variable {S : Type*} [Add S] [Sub S] [Mul S] [NatCast S] (φ : ArithHom R S)

@[simp] theorem row_serialPlane (row : Row R) :
    φ.row (serialPlane row) = serialPlane (φ.row row) := rfl

@[simp] theorem map_interruptRequestBitValue (row : Row R) (after : Bool) (bit : ℕ) :
    φ (interruptRequestBitValue row after bit) = interruptRequestBitValue (φ.row row) after bit :=
  rfl

@[simp] theorem map_serialCompletedValue (row : Row R) :
    φ (serialCompletedValue row) = serialCompletedValue (φ.row row) := rfl

@[simp] theorem map_serialCountdownZeroValue (row : Row R) (after : Bool) :
    φ (serialCountdownZeroValue row after) = serialCountdownZeroValue (φ.row row) after := rfl

@[simp] theorem map_serialCompletionGapBitValue (row : Row R) (bit : ℕ) :
    φ (serialCompletionGapBitValue row bit) = serialCompletionGapBitValue (φ.row row) bit := rfl

@[simp] theorem map_highPackBitValue (row : Row R) (after : Bool) (bit : ℕ) :
    φ (highPackBitValue row after bit) = highPackBitValue (φ.row row) after bit := rfl

@[simp] theorem map_constrainHighPacks (boundary auxiliary : Row R) (blockActive quiet : R) :
    (constrainHighPacks boundary auxiliary blockActive quiet).map φ =
      constrainHighPacks (φ.row boundary) (φ.row auxiliary) (φ blockActive) (φ quiet) := by
  simp [constrainHighPacks, constrainCountdownRange, Function.comp_def]

@[simp] theorem map_constrainCountdown (ppu boundary auxiliary : Row R) (blockActive quiet : R) :
    (constrainCountdown ppu boundary auxiliary blockActive quiet).map φ =
      constrainCountdown (φ.row ppu) (φ.row boundary) (φ.row auxiliary) (φ blockActive)
        (φ quiet) := by
  simp [constrainCountdown, constrainZeroProducts, constrainCompletionGap, countdownBits,
    Function.comp_def]

@[simp] theorem map_constrainSerial (ppu auxiliary : Row R) :
    (constrainSerial ppu auxiliary).map φ = constrainSerial (φ.row ppu) (φ.row auxiliary) := by
  simp [constrainSerial, constrainSerialRegisters, constrainSerialInterrupt, constrainLongModes,
    countdownBits, apply_ite φ, Function.comp_def]

@[simp] theorem map_evaluate (row : Row R) : (evaluate row).map φ = evaluate (φ.row row) := by
  simp [evaluate]

end BlockDeviceSerial

namespace BlockDeviceTimer

abbrev timerAuxStart : ℕ := BlockDeviceSerial.columnCount
abbrev beforeDivBitsStart : ℕ := 0
abbrev afterDivBitsStart : ℕ := beforeDivBitsStart + 16
abbrev divQuotientBitsStart : ℕ := afterDivBitsStart + 16
abbrev divQuotientWidth : ℕ := 5
abbrev timerAuxColumnCount : ℕ := divQuotientBitsStart + divQuotientWidth
abbrev timerDivModulus : ℕ := 2 ^ 16

abbrev columnCount : ℕ := BlockDeviceSerial.columnCount + timerAuxColumnCount

variable {R : Type*}

/-- The divider columns of a row. -/
def timerPlane (row : Row R) : Row R := slice row timerAuxStart

/-- A bit of the raw divider before or after the block. -/
def timerDivBitValue (row : Row R) (after : Bool) (bit : ℕ) : R :=
  row (timerAuxStart + (if after then afterDivBitsStart else beforeDivBitsStart) + bit)

variable [Add R] [Sub R] [Mul R] [NatCast R]

/-- The divider advances by four per M-cycle modulo 2^16 over quiet blocks. -/
def constrainTimer (serial auxiliary : Row R) : List R :=
  let quiet := quietValue serial
  let blockActive := blockActiveValue serial
  let boundary := boundaryPlane serial
  let before := deviceStateValue boundary false stateTimerDiv
  let after := deviceStateValue boundary true stateTimerDiv
  let cycles := stateDelta boundary stateCpuMCycles
  ownedBits timerAuxColumnCount auxiliary
      (fun column => if column < divQuotientBitsStart then blockActive else quiet) ++
    [blockActive * (before - packedBits auxiliary beforeDivBitsStart 16),
      blockActive * (after - packedBits auxiliary afterDivBitsStart 16),
      quiet * (after - before - ((4 : ℕ) : R) * cycles + ((timerDivModulus : ℕ) : R) *
        packedBits auxiliary divQuotientBitsStart divQuotientWidth)]

/-- Serial relation plus timer divider. -/
def evaluate (row : Row R) : List R :=
  BlockDeviceSerial.evaluate row ++ constrainTimer row (timerPlane row)

variable {S : Type*} [Add S] [Sub S] [Mul S] [NatCast S] (φ : ArithHom R S)

@[simp] theorem row_timerPlane (row : Row R) :
    φ.row (timerPlane row) = timerPlane (φ.row row) := rfl

@[simp] theorem map_timerDivBitValue (row : Row R) (after : Bool) (bit : ℕ) :
    φ (timerDivBitValue row after bit) = timerDivBitValue (φ.row row) after bit := rfl

@[simp] theorem map_evaluate (row : Row R) : (evaluate row).map φ = evaluate (φ.row row) := by
  simp [evaluate, constrainTimer, apply_ite φ]

end BlockDeviceTimer

end Zksm83
