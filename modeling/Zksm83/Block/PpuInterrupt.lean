import Zksm83.Block.TimerCore

/-!
# VBlank and STAT requests of packed blocks

The PPU signals before and after a block, whether the elapsed T-cycles cross a STAT boundary or
the start of VBlank, the request bits, and the minimality of HALT-idle batches.
After `block_device_ppu_interrupt.rs`.
-/

namespace Zksm83

open Constraint BlockMetadata BlockBoundary BlockFrontend BlockMachine BlockDeviceEnvelope
  BlockDevicePpu BlockDeviceSerial BlockDeviceTimerCore

/-- Disjunction of two bits. -/
def bitOr {R : Type*} [Add R] [Sub R] [Mul R] (left right : R) : R := left + right - left * right

/-- Equality of two bits. -/
def bitEqual {R : Type*} [Add R] [Sub R] [Mul R] [NatCast R] (left right : R) : R :=
  ((1 : ℕ) : R) - left - right + ((2 : ℕ) : R) * left * right

@[simp] theorem map_bitOr {R S : Type*} [Add R] [Sub R] [Mul R] [NatCast R] [Add S] [Sub S]
    [Mul S] [NatCast S] (φ : ArithHom R S) (left right : R) :
    φ (bitOr left right) = bitOr (φ left) (φ right) := by
  simp [bitOr]

@[simp] theorem map_bitEqual {R S : Type*} [Add R] [Sub R] [Mul R] [NatCast R] [Add S] [Sub S]
    [Mul S] [NatCast S] (φ : ArithHom R S) (left right : R) :
    φ (bitEqual left right) = bitEqual (φ left) (φ right) := by
  simp [bitEqual]

namespace BlockDevicePpuInterrupt

abbrev ppuInterruptAuxStart : ℕ := BlockDeviceTimerCore.columnCount
abbrev stateVblank : ℕ := 0
abbrev stateBelow80 : ℕ := 1
abbrev stateBelow252 : ℕ := 2
abbrev stateCoincidence : ℕ := 3
abbrev stateSignal : ℕ := 4
abbrev stateCoincidencePrefixStart : ℕ := 5
abbrev stateSignalInactivePrefixStart : ℕ := stateCoincidencePrefixStart + 8
abbrev stateDotHighPrefixStart : ℕ := stateSignalInactivePrefixStart + 4
abbrev stateWidth : ℕ := stateDotHighPrefixStart + 6
abbrev beforeStateStart : ℕ := 0
abbrev afterStateStart : ℕ := beforeStateStart + stateWidth
abbrev statBoundary : ℕ := afterStateStart + stateWidth
abbrev statGapBitsStart : ℕ := statBoundary + 1
abbrev statEvent : ℕ := statGapBitsStart + 9
abbrev vblankEvent : ℕ := statEvent + 1
abbrev vblankGapBitsStart : ℕ := vblankEvent + 1
abbrev finalPendingClearPrefixStart : ℕ := vblankGapBitsStart + 17
abbrev ppuInterruptAuxColumnCount : ℕ := finalPendingClearPrefixStart + 5

abbrev lineTCycles : ℕ := 456
abbrev frameTCycles : ℕ := 154 * lineTCycles
abbrev vblankTCycle : ℕ := 144 * lineTCycles

abbrev columnCount : ℕ := BlockDeviceTimerCore.columnCount + ppuInterruptAuxColumnCount

/-- First column of the signals before or after the block. -/
def stateStart (after : Bool) : ℕ := if after then afterStateStart else beforeStateStart

variable {R : Type*}

/-- The PPU-interrupt columns of a row. -/
def ppuInterruptPlane (row : Row R) : Row R := slice row ppuInterruptAuxStart

/-- A PPU signal before or after the block. -/
def stateValue (auxiliary : Row R) (after : Bool) (offset : ℕ) : R :=
  auxiliary (stateStart after + offset)

def ppuVblankValue (row : Row R) (after : Bool) : R :=
  stateValue (ppuInterruptPlane row) after stateVblank

def ppuBelow80Value (row : Row R) (after : Bool) : R :=
  stateValue (ppuInterruptPlane row) after stateBelow80

def ppuBelow252Value (row : Row R) (after : Bool) : R :=
  stateValue (ppuInterruptPlane row) after stateBelow252

def ppuCoincidenceValue (row : Row R) (after : Bool) : R :=
  stateValue (ppuInterruptPlane row) after stateCoincidence

def ppuSignalValue (row : Row R) (after : Bool) : R :=
  stateValue (ppuInterruptPlane row) after stateSignal

variable [Add R] [Sub R] [Mul R] [NatCast R]

/-- The T-cycles of the block. -/
def elapsedTCycles (boundary : Row R) : R := ((4 : ℕ) : R) * stateDelta boundary stateCpuMCycles

/-- LY = LYC, as a chain of bit equalities that starts at the block flag. -/
def constrainCoincidence (timerCore auxiliary : Row R) (after : Bool) (owner coincidence : R) :
    List R :=
  let prefixes := fun bit => auxiliary (stateStart after + stateCoincidencePrefixStart + bit)
  prefixChain 8 owner prefixes (fun bit =>
      bitEqual (ppuLineBitValue timerCore after bit) (highPackBitValue timerCore after (40 + bit))) ++
    [coincidence - prefixes 7]

/-- The four STAT sources gated by their enables. -/
def statSource (timerCore : Row R) (after : Bool) (vblank below80 below252 coincidence : R) :
    ℕ → R
  | 0 => lowPackBitValue timerCore after 43 * (((1 : ℕ) : R) - vblank) *
      (((1 : ℕ) : R) - below252)
  | 1 => lowPackBitValue timerCore after 44 * vblank
  | 2 => lowPackBitValue timerCore after 45 * (((1 : ℕ) : R) - vblank) * below80
  | _ => lowPackBitValue timerCore after 46 * coincidence

/-- The composite STAT signal, as a chain of inactive sources. -/
def constrainStatSignal (timerCore auxiliary : Row R) (after : Bool)
    (enabled vblank below80 below252 coincidence signal : R) : List R :=
  let prefixes := fun source =>
    auxiliary (stateStart after + stateSignalInactivePrefixStart + source)
  prefixChain 4 enabled prefixes (fun source =>
      ((1 : ℕ) : R) - statSource timerCore after vblank below80 below252 coincidence source) ++
    [signal - enabled + prefixes 3]

/-- The PPU signals before or after the block, from line, dot and LCD control. -/
def constrainInterruptState (timerCore auxiliary : Row R) (after : Bool) : List R :=
  let one : R := ((1 : ℕ) : R)
  let enabled := lowPackBitValue timerCore after 39
  let vblank := stateValue auxiliary after stateVblank
  let below80 := stateValue auxiliary after stateBelow80
  let below252 := stateValue auxiliary after stateBelow252
  let coincidence := stateValue auxiliary after stateCoincidence
  let signal := stateValue auxiliary after stateSignal
  let above79 := ppuDotBitValue timerCore after 6 *
    bitOr (ppuDotBitValue timerCore after 5) (ppuDotBitValue timerCore after 4)
  let dotPrefixes := fun index => auxiliary (stateStart after + stateDotHighPrefixStart + index)
  [vblank - enabled * ppuLineBitValue timerCore after 7 * ppuLineBitValue timerCore after 4,
    below80 - enabled * (one - ppuDotBitValue timerCore after 8) *
      (one - ppuDotBitValue timerCore after 7) * (one - above79)] ++
    prefixChain 6 one dotPrefixes (fun index => ppuDotBitValue timerCore after (index + 2)) ++
    [below252 - enabled * (one - ppuDotBitValue timerCore after 8) * (one - dotPrefixes 5)] ++
    constrainCoincidence timerCore auxiliary after (blockActiveValue timerCore) coincidence ++
    constrainStatSignal timerCore auxiliary after enabled vblank below80 below252 coincidence
      signal

/-- Whether `elapsed` reaches `distance`, with the difference in the gap bits. -/
def constrainComparison (auxiliary : Row R) (active elapsed distance : R)
    (eventIndex gapStart gapWidth : ℕ) : List R :=
  let one : R := ((1 : ℕ) : R)
  let event := auxiliary eventIndex
  let gap := packedBits auxiliary gapStart gapWidth
  [active * (gap - event * (elapsed - distance) - (one - event) * (distance - elapsed - one)),
    (one - active) * event, (one - active) * gap]

/-- Whether the block crosses the next mode boundary of the line, and the STAT edge. -/
def constrainStatInterval (timerCore boundary auxiliary : Row R) (quiet : R) : List R :=
  let one : R := ((1 : ℕ) : R)
  let enabled := lowPackBitValue timerCore false 39
  let active := quiet * enabled * (one - haltUntilVblankValue timerCore)
  let dot := deviceStateValue boundary false statePpuDot
  let below80 := stateValue auxiliary false stateBelow80
  let below252 := stateValue auxiliary false stateBelow252
  let middle := (one - below80) * below252
  let distance := ((80 : ℕ) : R) * below80 + ((252 : ℕ) : R) * middle +
    ((lineTCycles : ℕ) : R) * (one - below252) - dot
  constrainComparison auxiliary active (elapsedTCycles boundary) distance statBoundary
      statGapBitsStart 9 ++
    [auxiliary statEvent - auxiliary statBoundary *
      (one - stateValue auxiliary false stateSignal) * stateValue auxiliary true stateSignal]

/-- Whether the block reaches the start of VBlank. -/
def constrainVblankInterval (timerCore boundary auxiliary : Row R) (quiet : R) : List R :=
  let active := quiet * lowPackBitValue timerCore false 39
  let position := ((lineTCycles : ℕ) : R) * deviceStateValue boundary false statePpuLine +
    deviceStateValue boundary false statePpuDot
  let next := ((vblankTCycle : ℕ) : R) + ((frameTCycles : ℕ) : R) *
    stateValue auxiliary false stateVblank
  constrainComparison auxiliary active (position + elapsedTCycles boundary) next vblankEvent
    vblankGapBitsStart 17

/-- IF bit `bit` after the acknowledgement of an interrupt row. -/
def acknowledgedRequest (timerCore : Row R) (bit : ℕ) : R :=
  interruptRequestBitValue timerCore false bit *
    (((1 : ℕ) : R) - interruptSourceValue timerCore bit)

/-- The VBlank, STAT and joypad request bits over a quiet block. -/
def constrainInterruptBits (timerCore auxiliary : Row R) (quiet : R) : List R :=
  let one : R := ((1 : ℕ) : R)
  [quiet * (interruptRequestBitValue timerCore true 0 - acknowledgedRequest timerCore 0 -
      (one - acknowledgedRequest timerCore 0) * auxiliary vblankEvent),
    quiet * (interruptRequestBitValue timerCore true 1 - acknowledgedRequest timerCore 1 -
      (one - acknowledgedRequest timerCore 1) * auxiliary statEvent),
    quiet * (interruptRequestBitValue timerCore true 4 - acknowledgedRequest timerCore 4)]

/-- An enabled request in a HALT-idle batch falls into its last M-cycle. -/
def constrainHaltIdleEventGaps (timerCore auxiliary : Row R) (haltIdle : R) : List R :=
  let enabled := beforeInterruptEnableBitValue timerCore
  let vblank := haltIdle * enabled 0 * auxiliary vblankEvent
  let stat := haltIdle * enabled 1 * auxiliary statEvent
  let serial := haltIdle * enabled 3 * serialCompletedValue timerCore
  let timer := haltIdle * enabled 2
  (List.range 15).map (fun bit => vblank * auxiliary (vblankGapBitsStart + (bit + 2))) ++
    (List.range 7).map (fun bit => stat * auxiliary (statGapBitsStart + (bit + 2))) ++
    (List.range 3).map (fun bit => serial * serialCompletionGapBitValue timerCore (bit + 2)) ++
    (List.range 5).map (fun cycle => timer * shortCycleActiveValue timerCore (cycle + 1) *
      timerStageInterruptValue timerCore ((cycle + 1) * 4 - 1))

/-- A HALT-idle batch shorter than six M-cycles ends with an enabled request pending. -/
def constrainHaltIdleMinimality (timerCore auxiliary : Row R) (quiet : R) : List R :=
  let one : R := ((1 : ℕ) : R)
  let haltIdle := haltIdleValue timerCore
  let clear := fun bit => auxiliary (finalPendingClearPrefixStart + bit)
  prefixChain 5 quiet clear (fun bit => one - interruptRequestBitValue timerCore true bit *
      beforeInterruptEnableBitValue timerCore bit) ++
    [haltIdle * (one - shortCycleActiveValue timerCore 5) * clear 4] ++
    constrainHaltIdleEventGaps timerCore auxiliary haltIdle

/-- The PPU-interrupt constraints of a row. -/
def constrainPpuInterrupt (timerCore auxiliary : Row R) : List R :=
  let one : R := ((1 : ℕ) : R)
  let quiet := quietValue timerCore
  let blockActive := blockActiveValue timerCore
  let boundary := boundaryPlane timerCore
  let longVblank := haltUntilVblankValue timerCore
  ownedBits ppuInterruptAuxColumnCount auxiliary
      (fun column => if column < statBoundary then blockActive else quiet) ++
    constrainInterruptState timerCore auxiliary false ++
    constrainInterruptState timerCore auxiliary true ++
    constrainStatInterval timerCore boundary auxiliary quiet ++
    constrainVblankInterval timerCore boundary auxiliary quiet ++
    constrainInterruptBits timerCore auxiliary quiet ++
    constrainHaltIdleMinimality timerCore auxiliary quiet ++
    [longVblank * (auxiliary vblankEvent - one),
      longVblank * packedBits auxiliary vblankGapBitsStart 17]

/-- Timer-core relation plus PPU interrupts. -/
def evaluate (row : Row R) : List R :=
  BlockDeviceTimerCore.evaluate row ++ constrainPpuInterrupt row (ppuInterruptPlane row)

variable {S : Type*} [Add S] [Sub S] [Mul S] [NatCast S] (φ : ArithHom R S)

@[simp] theorem row_ppuInterruptPlane (row : Row R) :
    φ.row (ppuInterruptPlane row) = ppuInterruptPlane (φ.row row) := rfl

@[simp] theorem map_stateValue (auxiliary : Row R) (after : Bool) (offset : ℕ) :
    φ (stateValue auxiliary after offset) = stateValue (φ.row auxiliary) after offset := rfl

@[simp] theorem map_ppuVblankValue (row : Row R) (after : Bool) :
    φ (ppuVblankValue row after) = ppuVblankValue (φ.row row) after := rfl

@[simp] theorem map_ppuBelow80Value (row : Row R) (after : Bool) :
    φ (ppuBelow80Value row after) = ppuBelow80Value (φ.row row) after := rfl

@[simp] theorem map_ppuBelow252Value (row : Row R) (after : Bool) :
    φ (ppuBelow252Value row after) = ppuBelow252Value (φ.row row) after := rfl

@[simp] theorem map_ppuCoincidenceValue (row : Row R) (after : Bool) :
    φ (ppuCoincidenceValue row after) = ppuCoincidenceValue (φ.row row) after := rfl

@[simp] theorem map_ppuSignalValue (row : Row R) (after : Bool) :
    φ (ppuSignalValue row after) = ppuSignalValue (φ.row row) after := rfl

@[simp] theorem map_statSource (timerCore : Row R) (after : Bool)
    (vblank below80 below252 coincidence : R) (source : ℕ) :
    φ (statSource timerCore after vblank below80 below252 coincidence source) =
      statSource (φ.row timerCore) after (φ vblank) (φ below80) (φ below252) (φ coincidence)
        source := by
  unfold statSource
  split <;> simp

@[simp] theorem map_constrainInterruptState (timerCore auxiliary : Row R) (after : Bool) :
    (constrainInterruptState timerCore auxiliary after).map φ =
      constrainInterruptState (φ.row timerCore) (φ.row auxiliary) after := by
  simp [constrainInterruptState, constrainCoincidence, constrainStatSignal]

@[simp] theorem map_constrainComparison (auxiliary : Row R) (active elapsed distance : R)
    (eventIndex gapStart gapWidth : ℕ) :
    (constrainComparison auxiliary active elapsed distance eventIndex gapStart gapWidth).map φ =
      constrainComparison (φ.row auxiliary) (φ active) (φ elapsed) (φ distance) eventIndex
        gapStart gapWidth := by
  simp [constrainComparison]

@[simp] theorem map_elapsedTCycles (boundary : Row R) :
    φ (elapsedTCycles boundary) = elapsedTCycles (φ.row boundary) := by
  simp [elapsedTCycles]

@[simp] theorem map_constrainHaltIdleMinimality (timerCore auxiliary : Row R) (quiet : R) :
    (constrainHaltIdleMinimality timerCore auxiliary quiet).map φ =
      constrainHaltIdleMinimality (φ.row timerCore) (φ.row auxiliary) (φ quiet) := by
  simp [constrainHaltIdleMinimality, constrainHaltIdleEventGaps, Function.comp_def]

@[simp] theorem map_constrainPpuInterrupt (timerCore auxiliary : Row R) :
    (constrainPpuInterrupt timerCore auxiliary).map φ =
      constrainPpuInterrupt (φ.row timerCore) (φ.row auxiliary) := by
  simp [constrainPpuInterrupt, constrainStatInterval, constrainVblankInterval,
    constrainInterruptBits, acknowledgedRequest, apply_ite φ]

@[simp] theorem map_evaluate (row : Row R) : (evaluate row).map φ = evaluate (φ.row row) := by
  simp [evaluate]

end BlockDevicePpuInterrupt

end Zksm83
