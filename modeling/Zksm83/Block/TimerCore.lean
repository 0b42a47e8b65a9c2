import Zksm83.Block.Serial

/-!
# Timer stages of packed blocks

The timer is constrained tick by tick: 24 stages of one T-cycle each, holding the timer state after
the tick, the state after the reload step, and the wrap and overflow flags. The long HALT rows are
constrained in closed form. After `block_device_timer_stage.rs`, `block_device_timer_core.rs` and
`block_device_timer_core/long.rs`.
-/

namespace Zksm83

open Constraint BlockMetadata BlockRouting BlockBoundary BlockFrontend BlockMachine
  BlockDeviceEnvelope BlockDevicePpu BlockDeviceSerial BlockDeviceTimer

namespace TimerStage

abbrev stageWidth : ℕ := 42
abbrev stageDivBitsOffset : ℕ := 0
abbrev stageCounterBitsOffset : ℕ := 16
abbrev stagePhaseBitsOffset : ℕ := 24
abbrev stageLatchOffset : ℕ := 27
abbrev stageInterruptOffset : ℕ := 28
abbrev stageReloadCounterBitsOffset : ℕ := 29
abbrev stageReloadPhaseBitsOffset : ℕ := 37
abbrev stageDivWrapOffset : ℕ := 40
abbrev stageCounterOverflowOffset : ℕ := 41
abbrev timerTickBound : ℕ := basicBlockMCycleBound * 4
abbrev timerStageColumnCount : ℕ := timerTickBound * stageWidth

end TimerStage

open TimerStage

namespace BlockDeviceTimerCore

abbrev timerCoreAuxStart : ℕ := BlockDeviceTimer.columnCount
abbrev quietSelector : ℕ := 0
abbrev beforeCounterBitsStart : ℕ := quietSelector + 1
abbrev beforePhaseBitsStart : ℕ := beforeCounterBitsStart + 8
abbrev beforeLatch : ℕ := beforePhaseBitsStart + 3
abbrev stageStart : ℕ := beforeLatch + 1
abbrev longTimerGapBitsStart : ℕ := stageStart + timerTickBound * stageWidth
abbrev longBeforeCounterBitsStart : ℕ := longTimerGapBitsStart + 2
abbrev longAfterCounterBitsStart : ℕ := longBeforeCounterBitsStart + 8
abbrev timerCoreAuxColumnCount : ℕ := longAfterCounterBitsStart + 8

/-- First column of the stages in a full row; the MMIO path reuses them. -/
abbrev sharedTimerStageColumnStart : ℕ := timerCoreAuxStart + stageStart

abbrev columnCount : ℕ := BlockDeviceTimer.columnCount + timerCoreAuxColumnCount

variable {R : Type*}

/-- The timer-core columns of a row. -/
def timerCorePlane (row : Row R) : Row R := slice row timerCoreAuxStart

/-- A column of a stage. -/
def stageIndex (tick offset : ℕ) : ℕ := tick * stageWidth + stageStart + offset

/-- A value of a stage. -/
def stageValue (auxiliary : Row R) (tick offset : ℕ) : R := auxiliary (stageIndex tick offset)

/-- The timer request bit after a tick. -/
def timerStageInterruptValue (row : Row R) (tick : ℕ) : R :=
  stageValue (timerCorePlane row) tick stageInterruptOffset

/-- Where a timer state is stored: before the block or after a tick. -/
inductive TimerStateSource where
  | before
  | stage (tick : ℕ)

/-- The first column of the reload phase of a stored state. -/
def TimerStateSource.phaseStart : TimerStateSource → ℕ
  | .before => beforePhaseBitsStart
  | .stage tick => stageIndex tick stagePhaseBitsOffset

/-- The state that a tick starts from. -/
def sourceOf : ℕ → TimerStateSource
  | 0 => .before
  | tick + 1 => .stage tick

/-- The values of a timer state. -/
structure TimerStateValues (R : Type*) where
  divider : R
  counter : R
  phase : R
  latch : R
  interrupt : R

variable [Add R] [Sub R] [Mul R] [NatCast R]

/-- A packed field of a stage. -/
def stagePacked (auxiliary : Row R) (tick offset width : ℕ) : R :=
  packedBits auxiliary (stageIndex tick offset) width

/-- The low bits of the divider before or after the block. -/
def packTimerDividerWidth (timer : Row R) (after : Bool) (width : ℕ) : R :=
  packed ((List.range width).map (timerDivBitValue timer after))

/-- The divider before or after the block. -/
def packTimerDivider (timer : Row R) (after : Bool) : R := packTimerDividerWidth timer after 16

/-- A byte of the low register pack before the block. -/
def lowPackByte (timer : Row R) (start : ℕ) : R :=
  packed ((List.range 8).map (fun bit => lowPackBitValue timer false (start + bit)))

/-- Whether an M-cycle slot of the block is used. -/
def cycleActive (timer : Row R) (cycle : ℕ) : R :=
  totalOver basicBlockInstructionBound (cycleOwnerValue timer cycle) +
    shortCycleActiveValue timer cycle

/-- The timer state after a tick. -/
def stageTimerState (auxiliary : Row R) (tick : ℕ) : TimerStateValues R where
  divider := stagePacked auxiliary tick stageDivBitsOffset 16
  counter := stagePacked auxiliary tick stageCounterBitsOffset 8
  phase := stagePacked auxiliary tick stagePhaseBitsOffset 3
  latch := stageValue auxiliary tick stageLatchOffset
  interrupt := stageValue auxiliary tick stageInterruptOffset

/-- The timer state before a tick; before the first one the acknowledged request is cleared. -/
def currentTimerState (timer auxiliary : Row R) : ℕ → TimerStateValues R
  | 0 => {
      divider := packTimerDivider timer false
      counter := packedBits auxiliary beforeCounterBitsStart 8
      phase := packedBits auxiliary beforePhaseBitsStart 3
      latch := auxiliary beforeLatch
      interrupt := interruptRequestBitValue timer false 2 *
        (((1 : ℕ) : R) - interruptSourceValue timer 2) }
  | tick + 1 => stageTimerState auxiliary tick

/-- The selector of a reload phase at a stored state. -/
def fixedPhaseSelector (auxiliary : Row R) (source : TimerStateSource) (expected : ℕ) : R :=
  bitSelector ((List.range 3).map (fun bit => auxiliary (source.phaseStart + bit))) expected

/-- The edge-detector input selected by TAC from four divider bits. -/
def selectDetector (timer : Row R) (divider : ℕ → R) : R :=
  let one : R := ((1 : ℕ) : R)
  let bitZero := lowPackBitValue timer false 24
  let bitOne := lowPackBitValue timer false 25
  let enabled := lowPackBitValue timer false 26
  enabled * ((one - bitZero) * (one - bitOne) * divider 9 + bitZero * (one - bitOne) * divider 3 +
    (one - bitZero) * bitOne * divider 5 + bitZero * bitOne * divider 7)

/-- The detector input after a tick. -/
def timerDetector (timer auxiliary : Row R) (tick : ℕ) : R :=
  selectDetector timer (fun bit => stageValue auxiliary tick (stageDivBitsOffset + bit))

/-- A reload phase is at most five. -/
def constrainPhaseRange (auxiliary : Row R) (start : ℕ) (quiet : R) : List R :=
  [quiet * auxiliary (start + 2) * auxiliary (start + 1)]

/-- Counter and phase after the reload step of a tick. -/
def constrainReload (timer auxiliary : Row R) (quiet : R) (source : TimerStateSource)
    (current : TimerStateValues R) (reloadCounter reloadPhase : R) : List R :=
  let one : R := ((1 : ℕ) : R)
  let phaseFive := fixedPhaseSelector auxiliary source 5
  let phaseNonzero := one - fixedPhaseSelector auxiliary source 0
  let modulo := lowPackByte timer 16
  [quiet * (reloadCounter - current.counter - phaseFive * (modulo - current.counter)),
    quiet * (reloadPhase - current.phase - phaseNonzero * (one - phaseFive) +
      phaseFive * current.phase)]

/-- Divider, counter, phase, latch and request after a tick; an inactive tick changes nothing. -/
def constrainTickTransition (timer auxiliary : Row R) (tick : ℕ) (quiet active : R)
    (current next : TimerStateValues R) (reloadCounter reloadPhase : R) : List R :=
  let one : R := ((1 : ℕ) : R)
  let wrap := stageValue auxiliary tick stageDivWrapOffset
  let overflow := stageValue auxiliary tick stageCounterOverflowOffset
  let detector := timerDetector timer auxiliary tick
  let falling := current.latch * (one - detector)
  let phaseFive := fixedPhaseSelector auxiliary (sourceOf tick) 5
  [quiet * wrap * (one - active),
    quiet * overflow * (one - active),
    quiet * overflow * (one - falling),
    quiet * (next.divider - current.divider - active + ((65536 : ℕ) : R) * active * wrap),
    quiet * (next.counter - current.counter - active *
      (reloadCounter - current.counter + falling - ((256 : ℕ) : R) * overflow)),
    quiet * (next.phase - current.phase - active *
      (reloadPhase - current.phase + overflow * (one - reloadPhase))),
    quiet * (next.latch - current.latch - active * (detector - current.latch)),
    quiet * (next.interrupt - current.interrupt - active * (one - current.interrupt) * phaseFive)]

/-- The constraints of one tick. -/
def constrainTick (timer auxiliary : Row R) (quiet : R) (tick : ℕ) : List R :=
  let active := cycleActive timer (tick / 4)
  let current := currentTimerState timer auxiliary tick
  let next := stageTimerState auxiliary tick
  let reloadCounter := stagePacked auxiliary tick stageReloadCounterBitsOffset 8
  let reloadPhase := stagePacked auxiliary tick stageReloadPhaseBitsOffset 3
  constrainPhaseRange auxiliary (stageIndex tick stagePhaseBitsOffset) quiet ++
    constrainPhaseRange auxiliary (stageIndex tick stageReloadPhaseBitsOffset) quiet ++
    constrainReload timer auxiliary quiet (sourceOf tick) current reloadCounter reloadPhase ++
    constrainTickTransition timer auxiliary tick quiet active current next reloadCounter reloadPhase

/-- The stored state before the first tick is the boundary state. -/
def constrainInitialState (boundary auxiliary : Row R) (quiet : R) : List R :=
  [quiet * (deviceStateValue boundary false stateTimerCounter -
      packedBits auxiliary beforeCounterBitsStart 8),
    quiet * (deviceStateValue boundary false stateTimerReloadPhase -
      packedBits auxiliary beforePhaseBitsStart 3),
    quiet * (deviceStateValue boundary false stateTimerEdgeLatch - auxiliary beforeLatch)] ++
    constrainPhaseRange auxiliary beforePhaseBitsStart quiet

/-- The state after the last tick is the boundary state. -/
def constrainFinalState (timer boundary auxiliary : Row R) (quiet : R) : List R :=
  let final := stageTimerState auxiliary (timerTickBound - 1)
  [quiet * (final.divider - packTimerDivider timer true),
    quiet * (final.counter - deviceStateValue boundary true stateTimerCounter),
    quiet * (final.phase - deviceStateValue boundary true stateTimerReloadPhase),
    quiet * (final.latch - deviceStateValue boundary true stateTimerEdgeLatch),
    quiet * (final.interrupt - interruptRequestBitValue timer true 2)]

/-- Long skips to VBlank or serial need a stopped timer, which they leave alone. -/
def constrainLongQuietTimer (timer boundary : Row R) : List R :=
  let long := haltUntilVblankValue timer + haltUntilSerialValue timer
  [long * lowPackBitValue timer false 26,
    long * deviceStateValue boundary false stateTimerReloadPhase,
    long * deviceStateValue boundary false stateTimerEdgeLatch,
    long * deviceStateValue boundary true stateTimerReloadPhase,
    long * deviceStateValue boundary true stateTimerEdgeLatch,
    long * (deviceStateValue boundary true stateTimerCounter -
      deviceStateValue boundary false stateTimerCounter),
    long * (interruptRequestBitValue timer true 2 - interruptRequestBitValue timer false 2)]

/-- The detector input before the block. -/
def initialTimerDetector (timer : Row R) : R :=
  selectDetector timer (timerDivBitValue timer false)

/-- The timer period, the divider modulo the period, and the selector of the fastest rate. -/
def timerPeriodAndRemainder (timer : Row R) : R × R × R :=
  let one : R := ((1 : ℕ) : R)
  let bitZero := lowPackBitValue timer false 24
  let bitOne := lowPackBitValue timer false 25
  let slow := (one - bitZero) * (one - bitOne)
  let fastest := bitZero * (one - bitOne)
  let medium := (one - bitZero) * bitOne
  let fast := bitZero * bitOne
  let period := ((1024 : ℕ) : R) * slow + ((16 : ℕ) : R) * fastest + ((64 : ℕ) : R) * medium +
    ((256 : ℕ) : R) * fast
  let remainder := slow * packTimerDividerWidth timer false 10 +
    fastest * packTimerDividerWidth timer false 4 + medium * packTimerDividerWidth timer false 6 +
    fast * packTimerDividerWidth timer false 8
  (period, remainder, fastest)

/-- The closed form of a skip to the timer interrupt. -/
def constrainLongTimer (timer boundary auxiliary : Row R) : List R :=
  let one : R := ((1 : ℕ) : R)
  let selected := haltUntilTimerValue timer
  let parts := timerPeriodAndRemainder timer
  let beforeCounter := packedBits auxiliary longBeforeCounterBitsStart 8
  let interruptTicks := parts.1 - parts.2.1 + (((255 : ℕ) : R) - beforeCounter) * parts.1 +
    ((5 : ℕ) : R)
  let cycles := stateDelta boundary stateCpuMCycles
  let gap := packedBits auxiliary longTimerGapBitsStart 2
  let gapThree := auxiliary longTimerGapBitsStart * auxiliary (longTimerGapBitsStart + 1)
  [selected * (lowPackBitValue timer false 26 - one),
    selected * deviceStateValue boundary false stateTimerReloadPhase,
    selected * (deviceStateValue boundary false stateTimerEdgeLatch - initialTimerDetector timer),
    selected * (((4 : ℕ) : R) * cycles - interruptTicks - gap),
    selected * (packedBits auxiliary longAfterCounterBitsStart 8 - lowPackByte timer 16),
    selected * deviceStateValue boundary true stateTimerReloadPhase,
    selected * (deviceStateValue boundary true stateTimerEdgeLatch - parts.2.2 * gapThree),
    selected * (interruptRequestBitValue timer true 2 - one)]

/-- The timer-core constraints of a row. -/
def constrainTimerCore (timer auxiliary : Row R) : List R :=
  let one : R := ((1 : ℕ) : R)
  let deviceIo := deviceIoSelectorValue timer
  let quiet := auxiliary quietSelector
  let longTimer := haltUntilTimerValue timer
  let long := haltUntilVblankValue timer + haltUntilSerialValue timer + longTimer
  let boundary := boundaryPlane timer
  [quiet * (quiet - one), quiet - shortDeviceClockedValue timer * (one - deviceIo)] ++
    ownedBits (stageStart - beforeCounterBitsStart) (slice auxiliary beforeCounterBitsStart)
      (fun _ => quiet) ++
    -- quiet and deviceIo exclude each other by the selector binding above
    ownedBits timerStageColumnCount (slice auxiliary stageStart) (fun _ => quiet + deviceIo) ++
    ownedBits 2 (slice auxiliary longTimerGapBitsStart) (fun _ => longTimer) ++
    ownedBits 8 (slice auxiliary longBeforeCounterBitsStart) (fun _ => long) ++
    ownedBits 8 (slice auxiliary longAfterCounterBitsStart) (fun _ => long) ++
    [long * (deviceStateValue boundary false stateTimerCounter -
        packedBits auxiliary longBeforeCounterBitsStart 8),
      long * (deviceStateValue boundary true stateTimerCounter -
        packedBits auxiliary longAfterCounterBitsStart 8)] ++
    constrainInitialState boundary auxiliary quiet ++
    (List.range timerTickBound).flatMap (constrainTick timer auxiliary quiet) ++
    constrainFinalState timer boundary auxiliary quiet ++
    constrainLongQuietTimer timer boundary ++
    constrainLongTimer timer boundary auxiliary

/-- Timer relation plus timer stages. -/
def evaluate (row : Row R) : List R :=
  BlockDeviceTimer.evaluate row ++ constrainTimerCore row (timerCorePlane row)

variable {S : Type*} [Add S] [Sub S] [Mul S] [NatCast S] (φ : ArithHom R S)

@[simp] theorem row_timerCorePlane (row : Row R) :
    φ.row (timerCorePlane row) = timerCorePlane (φ.row row) := rfl

@[simp] theorem map_stageValue (auxiliary : Row R) (tick offset : ℕ) :
    φ (stageValue auxiliary tick offset) = stageValue (φ.row auxiliary) tick offset := rfl

@[simp] theorem map_timerStageInterruptValue (row : Row R) (tick : ℕ) :
    φ (timerStageInterruptValue row tick) = timerStageInterruptValue (φ.row row) tick := rfl

@[simp] theorem map_stagePacked (auxiliary : Row R) (tick offset width : ℕ) :
    φ (stagePacked auxiliary tick offset width) =
      stagePacked (φ.row auxiliary) tick offset width := by
  simp [stagePacked]

@[simp] theorem map_packTimerDividerWidth (timer : Row R) (after : Bool) (width : ℕ) :
    φ (packTimerDividerWidth timer after width) =
      packTimerDividerWidth (φ.row timer) after width := by
  simp [packTimerDividerWidth, Function.comp_def]

@[simp] theorem map_packTimerDivider (timer : Row R) (after : Bool) :
    φ (packTimerDivider timer after) = packTimerDivider (φ.row timer) after := by
  simp [packTimerDivider]

@[simp] theorem map_lowPackByte (timer : Row R) (start : ℕ) :
    φ (lowPackByte timer start) = lowPackByte (φ.row timer) start := by
  simp [lowPackByte, Function.comp_def]

@[simp] theorem map_cycleActive (timer : Row R) (cycle : ℕ) :
    φ (cycleActive timer cycle) = cycleActive (φ.row timer) cycle := by
  simp [cycleActive]

/-- The image of a timer state, field by field. -/
def TimerStateValues.map (state : TimerStateValues R) : TimerStateValues S where
  divider := φ state.divider
  counter := φ state.counter
  phase := φ state.phase
  latch := φ state.latch
  interrupt := φ state.interrupt

@[simp] theorem map_stageTimerState (auxiliary : Row R) (tick : ℕ) :
    (stageTimerState auxiliary tick).map φ = stageTimerState (φ.row auxiliary) tick := by
  simp [stageTimerState, TimerStateValues.map]

@[simp] theorem map_currentTimerState (timer auxiliary : Row R) (tick : ℕ) :
    (currentTimerState timer auxiliary tick).map φ =
      currentTimerState (φ.row timer) (φ.row auxiliary) tick := by
  cases tick with
  | zero => simp [currentTimerState, TimerStateValues.map]
  | succ tick => simp [currentTimerState]

@[simp] theorem map_fixedPhaseSelector (auxiliary : Row R) (source : TimerStateSource)
    (expected : ℕ) :
    φ (fixedPhaseSelector auxiliary source expected) =
      fixedPhaseSelector (φ.row auxiliary) source expected := by
  simp [fixedPhaseSelector, Function.comp_def]

@[simp] theorem map_selectDetector (timer : Row R) (divider : ℕ → R) :
    φ (selectDetector timer divider) =
      selectDetector (φ.row timer) (fun bit => φ (divider bit)) := by
  simp [selectDetector]

@[simp] theorem map_constrainReload (timer auxiliary : Row R) (quiet : R)
    (source : TimerStateSource) (current : TimerStateValues R) (reloadCounter reloadPhase : R) :
    (constrainReload timer auxiliary quiet source current reloadCounter reloadPhase).map φ =
      constrainReload (φ.row timer) (φ.row auxiliary) (φ quiet) source (current.map φ)
        (φ reloadCounter) (φ reloadPhase) := by
  simp [constrainReload, TimerStateValues.map]

@[simp] theorem map_constrainTickTransition (timer auxiliary : Row R) (tick : ℕ)
    (quiet active : R) (current next : TimerStateValues R) (reloadCounter reloadPhase : R) :
    (constrainTickTransition timer auxiliary tick quiet active current next reloadCounter
        reloadPhase).map φ =
      constrainTickTransition (φ.row timer) (φ.row auxiliary) tick (φ quiet) (φ active)
        (current.map φ) (next.map φ) (φ reloadCounter) (φ reloadPhase) := by
  simp [constrainTickTransition, timerDetector, TimerStateValues.map]

@[simp] theorem map_constrainTick (timer auxiliary : Row R) (quiet : R) (tick : ℕ) :
    (constrainTick timer auxiliary quiet tick).map φ =
      constrainTick (φ.row timer) (φ.row auxiliary) (φ quiet) tick := by
  simp [constrainTick, constrainPhaseRange]

@[simp] theorem map_constrainInitialState (boundary auxiliary : Row R) (quiet : R) :
    (constrainInitialState boundary auxiliary quiet).map φ =
      constrainInitialState (φ.row boundary) (φ.row auxiliary) (φ quiet) := by
  simp [constrainInitialState, constrainPhaseRange]

@[simp] theorem map_constrainFinalState (timer boundary auxiliary : Row R) (quiet : R) :
    (constrainFinalState timer boundary auxiliary quiet).map φ =
      constrainFinalState (φ.row timer) (φ.row boundary) (φ.row auxiliary) (φ quiet) := by
  simp [constrainFinalState, stageTimerState]

@[simp] theorem map_constrainLongTimer (timer boundary auxiliary : Row R) :
    (constrainLongTimer timer boundary auxiliary).map φ =
      constrainLongTimer (φ.row timer) (φ.row boundary) (φ.row auxiliary) := by
  simp [constrainLongTimer, initialTimerDetector, timerPeriodAndRemainder]

@[simp] theorem map_constrainTimerCore (timer auxiliary : Row R) :
    (constrainTimerCore timer auxiliary).map φ =
      constrainTimerCore (φ.row timer) (φ.row auxiliary) := by
  simp [constrainTimerCore, constrainLongQuietTimer, List.map_flatMap]

@[simp] theorem map_evaluate (row : Row R) : (evaluate row).map φ = evaluate (φ.row row) := by
  simp [evaluate]

end BlockDeviceTimerCore

end Zksm83
