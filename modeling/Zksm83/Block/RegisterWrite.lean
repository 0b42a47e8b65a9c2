import Zksm83.Block.Apu

/-!
# Register writes before the clock in packed blocks

A block with device I/O applies the register event first and clocks the devices afterwards. These
slices hold the state between the two for the serial engine, the timer, and the PPU, and describe
both steps. After `block_device_serial_mmio.rs`, `block_device_timer_mmio.rs` and
`block_device_ppu_mmio.rs`.
-/

namespace Zksm83

open Constraint BlockMetadata BlockBoundary BlockRouting BlockFrontend BlockMachine
  BlockDeviceEnvelope BlockDevicePpu BlockDeviceSerial BlockDeviceTimer BlockDeviceMmio
  BlockDevicePpuInterrupt

namespace BlockDeviceSerialMmio

abbrev serialMmioAuxStart : ℕ := BlockDeviceApu.columnCount
abbrev postDataBitsStart : ℕ := 0
abbrev postControlBitsStart : ℕ := postDataBitsStart + 8
abbrev postCountdownBitsStart : ℕ := postControlBitsStart + 8
abbrev postZeroProductsStart : ℕ := postCountdownBitsStart + 13
abbrev completed : ℕ := postZeroProductsStart + 12
abbrev completionGapBitsStart : ℕ := completed + 1
abbrev ff01Write : ℕ := completionGapBitsStart + 5
abbrev ff02Write : ℕ := ff01Write + 1
abbrev postIfThree : ℕ := ff02Write + 1
abbrev serialMmioAuxColumnCount : ℕ := postIfThree + 1

abbrev countdownWidth : ℕ := 13
abbrev countdownMaximum : ℕ := 4096

abbrev columnCount : ℕ := BlockDeviceApu.columnCount + serialMmioAuxColumnCount

variable {R : Type*}

/-- The serial register columns of a row. -/
def serialMmioPlane (row : Row R) : Row R := slice row serialMmioAuxStart

variable [Add R] [Sub R] [Mul R] [NatCast R]

/-- The serial countdown before or after the block. -/
def serialCountdown (row : Row R) (after : Bool) : R :=
  packed ((List.range countdownWidth).map (fun bit => highPackBitValue row after (48 + bit)))

/-- A byte of the low register pack before or after the block. -/
def packedLowByte (row : Row R) (after : Bool) (byte : ℕ) : R :=
  packed ((List.range 8).map (fun bit => lowPackBitValue row after (byte * 8 + bit)))

/-- Data, control, and countdown after the register event. -/
def constrainPostWriteState (apu auxiliary : Row R) (deviceIo ff01 ff02 : R) : List R :=
  let beforeData := packedLowByte apu false 0
  let postData := packedBits auxiliary postDataBitsStart 8
  let beforeControl := packedLowByte apu false 1
  let postControl := packedBits auxiliary postControlBitsStart 8
  let beforeCountdown := serialCountdown apu false
  let postCountdown := packedBits auxiliary postCountdownBitsStart countdownWidth
  let start := (countdownMaximum : R) * mmioIoValueBit apu 0 * mmioIoValueBit apu 7
  [deviceIo * (postData - beforeData) - ff01 * (mmioIoValue apu - beforeData),
    deviceIo * (postControl - beforeControl) - ff02 * (mmioIoValue apu - beforeControl),
    deviceIo * (postCountdown - beforeCountdown) - ff02 * (start - beforeCountdown)]

/-- The zero test and the range of the countdown after the register event. -/
def constrainPostCountdown (auxiliary : Row R) (deviceIo : R) : List R :=
  constrainZeroProducts auxiliary postCountdownBitsStart postZeroProductsStart deviceIo ++
    (List.range 12).map (fun bit => deviceIo * auxiliary (postCountdownBitsStart + 12) *
      auxiliary (postCountdownBitsStart + bit))

/-- The countdown step after the register event. -/
def constrainCountdownTransition (apu boundary auxiliary : Row R) (deviceIo : R) : List R :=
  let one : R := ((1 : ℕ) : R)
  let active := deviceIo * (one - auxiliary (postZeroProductsStart + 11))
  let done := auxiliary completed
  let post := packedBits auxiliary postCountdownBitsStart countdownWidth
  let after := serialCountdown apu true
  let ticks := ((4 : ℕ) : R) * stateDelta boundary stateCpuMCycles
  [done - active * serialCountdownZeroValue apu true,
    deviceIo * (after - post) + active * (one - done) * ticks + done * post] ++
    (List.range 5).map (fun bit =>
      deviceIo * (one - done) * auxiliary (completionGapBitsStart + bit)) ++
    [done * (packedBits auxiliary completionGapBitsStart 5 - ticks + post),
      active * (auxiliary postControlBitsStart - one),
      active * (auxiliary (postControlBitsStart + 7) - one)]

/-- Data and control after the clock. -/
def constrainRegisterCompletion (apu auxiliary : Row R) (deviceIo : R) : List R :=
  let one : R := ((1 : ℕ) : R)
  let done := auxiliary completed
  let postSeven := auxiliary (postControlBitsStart + 7)
  (List.range 8).map (fun bit =>
      let post := auxiliary (postDataBitsStart + bit)
      deviceIo * (lowPackBitValue apu true bit - post) - done * (one - post)) ++
    (List.range 7).map (fun bit =>
      deviceIo * (lowPackBitValue apu true (8 + bit) - auxiliary (postControlBitsStart + bit))) ++
    [deviceIo * (lowPackBitValue apu true 15 - postSeven) + done * postSeven]

/-- The serial request bit after the register event and after the clock. -/
def constrainSerialInterrupt (apu auxiliary : Row R) (deviceIo write : R) : List R :=
  let one : R := ((1 : ℕ) : R)
  let before := interruptRequestBitValue apu false 3
  let post := auxiliary postIfThree
  let ff0f := mmioAddressSelectorValue apu 0x0f * write
  [post - deviceIo * before - ff0f * (mmioIoValueBit apu 3 - before),
    deviceIo * (interruptRequestBitValue apu true 3 - post) - auxiliary completed * (one - post)]

/-- The serial register constraints of a row. -/
def constrainSerialMmio (apu auxiliary : Row R) : List R :=
  let deviceIo := deviceIoSelectorValue apu
  let write := mmioWriteSelectorValue apu
  let ff01 := auxiliary ff01Write
  let ff02 := auxiliary ff02Write
  ownedBits serialMmioAuxColumnCount auxiliary (fun _ => deviceIo) ++
    [ff01 - mmioAddressSelectorValue apu 0x01 * write,
      ff02 - mmioAddressSelectorValue apu 0x02 * write] ++
    constrainPostWriteState apu auxiliary deviceIo ff01 ff02 ++
    constrainPostCountdown auxiliary deviceIo ++
    constrainCountdownTransition apu (boundaryPlane apu) auxiliary deviceIo ++
    constrainRegisterCompletion apu auxiliary deviceIo ++
    constrainSerialInterrupt apu auxiliary deviceIo write

/-- APU relation plus the serial register events. -/
def evaluate (row : Row R) : List R :=
  BlockDeviceApu.evaluate row ++ constrainSerialMmio row (serialMmioPlane row)

variable {S : Type*} [Add S] [Sub S] [Mul S] [NatCast S] (φ : ArithHom R S)

@[simp] theorem row_serialMmioPlane (row : Row R) :
    φ.row (serialMmioPlane row) = serialMmioPlane (φ.row row) := rfl

@[simp] theorem map_serialCountdown (row : Row R) (after : Bool) :
    φ (serialCountdown row after) = serialCountdown (φ.row row) after := by
  simp [serialCountdown, Function.comp_def]

@[simp] theorem map_packedLowByte (row : Row R) (after : Bool) (byte : ℕ) :
    φ (packedLowByte row after byte) = packedLowByte (φ.row row) after byte := by
  simp [packedLowByte, Function.comp_def]

@[simp] theorem map_constrainSerialMmio (apu auxiliary : Row R) :
    (constrainSerialMmio apu auxiliary).map φ =
      constrainSerialMmio (φ.row apu) (φ.row auxiliary) := by
  simp [constrainSerialMmio, constrainPostWriteState, constrainPostCountdown,
    constrainZeroProducts, constrainCountdownTransition, constrainRegisterCompletion,
    constrainSerialInterrupt, Function.comp_def]

@[simp] theorem map_evaluate (row : Row R) : (evaluate row).map φ = evaluate (φ.row row) := by
  simp [evaluate]

end BlockDeviceSerialMmio

namespace BlockDeviceTimerMmio

open BlockDeviceTimerCore (TimerStateValues)

abbrev timerMmioAuxStart : ℕ := BlockDeviceSerialMmio.columnCount
abbrev beforePhaseBitsStart : ℕ := 0
abbrev postDivBitsStart : ℕ := beforePhaseBitsStart + 3
abbrev postCounterBitsStart : ℕ := postDivBitsStart + 16
abbrev postPhaseBitsStart : ℕ := postCounterBitsStart + 8
abbrev postLatch : ℕ := postPhaseBitsStart + 3
abbrev postModuloBitsStart : ℕ := postLatch + 1
abbrev postControlBitsStart : ℕ := postModuloBitsStart + 8
abbrev postIfTwo : ℕ := postControlBitsStart + 3
abbrev ff04Write : ℕ := postIfTwo + 1
abbrev ff05Write : ℕ := ff04Write + 1
abbrev ff06Write : ℕ := ff05Write + 1
abbrev ff07Write : ℕ := ff06Write + 1
abbrev ff05Read : ℕ := ff07Write + 1
abbrev ff0fWrite : ℕ := ff05Read + 1
abbrev timerMmioAuxColumnCount : ℕ := ff0fWrite + 1

abbrev columnCount : ℕ := BlockDeviceSerialMmio.columnCount + timerMmioAuxColumnCount

variable {R : Type*}

/-- The timer register columns of a row. -/
def timerMmioPlane (row : Row R) : Row R := slice row timerMmioAuxStart

/-- The tick stages, shared with the quiet timer core. -/
def sharedTimerStage (row : Row R) : Row R :=
  slice row BlockDeviceTimerCore.sharedTimerStageColumnStart

/-- A column of a shared stage. -/
def stageIndex (tick offset : ℕ) : ℕ := tick * TimerStage.stageWidth + offset

/-- A value of a shared stage. -/
def stageValue (stage : Row R) (tick offset : ℕ) : R := stage (stageIndex tick offset)

variable [Add R] [Sub R] [Mul R] [NatCast R]

/-- A packed field of a shared stage. -/
def stagePacked (stage : Row R) (tick offset width : ℕ) : R :=
  packedBits stage (stageIndex tick offset) width

/-- The divider before or after the block. -/
def timerDivider (row : Row R) (after : Bool) : R :=
  packed ((List.range 16).map (timerDivBitValue row after))

/-- The low bits of the written byte. -/
def packedMmioValue (row : Row R) (width : ℕ) : R :=
  packed ((List.range width).map (mmioIoValueBit row))

/-- The selector of a reload phase stored from `start` on. -/
def phaseSelector (row : Row R) (start expected : ℕ) : R :=
  bitSelector ((List.range 3).map (fun bit => row (start + bit))) expected

/-- Phases six and seven do not occur. -/
def constrainPhaseRange (row : Row R) (start : ℕ) (owner : R) : List R :=
  [owner * row (start + 2) * row (start + 1)]

/-- The timer state after a tick. -/
def stageState (stage : Row R) (tick : ℕ) : TimerStateValues R where
  divider := stagePacked stage tick TimerStage.stageDivBitsOffset 16
  counter := stagePacked stage tick TimerStage.stageCounterBitsOffset 8
  phase := stagePacked stage tick TimerStage.stagePhaseBitsOffset 3
  latch := stageValue stage tick TimerStage.stageLatchOffset
  interrupt := stageValue stage tick TimerStage.stageInterruptOffset

/-- The timer state before a tick: the post-event state, then the stages. -/
def currentState (auxiliary stage : Row R) : ℕ → TimerStateValues R
  | 0 => {
      divider := packedBits auxiliary postDivBitsStart 16
      counter := packedBits auxiliary postCounterBitsStart 8
      phase := packedBits auxiliary postPhaseBitsStart 3
      latch := auxiliary postLatch
      interrupt := auxiliary postIfTwo }
  | tick + 1 => stageState stage tick

/-- The row and first column that hold the phase a tick starts from. -/
def phaseSource (auxiliary stage : Row R) : ℕ → Row R × ℕ
  | 0 => (auxiliary, postPhaseBitsStart)
  | tick + 1 => (stage, stageIndex tick TimerStage.stagePhaseBitsOffset)

/-- The event selector columns. -/
def constrainEventSelectors (serial auxiliary : Row R) (read write : R) : List R :=
  [(ff04Write, 0x04, write), (ff05Write, 0x05, write), (ff06Write, 0x06, write),
    (ff07Write, 0x07, write), (ff05Read, 0x05, read), (ff0fWrite, 0x0f, write)].map
    (fun (selector : ℕ × ℕ × R) =>
      auxiliary selector.1 - mmioAddressSelectorValue serial selector.2.1 * selector.2.2)

/-- The reload phase before the block. -/
def constrainBeforePhase (boundary auxiliary : Row R) (deviceIo : R) : List R :=
  deviceIo * (deviceStateValue boundary false stateTimerReloadPhase -
      packedBits auxiliary beforePhaseBitsStart 3) ::
    constrainPhaseRange auxiliary beforePhaseBitsStart deviceIo

/-- The timer state after the register event. -/
def constrainPostState (serial boundary auxiliary : Row R) (deviceIo : R) : List R :=
  let one : R := ((1 : ℕ) : R)
  let ff04 := auxiliary ff04Write
  let ff05 := auxiliary ff05Write
  let ff06 := auxiliary ff06Write
  let ff07 := auxiliary ff07Write
  let ff0f := auxiliary ff0fWrite
  let beforeDiv := timerDivider serial false
  let beforeCounter := deviceStateValue boundary false stateTimerCounter
  let beforeModulo := BlockDeviceSerialMmio.packedLowByte serial false 2
  let phaseFive := phaseSelector auxiliary beforePhaseBitsStart 5
  let writtenCounter := phaseFive * beforeModulo + (one - phaseFive) * mmioIoValue serial
  let beforePhase := packedBits auxiliary beforePhaseBitsStart 3
  let beforeControl := BlockDeviceSerialMmio.packedLowByte serial false 3
  let beforeIf := interruptRequestBitValue serial false 2
  [deviceIo * (packedBits auxiliary postDivBitsStart 16 - beforeDiv) + ff04 * beforeDiv,
    deviceIo * (packedBits auxiliary postCounterBitsStart 8 - beforeCounter) -
      ff05 * (writtenCounter - beforeCounter) -
      ff06 * phaseFive * (mmioIoValue serial - beforeCounter),
    deviceIo * (packedBits auxiliary postPhaseBitsStart 3 - beforePhase) +
      ff05 * (one - phaseFive) * beforePhase] ++
    constrainPhaseRange auxiliary postPhaseBitsStart deviceIo ++
    [deviceIo * (auxiliary postLatch - deviceStateValue boundary false stateTimerEdgeLatch),
      deviceIo * (packedBits auxiliary postModuloBitsStart 8 - beforeModulo) -
        ff06 * (mmioIoValue serial - beforeModulo),
      deviceIo * (packedBits auxiliary postControlBitsStart 3 - beforeControl) -
        ff07 * (packedMmioValue serial 3 - beforeControl),
      deviceIo * (auxiliary postIfTwo - beforeIf) - ff0f * (mmioIoValueBit serial 2 - beforeIf)]

/-- The visible byte of FF05. -/
def constrainFf05Tuple (serial boundary auxiliary : Row R) : List R :=
  let counter := deviceStateValue boundary false stateTimerCounter
  let modulo := BlockDeviceSerialMmio.packedLowByte serial false 2
  let visible := counter + phaseSelector auxiliary beforePhaseBitsStart 5 * (modulo - counter)
  [auxiliary ff05Read * (mmioIoValue serial - visible),
    auxiliary ff05Write * (mmioIoBeforeValue serial - visible)]

/-- The timer input selected by the control bits after a tick's divider increment. -/
def timerDetector (auxiliary stage : Row R) (tick : ℕ) : R :=
  let one : R := ((1 : ℕ) : R)
  let zero := auxiliary postControlBitsStart
  let oneBit := auxiliary (postControlBitsStart + 1)
  let enabled := auxiliary (postControlBitsStart + 2)
  let divider := fun bit => stageValue stage tick (TimerStage.stageDivBitsOffset + bit)
  enabled * ((one - zero) * (one - oneBit) * divider 9 + zero * (one - oneBit) * divider 3 +
    (one - zero) * oneBit * divider 5 + zero * oneBit * divider 7)

/-- Whether the M-cycle of a tick belongs to the block. -/
def tickActive (serial : Row R) (tick : ℕ) (deviceIo : R) : R :=
  deviceIo * totalOver basicBlockInstructionBound (cycleOwnerValue serial (tick / 4))

/-- One T-cycle of the timer. -/
def constrainTickTransition (stage : Row R) (tick : ℕ)
    (deviceIo active detector reloadCounter reloadPhase phaseFive : R)
    (current : TimerStateValues R) : List R :=
  let one : R := ((1 : ℕ) : R)
  let next := stageState stage tick
  let wrap := stageValue stage tick TimerStage.stageDivWrapOffset
  let overflow := stageValue stage tick TimerStage.stageCounterOverflowOffset
  let falling := current.latch * (one - detector)
  [deviceIo * wrap * (one - active),
    deviceIo * overflow * (one - active),
    deviceIo * overflow * (one - falling),
    deviceIo * (next.divider - current.divider - active + ((65536 : ℕ) : R) * active * wrap),
    deviceIo * (next.counter - current.counter -
      active * (reloadCounter - current.counter + falling - ((256 : ℕ) : R) * overflow)),
    deviceIo * (next.phase - current.phase -
      active * (reloadPhase - current.phase + overflow * (one - reloadPhase))),
    deviceIo * (next.latch - current.latch - active * (detector - current.latch)),
    deviceIo * (next.interrupt - current.interrupt -
      active * (one - current.interrupt) * phaseFive)]

/-- The reload and the step of one T-cycle. -/
def constrainTick (serial auxiliary stage : Row R) (deviceIo : R) (tick : ℕ) : List R :=
  let one : R := ((1 : ℕ) : R)
  let current := currentState auxiliary stage tick
  let source := phaseSource auxiliary stage tick
  let reloadCounter := stagePacked stage tick TimerStage.stageReloadCounterBitsOffset 8
  let reloadPhase := stagePacked stage tick TimerStage.stageReloadPhaseBitsOffset 3
  let phaseFive := phaseSelector source.1 source.2 5
  let phaseZero := phaseSelector source.1 source.2 0
  let modulo := packedBits auxiliary postModuloBitsStart 8
  constrainPhaseRange source.1 source.2 deviceIo ++
    constrainPhaseRange stage (stageIndex tick TimerStage.stageReloadPhaseBitsOffset) deviceIo ++
    [deviceIo * (reloadCounter - current.counter - phaseFive * (modulo - current.counter)),
      deviceIo * (reloadPhase - current.phase - (one - phaseZero) * (one - phaseFive) +
        phaseFive * current.phase)] ++
    constrainTickTransition stage tick deviceIo (tickActive serial tick deviceIo)
      (timerDetector auxiliary stage tick) reloadCounter reloadPhase phaseFive current

/-- The last stage is the state after the block. -/
def constrainFinalState (serial boundary auxiliary stage : Row R) (deviceIo : R) : List R :=
  let last := stageState stage (TimerStage.timerTickBound - 1)
  [deviceIo * (last.divider - timerDivider serial true),
    deviceIo * (last.counter - deviceStateValue boundary true stateTimerCounter),
    deviceIo * (last.phase - deviceStateValue boundary true stateTimerReloadPhase),
    deviceIo * (last.latch - deviceStateValue boundary true stateTimerEdgeLatch),
    deviceIo * (last.interrupt - interruptRequestBitValue serial true 2),
    deviceIo * (packedBits auxiliary postModuloBitsStart 8 -
      BlockDeviceSerialMmio.packedLowByte serial true 2),
    deviceIo * (packedBits auxiliary postControlBitsStart 3 -
      BlockDeviceSerialMmio.packedLowByte serial true 3)]

/-- The timer register constraints of a row. -/
def constrainTimerMmio (serial auxiliary : Row R) : List R :=
  let deviceIo := deviceIoSelectorValue serial
  let stage := sharedTimerStage serial
  let boundary := boundaryPlane serial
  let read := mmioReadSelectorValue serial
  let write := mmioWriteSelectorValue serial
  ownedBits timerMmioAuxColumnCount auxiliary (fun _ => deviceIo) ++
    constrainEventSelectors serial auxiliary read write ++
    constrainBeforePhase boundary auxiliary deviceIo ++
    constrainPostState serial boundary auxiliary deviceIo ++
    constrainFf05Tuple serial boundary auxiliary ++
    (List.range TimerStage.timerTickBound).flatMap (constrainTick serial auxiliary stage deviceIo) ++
    constrainFinalState serial boundary auxiliary stage deviceIo

/-- Serial register relation plus the timer register events. -/
def evaluate (row : Row R) : List R :=
  BlockDeviceSerialMmio.evaluate row ++ constrainTimerMmio row (timerMmioPlane row)

variable {S : Type*} [Add S] [Sub S] [Mul S] [NatCast S] (φ : ArithHom R S)

@[simp] theorem row_timerMmioPlane (row : Row R) :
    φ.row (timerMmioPlane row) = timerMmioPlane (φ.row row) := rfl

@[simp] theorem row_sharedTimerStage (row : Row R) :
    φ.row (sharedTimerStage row) = sharedTimerStage (φ.row row) := rfl

@[simp] theorem map_stageValue (stage : Row R) (tick offset : ℕ) :
    φ (stageValue stage tick offset) = stageValue (φ.row stage) tick offset := rfl

@[simp] theorem map_stagePacked (stage : Row R) (tick offset width : ℕ) :
    φ (stagePacked stage tick offset width) = stagePacked (φ.row stage) tick offset width := by
  simp [stagePacked]

@[simp] theorem map_timerDivider (row : Row R) (after : Bool) :
    φ (timerDivider row after) = timerDivider (φ.row row) after := by
  simp [timerDivider, Function.comp_def]

@[simp] theorem map_packedMmioValue (row : Row R) (width : ℕ) :
    φ (packedMmioValue row width) = packedMmioValue (φ.row row) width := by
  simp [packedMmioValue, Function.comp_def]

@[simp] theorem map_phaseSelector (row : Row R) (start expected : ℕ) :
    φ (phaseSelector row start expected) = phaseSelector (φ.row row) start expected := by
  simp [phaseSelector, Function.comp_def]

@[simp] theorem map_constrainPhaseRange (row : Row R) (start : ℕ) (owner : R) :
    (constrainPhaseRange row start owner).map φ =
      constrainPhaseRange (φ.row row) start (φ owner) := by
  simp [constrainPhaseRange]

theorem map_stageState (stage : Row R) (tick : ℕ) :
    (stageState stage tick).map φ = stageState (φ.row stage) tick := by
  simp [stageState, TimerStateValues.map]

theorem map_currentState (auxiliary stage : Row R) (tick : ℕ) :
    (currentState auxiliary stage tick).map φ =
      currentState (φ.row auxiliary) (φ.row stage) tick := by
  cases tick with
  | zero => simp [currentState, TimerStateValues.map]
  | succ tick => exact map_stageState φ stage tick

theorem phaseSource_row (auxiliary stage : Row R) (tick : ℕ) :
    phaseSource (φ.row auxiliary) (φ.row stage) tick =
      (φ.row (phaseSource auxiliary stage tick).1, (phaseSource auxiliary stage tick).2) := by
  cases tick <;> rfl

@[simp] theorem map_timerDetector (auxiliary stage : Row R) (tick : ℕ) :
    φ (timerDetector auxiliary stage tick) =
      timerDetector (φ.row auxiliary) (φ.row stage) tick := by
  simp [timerDetector]

@[simp] theorem map_tickActive (serial : Row R) (tick : ℕ) (deviceIo : R) :
    φ (tickActive serial tick deviceIo) = tickActive (φ.row serial) tick (φ deviceIo) := by
  simp [tickActive]

@[simp] theorem map_constrainTickTransition (stage : Row R) (tick : ℕ)
    (deviceIo active detector reloadCounter reloadPhase phaseFive : R)
    (current : TimerStateValues R) :
    (constrainTickTransition stage tick deviceIo active detector reloadCounter reloadPhase
        phaseFive current).map φ =
      constrainTickTransition (φ.row stage) tick (φ deviceIo) (φ active) (φ detector)
        (φ reloadCounter) (φ reloadPhase) (φ phaseFive) (current.map φ) := by
  simp only [constrainTickTransition, ← map_stageState φ]
  simp [TimerStateValues.map]

@[simp] theorem map_constrainTick (serial auxiliary stage : Row R) (deviceIo : R) (tick : ℕ) :
    (constrainTick serial auxiliary stage deviceIo tick).map φ =
      constrainTick (φ.row serial) (φ.row auxiliary) (φ.row stage) (φ deviceIo) tick := by
  simp only [constrainTick, phaseSource_row, ← map_currentState φ]
  simp [TimerStateValues.map]

@[simp] theorem map_constrainPostState (serial boundary auxiliary : Row R) (deviceIo : R) :
    (constrainPostState serial boundary auxiliary deviceIo).map φ =
      constrainPostState (φ.row serial) (φ.row boundary) (φ.row auxiliary) (φ deviceIo) := by
  simp [constrainPostState]

@[simp] theorem map_constrainFinalState (serial boundary auxiliary stage : Row R) (deviceIo : R) :
    (constrainFinalState serial boundary auxiliary stage deviceIo).map φ =
      constrainFinalState (φ.row serial) (φ.row boundary) (φ.row auxiliary) (φ.row stage)
        (φ deviceIo) := by
  simp only [constrainFinalState, ← map_stageState φ]
  simp [TimerStateValues.map]

@[simp] theorem map_constrainTimerMmio (serial auxiliary : Row R) :
    (constrainTimerMmio serial auxiliary).map φ =
      constrainTimerMmio (φ.row serial) (φ.row auxiliary) := by
  simp [constrainTimerMmio, constrainEventSelectors, constrainBeforePhase, constrainFf05Tuple,
    List.map_flatMap]

@[simp] theorem map_evaluate (row : Row R) : (evaluate row).map φ = evaluate (φ.row row) := by
  simp [evaluate]

end BlockDeviceTimerMmio

namespace BlockDevicePpuMmio

abbrev ppuMmioAuxStart : ℕ := BlockDeviceTimerMmio.columnCount
abbrev postLineBitsStart : ℕ := 0
abbrev postDotBitsStart : ℕ := postLineBitsStart + 8
abbrev postStateStart : ℕ := postDotBitsStart + 9
abbrev lcdDisableWrite : ℕ := postStateStart + BlockDevicePpuInterrupt.stateWidth
abbrev baseIfZero : ℕ := lcdDisableWrite + 1
abbrev baseIfOne : ℕ := baseIfZero + 1
abbrev postIfOne : ℕ := baseIfOne + 1
abbrev immediateStatEvent : ℕ := postIfOne + 1
abbrev frameWrap : ℕ := immediateStatEvent + 1
abbrev statBoundary : ℕ := frameWrap + 1
abbrev statGapBitsStart : ℕ := statBoundary + 1
abbrev statEvent : ℕ := statGapBitsStart + 9
abbrev vblankEvent : ℕ := statEvent + 1
abbrev vblankGapBitsStart : ℕ := vblankEvent + 1
abbrev ppuMmioAuxColumnCount : ℕ := vblankGapBitsStart + 17

abbrev columnCount : ℕ := BlockDeviceTimerMmio.columnCount + ppuMmioAuxColumnCount

variable {R : Type*}

/-- The PPU register columns of a row. -/
def ppuMmioPlane (row : Row R) : Row R := slice row ppuMmioAuxStart

/-- A signal of the PPU state after the register event. -/
def stateValue (auxiliary : Row R) (offset : ℕ) : R := auxiliary (postStateStart + offset)

variable [Add R] [Sub R] [Mul R] [NatCast R]

/-- Line and dot after the register event: zero when it switches the LCD off. -/
def constrainPostPosition (timer boundary auxiliary : Row R) (deviceIo disable : R) : List R :=
  let one : R := ((1 : ℕ) : R)
  let disabled := one - lowPackBitValue timer false 39
  (List.range 8).map (fun bit => auxiliary (postLineBitsStart + bit) -
      deviceIo * ppuLineBitValue timer false bit * (one - disable)) ++
    (List.range 9).map (fun bit => auxiliary (postDotBitsStart + bit) -
      deviceIo * ppuDotBitValue timer false bit * (one - disable)) ++
    [deviceIo * disabled * deviceStateValue boundary false statePpuLine,
      deviceIo * disabled * deviceStateValue boundary false statePpuDot]

/-- LY = LYC after the register event. -/
def constrainPostCoincidence (timer auxiliary : Row R) (owner coincidence : R) : List R :=
  let prefixes := fun bit => stateValue auxiliary (stateCoincidencePrefixStart + bit)
  prefixChain 8 owner prefixes (fun bit => bitEqual (auxiliary (postLineBitsStart + bit))
      (highPackBitValue timer true (40 + bit))) ++
    [coincidence - prefixes 7]

/-- The composite STAT signal after the register event. -/
def constrainPostSignal (timer auxiliary : Row R)
    (activeEnabled vblank below80 below252 coincidence signal : R) : List R :=
  let prefixes := fun source => stateValue auxiliary (stateSignalInactivePrefixStart + source)
  prefixChain 4 activeEnabled prefixes (fun source =>
      ((1 : ℕ) : R) - statSource timer true vblank below80 below252 coincidence source) ++
    [signal - activeEnabled + prefixes 3]

/-- The PPU signals after the register event. -/
def constrainPostState (timer auxiliary : Row R) (deviceIo : R) : List R :=
  let one : R := ((1 : ℕ) : R)
  let activeEnabled := deviceIo * lowPackBitValue timer true 39
  let vblank := stateValue auxiliary stateVblank
  let below80 := stateValue auxiliary stateBelow80
  let below252 := stateValue auxiliary stateBelow252
  let coincidence := stateValue auxiliary stateCoincidence
  let signal := stateValue auxiliary stateSignal
  let line := fun bit => auxiliary (postLineBitsStart + bit)
  let dot := fun bit => auxiliary (postDotBitsStart + bit)
  let above79 := dot 6 * bitOr (dot 5) (dot 4)
  let dotPrefixes := fun index => stateValue auxiliary (stateDotHighPrefixStart + index)
  [vblank - activeEnabled * line 7 * line 4,
    below80 - activeEnabled * (one - dot 8) * (one - dot 7) * (one - above79)] ++
    prefixChain 6 deviceIo dotPrefixes (fun index => dot (index + 2)) ++
    [below252 - activeEnabled * (one - dot 8) * (one - dotPrefixes 5)] ++
    constrainPostCoincidence timer auxiliary deviceIo coincidence ++
    constrainPostSignal timer auxiliary activeEnabled vblank below80 below252 coincidence signal

/-- The visible byte of FF41. -/
def constrainLcdStatusTuple (timer : Row R) (read write : R) : List R :=
  let one : R := ((1 : ℕ) : R)
  let vblank := ppuVblankValue timer false
  let mode := vblank + (one - vblank) * ppuBelow252Value timer false *
    (((3 : ℕ) : R) - ppuBelow80Value timer false)
  let visible := ((0x80 : ℕ) : R) + ((4 : ℕ) : R) * ppuCoincidenceValue timer false + mode +
    total ((List.range' 3 4).map (fun bit =>
      ((2 ^ bit : ℕ) : R) * lowPackBitValue timer false (40 + bit)))
  let ff41 := mmioAddressSelectorValue timer 0x41
  [ff41 * read * (mmioIoValue timer - visible), ff41 * write * (mmioIoBeforeValue timer - visible)]

/-- A STAT request raised by the register write itself. -/
def constrainImmediateStat (timer auxiliary : Row R) (write : R) : List R :=
  let relevant := write * (mmioAddressSelectorValue timer 0x40 +
    mmioAddressSelectorValue timer 0x41 + mmioAddressSelectorValue timer 0x45)
  [auxiliary immediateStatEvent - relevant * (((1 : ℕ) : R) - ppuSignalValue timer false) *
    stateValue auxiliary stateSignal]

/-- The VBlank and STAT request bits through both steps. -/
def constrainInterrupts (timer auxiliary : Row R) (deviceIo write : R) : List R :=
  let one : R := ((1 : ℕ) : R)
  let ff0f := mmioAddressSelectorValue timer 0x0f * write
  let base := fun (bit column : ℕ) =>
    auxiliary column - deviceIo * interruptRequestBitValue timer false bit -
      ff0f * (mmioIoValueBit timer bit - interruptRequestBitValue timer false bit)
  [base 0 baseIfZero, base 1 baseIfOne,
    auxiliary postIfOne - auxiliary baseIfOne -
      auxiliary immediateStatEvent * (one - auxiliary baseIfOne),
    deviceIo * (interruptRequestBitValue timer true 0 - auxiliary baseIfZero) -
      auxiliary vblankEvent * (one - auxiliary baseIfZero),
    deviceIo * (interruptRequestBitValue timer true 1 - auxiliary postIfOne) -
      auxiliary statEvent * (one - auxiliary postIfOne)]

/-- The position after the clock. -/
def constrainClockedPosition (timer boundary auxiliary : Row R) (deviceIo : R) : List R :=
  let one : R := ((1 : ℕ) : R)
  let enabled := lowPackBitValue timer true 39
  let postLine := packedBits auxiliary postLineBitsStart 8
  let postDot := packedBits auxiliary postDotBitsStart 9
  let afterLine := deviceStateValue boundary true statePpuLine
  let afterDot := deviceStateValue boundary true statePpuDot
  let wrap := auxiliary frameWrap
  [deviceIo * (one - enabled) * postLine,
    deviceIo * (one - enabled) * postDot,
    deviceIo * enabled * (afterLine * (lineTCycles : R) + afterDot - postLine * (lineTCycles : R) -
      postDot - elapsedTCycles boundary + (frameTCycles : R) * wrap),
    deviceIo * (one - enabled) * afterLine,
    deviceIo * (one - enabled) * afterDot,
    deviceIo * (one - enabled) * wrap]

/-- The STAT edge of the clock. -/
def constrainStatInterval (timer boundary auxiliary : Row R) (deviceIo : R) : List R :=
  let one : R := ((1 : ℕ) : R)
  let below80 := stateValue auxiliary stateBelow80
  let below252 := stateValue auxiliary stateBelow252
  let middle := (one - below80) * below252
  let distance := ((80 : ℕ) : R) * below80 + ((252 : ℕ) : R) * middle +
    (lineTCycles : R) * (one - below252) - packedBits auxiliary postDotBitsStart 9
  constrainComparison auxiliary (deviceIo * lowPackBitValue timer true 39)
      (elapsedTCycles boundary) distance statBoundary statGapBitsStart 9 ++
    [auxiliary statEvent - auxiliary statBoundary * (one - stateValue auxiliary stateSignal) *
      ppuSignalValue timer true]

/-- The VBlank edge of the clock. -/
def constrainVblankInterval (timer boundary auxiliary : Row R) (deviceIo : R) : List R :=
  let position := (lineTCycles : R) * packedBits auxiliary postLineBitsStart 8 +
    packedBits auxiliary postDotBitsStart 9
  let next := (vblankTCycle : R) + (frameTCycles : R) * stateValue auxiliary stateVblank
  constrainComparison auxiliary (deviceIo * lowPackBitValue timer true 39)
    (position + elapsedTCycles boundary) next vblankEvent vblankGapBitsStart 17

/-- The PPU register constraints of a row. -/
def constrainPpuMmio (timer auxiliary : Row R) : List R :=
  let deviceIo := deviceIoSelectorValue timer
  let boundary := boundaryPlane timer
  let write := mmioWriteSelectorValue timer
  let disable := auxiliary lcdDisableWrite
  ownedBits ppuMmioAuxColumnCount auxiliary (fun _ => deviceIo) ++
    [disable - mmioAddressSelectorValue timer 0x40 * write *
      (((1 : ℕ) : R) - mmioIoValueBit timer 7)] ++
    constrainPostPosition timer boundary auxiliary deviceIo disable ++
    constrainPostState timer auxiliary deviceIo ++
    constrainLcdStatusTuple timer (mmioReadSelectorValue timer) write ++
    constrainImmediateStat timer auxiliary write ++
    constrainInterrupts timer auxiliary deviceIo write ++
    constrainClockedPosition timer boundary auxiliary deviceIo ++
    constrainStatInterval timer boundary auxiliary deviceIo ++
    constrainVblankInterval timer boundary auxiliary deviceIo

/-- Timer register relation plus the PPU register events. -/
def evaluate (row : Row R) : List R :=
  BlockDeviceTimerMmio.evaluate row ++ constrainPpuMmio row (ppuMmioPlane row)

variable {S : Type*} [Add S] [Sub S] [Mul S] [NatCast S] (φ : ArithHom R S)

@[simp] theorem row_ppuMmioPlane (row : Row R) :
    φ.row (ppuMmioPlane row) = ppuMmioPlane (φ.row row) := rfl

@[simp] theorem map_stateValue (auxiliary : Row R) (offset : ℕ) :
    φ (stateValue auxiliary offset) = stateValue (φ.row auxiliary) offset := rfl

@[simp] theorem map_constrainPostState (timer auxiliary : Row R) (deviceIo : R) :
    (constrainPostState timer auxiliary deviceIo).map φ =
      constrainPostState (φ.row timer) (φ.row auxiliary) (φ deviceIo) := by
  simp [constrainPostState, constrainPostCoincidence, constrainPostSignal]

@[simp] theorem map_constrainClockedPosition (timer boundary auxiliary : Row R) (deviceIo : R) :
    (constrainClockedPosition timer boundary auxiliary deviceIo).map φ =
      constrainClockedPosition (φ.row timer) (φ.row boundary) (φ.row auxiliary) (φ deviceIo) := by
  simp [constrainClockedPosition]

@[simp] theorem map_constrainPpuMmio (timer auxiliary : Row R) :
    (constrainPpuMmio timer auxiliary).map φ = constrainPpuMmio (φ.row timer) (φ.row auxiliary) := by
  simp [constrainPpuMmio, constrainPostPosition, constrainLcdStatusTuple, constrainImmediateStat,
    constrainInterrupts, constrainStatInterval, constrainVblankInterval, Function.comp_def]

@[simp] theorem map_evaluate (row : Row R) : (evaluate row).map φ = evaluate (φ.row row) := by
  simp [evaluate]

end BlockDevicePpuMmio

end Zksm83
