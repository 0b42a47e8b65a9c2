import Zksm83.Core.Transition
import Zksm83.Soundness.StateReading

/-!
# Reading the device state of a row

The device scalars before and after a block as a device state of the core. The register packs hold
one byte for each register, the lowest byte first, in the order of the packing functions of
`dmg.rs` and `dmg/apu.rs`.
-/

namespace Zksm83

open Constraint BlockBoundary BlockFrontend

namespace Reading

/-- A device scalar before or after the block, as a number. -/
def deviceScalar (row : Row NativeField) (after : Bool) (state : ℕ) : ℕ :=
  (deviceStateValue (boundaryPlane row) after state).val

/-- A byte of a register pack. -/
def packByte (row : Row NativeField) (after : Bool) (state index : ℕ) : ℕ :=
  deviceScalar row after state / 256 ^ index % 256

/-- The timer before or after the block. -/
def timerAt (row : Row NativeField) (after : Bool) : DmgTimerState where
  rawDiv := deviceScalar row after stateTimerDiv
  counter := deviceScalar row after stateTimerCounter
  modulo := packByte row after stateDmgLowRegisterPack 2
  control := packByte row after stateDmgLowRegisterPack 3
  edgeLatch := deviceScalar row after stateTimerEdgeLatch = 1
  reloadPhase := deviceScalar row after stateTimerReloadPhase

/-- The APU registers before or after the block. -/
def apuAt (row : Row NativeField) (after : Bool) : DmgApuState where
  registers :=
    (List.range 8).map (packByte row after stateApuControlLowPack) ++
      (List.range 8).map (packByte row after stateApuControlHighPack) ++
      (List.range 7).map (packByte row after stateApuMixerPack)
  waveRam :=
    (List.range 8).map (packByte row after stateApuWaveLowPack) ++
      (List.range 8).map (packByte row after stateApuWaveHighPack)

/-- The devices before or after the block. -/
def devicesAt (row : Row NativeField) (after : Bool) : DmgDeviceState where
  interruptRequest := deviceScalar row after stateInterruptRequest
  interruptEnable := deviceScalar row after stateInterruptEnable
  serialData := packByte row after stateDmgLowRegisterPack 0
  serialControl := packByte row after stateDmgLowRegisterPack 1
  serialCyclesRemaining :=
    packByte row after stateDmgHighRegisterPack 6 + 256 * packByte row after stateDmgHighRegisterPack 7
  timer := timerAt row after
  apu := apuAt row after
  lcdControl := packByte row after stateDmgLowRegisterPack 4
  lcdStatusControl := packByte row after stateDmgLowRegisterPack 5
  scrollY := packByte row after stateDmgLowRegisterPack 6
  scrollX := packByte row after stateDmgLowRegisterPack 7
  backgroundPalette := packByte row after stateDmgHighRegisterPack 0
  objectPaletteZero := packByte row after stateDmgHighRegisterPack 1
  objectPaletteOne := packByte row after stateDmgHighRegisterPack 2
  windowY := packByte row after stateDmgHighRegisterPack 3
  windowX := packByte row after stateDmgHighRegisterPack 4
  lineCompare := packByte row after stateDmgHighRegisterPack 5
  ppuLine := deviceScalar row after statePpuLine
  ppuDot := deviceScalar row after statePpuDot
  joypadSelect := packByte row after stateJoypadPack 0
  joypadButtons := packByte row after stateJoypadPack 1
  dmaSourceHigh := packByte row after stateDmaPack 0
  dmaIndex := packByte row after stateDmaPack 1
  dmaActive := packByte row after stateDmaPack 2 = 1
  dmaOwed := packByte row after stateDmaPack 3

/-- The boundary of the local scalars before or after the block. -/
def outerBoundary (after : Bool) : ℕ := if after then basicBlockInstructionBound else 0

/-- The state of the machine before or after the block. -/
def vmStateAt (row : Row NativeField) (after : Bool) : VmState where
  profile := profileAt row (outerBoundary after)
  cpu := cpuAt row (outerBoundary after)
  mbc3 := mbc3At row (outerBoundary after)
  dmgDevices := devicesAt row after
  inputNext := scalar row (outerBoundary after) stateInputNext
  outputNext := scalar row (outerBoundary after) stateOutputNext

end Reading

end Zksm83
