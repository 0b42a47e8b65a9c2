import Zksm83.Core.DeviceInvariant
import Zksm83.Soundness.InterruptDispatch
import Zksm83.Soundness.WrittenRows

/-!
# Sleeping rows that the core does not take

The machine relation leaves the choice between the sleeping modes to the device slices. The first row
below idles for six M-cycles where the core skips to the next VBlank, the second skips to a VBlank
with the LCD off, where the core idles.
-/

namespace Zksm83

open Constraint BlockMetadata BlockBoundary BlockFrontend BlockMachine Reading
open IsaTable (bitList)

namespace Forgery

/-- A row satisfies the machine relation if its constraints vanish over residues. -/
theorem holds_machine_nativeRow {number : ℕ}
    (hzero : Residue.allZero
      (BlockMachine.evaluate (Assignment.residueRow fieldModulus 128 number)) = true) :
    Holds (BlockMachine.evaluate (nativeRow number)) := by
  rw [nativeRow, ← BlockMachine.map_evaluate]
  exact Residue.holds_of_allZero hzero

/-- The CPU state around a sleeping row: halted, HL = 0xc000, profile 4. -/
def sleepState (cycles : ℕ) : List ℕ :=
  [0, 0, 0, 0, 0, 0xc0, 0, 0, 0x100, 0xfffe, 0, 1, cycles, 0, 1, 0, 0, 0, 0, 0, 4]

/-- A sleeping row with IE = 1 and IF = 0 that takes some M-cycles; the low register pack holds the
serial control and the LCD control. -/
def sleepCells (mode cycles lowPack : ℕ) (active : List ℕ) : Assignment :=
  metadataCells [1, 0, 0, 0, 0, 0] ++ localCells 0 (sleepState 0) ++
    localCells 4 (sleepState cycles) ++ deviceCells [0, 1, lowPack] [0, 1, lowPack] ++
    isaCells [isaPaddingAddress, isaPaddingAddress, isaPaddingAddress, isaPaddingAddress] ++
    [(machineAuxStart + mode, [1]),
      (machineAuxStart + beforeIfBitsStart,
        bitList 0 5 ++ bitList 1 5 ++ bitList 0x100 16 ++ bitList 0xfffe 16),
      (machineAuxStart + pendingClearPrefixStart, bitList 0x1f 5),
      (machineAuxStart + shortCycleActiveStart, active)]

/-- Six idle M-cycles with the LCD on. -/
def idleNumber : ℕ :=
  Assignment.packed 128 (sleepCells haltIdleMode 6 0x9100007e00 (bitList 0x3f 6))

/-- A skip to VBlank of one M-cycle with the LCD off. -/
def skipNumber : ℕ := Assignment.packed 128 (sleepCells haltUntilVBlankMode 1 0x7e00 [])

/-- Devices with IE = 1 whose other registers are zero but for the low register pack. -/
def sleepDevices (lowPack : ℕ) : DmgDeviceState where
  interruptRequest := 0
  interruptEnable := 1
  serialData := lowPack % 256
  serialControl := lowPack / 256 % 256
  serialCyclesRemaining := 0
  timer := ⟨0, 0, lowPack / 256 ^ 2 % 256, lowPack / 256 ^ 3 % 256, false, 0⟩
  apu := ⟨List.replicate 23 0, List.replicate 16 0⟩
  lcdControl := lowPack / 256 ^ 4 % 256
  lcdStatusControl := lowPack / 256 ^ 5 % 256
  scrollY := lowPack / 256 ^ 6 % 256
  scrollX := lowPack / 256 ^ 7 % 256
  backgroundPalette := 0
  objectPaletteZero := 0
  objectPaletteOne := 0
  windowY := 0
  windowX := 0
  lineCompare := 0
  ppuLine := 0
  ppuDot := 0
  joypadSelect := 0
  joypadButtons := 0
  dmaSourceHigh := 0
  dmaIndex := 0
  dmaActive := false
  dmaOwed := 0

/-- What is read off the columns of a sleeping row. -/
structure SleepReading (number mode lowPack : ℕ) : Prop where
  mode : (modeValue (machinePlane (Assignment.residueRow fieldModulus 128 number)) mode).val = 1
  scalars : ∀ offset < 17, (deviceStateValue
    (boundaryPlane (Assignment.residueRow fieldModulus 128 number)) false
      (stateInterruptRequest + offset)).val = [0, 1, lowPack].getD offset 0
  holds : Residue.allZero
    (BlockMachine.evaluate (Assignment.residueRow fieldModulus 128 number)) = true

section Sleeping

variable {number mode lowPack : ℕ} (h : SleepReading number mode lowPack)

include h

theorem SleepReading.modeValue_eq : modeValue (machinePlane (nativeRow number)) mode = 1 := by
  have heq := nativeRow_eq h.mode
  rwa [Nat.cast_one] at heq

theorem SleepReading.deviceScalar_eq (hlow : lowPack < 2 ^ 64) {offset : ℕ} (hoffset : offset < 17) :
    deviceScalar (nativeRow number) false (stateInterruptRequest + offset) =
      [0, 1, lowPack].getD offset 0 := by
  have heq : deviceStateValue (boundaryPlane (nativeRow number)) false
      (stateInterruptRequest + offset) = (([0, 1, lowPack].getD offset 0 : ℕ) : NativeField) :=
    nativeRow_eq (h.scalars offset hoffset)
  have hlt : [0, 1, lowPack].getD offset 0 < 2 ^ 64 := by
    interval_cases offset
    case «2» => exact hlow
    all_goals simp
  rw [deviceScalar, heq, ZMod.val_natCast_of_lt (hlt.trans (by norm_num))]

theorem SleepReading.devicesAt_eq (hlow : lowPack < 2 ^ 64) :
    devicesAt (nativeRow number) false = sleepDevices lowPack := by
  have hscalar : ∀ offset < 17,
      deviceScalar (nativeRow number) false (stateInterruptRequest + offset) =
        [0, 1, lowPack].getD offset 0 := fun offset hlt => h.deviceScalar_eq hlow hlt
  have hlowPack : deviceScalar (nativeRow number) false stateDmgLowRegisterPack = lowPack :=
    hscalar 2 (by norm_num)
  have hzero : ∀ offset, 3 ≤ offset → offset < 17 →
      deviceScalar (nativeRow number) false (stateInterruptRequest + offset) = 0 := by
    intro offset hge hlt
    rw [hscalar offset hlt, List.getD_eq_default _ _ hge]
  have hhigh : deviceScalar (nativeRow number) false stateDmgHighRegisterPack = 0 :=
    hzero 3 (by norm_num) (by norm_num)
  have hjoypad : deviceScalar (nativeRow number) false stateJoypadPack = 0 :=
    hzero 15 (by norm_num) (by norm_num)
  have hdma : deviceScalar (nativeRow number) false stateDmaPack = 0 :=
    hzero 16 (by norm_num) (by norm_num)
  have hdiv : deviceScalar (nativeRow number) false stateTimerDiv = 0 :=
    hzero 6 (by norm_num) (by norm_num)
  have hcounter : deviceScalar (nativeRow number) false stateTimerCounter = 0 :=
    hzero 7 (by norm_num) (by norm_num)
  have hphase : deviceScalar (nativeRow number) false stateTimerReloadPhase = 0 :=
    hzero 8 (by norm_num) (by norm_num)
  have hlatch : deviceScalar (nativeRow number) false stateTimerEdgeLatch = 0 :=
    hzero 9 (by norm_num) (by norm_num)
  have hbytes : ∀ pack, 10 ≤ pack → pack < 15 →
      packByte (nativeRow number) false (stateInterruptRequest + pack) = fun _ => 0 := by
    intro pack hge hlt
    funext index
    rw [packByte, hzero pack (by omega) (by omega), Nat.zero_div, Nat.zero_mod]
  have hapu : apuAt (nativeRow number) false = ⟨List.replicate 23 0, List.replicate 16 0⟩ := by
    have hcontrolLow : packByte (nativeRow number) false stateApuControlLowPack = fun _ => 0 :=
      hbytes 10 (by norm_num) (by norm_num)
    have hcontrolHigh : packByte (nativeRow number) false stateApuControlHighPack = fun _ => 0 :=
      hbytes 11 (by norm_num) (by norm_num)
    have hmixer : packByte (nativeRow number) false stateApuMixerPack = fun _ => 0 :=
      hbytes 12 (by norm_num) (by norm_num)
    have hwaveLow : packByte (nativeRow number) false stateApuWaveLowPack = fun _ => 0 :=
      hbytes 13 (by norm_num) (by norm_num)
    have hwaveHigh : packByte (nativeRow number) false stateApuWaveHighPack = fun _ => 0 :=
      hbytes 14 (by norm_num) (by norm_num)
    rw [apuAt, hcontrolLow, hcontrolHigh, hmixer, hwaveLow, hwaveHigh]
    rfl
  have hrequest : deviceScalar (nativeRow number) false stateInterruptRequest = 0 :=
    hscalar 0 (by norm_num)
  have henable : deviceScalar (nativeRow number) false stateInterruptEnable = 1 :=
    hscalar 1 (by norm_num)
  have hline : deviceScalar (nativeRow number) false statePpuLine = 0 :=
    hzero 4 (by norm_num) (by norm_num)
  have hdot : deviceScalar (nativeRow number) false statePpuDot = 0 :=
    hzero 5 (by norm_num) (by norm_num)
  simp only [devicesAt, timerAt, hapu, packByte, hrequest, henable, hlowPack, hhigh, hline, hdot,
    hdiv, hcounter, hphase, hlatch, hjoypad, hdma, Nat.zero_div, Nat.zero_mod, pow_zero, pow_one,
    Nat.div_one, mul_zero, add_zero, zero_ne_one, decide_false, sleepDevices]

/-- The event that the core takes where a written row sleeps. -/
theorem SleepReading.classify (hlow : lowPack < 2 ^ 64)
    (hsleeping : mode ∈ [haltIdleMode, haltUntilVBlankMode, haltUntilSerialMode,
      haltUntilTimerMode]) :
    classifyDmgMachineEvent (vmStateAt (nativeRow number) false) =
      .ok (some (haltedEvent (sleepDevices lowPack))) := by
  have hslices := MachineSlices.of_holds (holds_machine_nativeRow h.holds)
  rw [classify_sleeping hslices hsleeping h.modeValue_eq]
  have hdevices : (vmStateAt (nativeRow number) false).dmgDevices = sleepDevices lowPack :=
    h.devicesAt_eq hlow
  rw [hdevices]

end Sleeping

/-- The two written rows sleep. -/
theorem sleepReadings : SleepReading idleNumber haltIdleMode 0x9100007e00 ∧
    SleepReading skipNumber haltUntilVBlankMode 0x7e00 :=
  ⟨⟨by decide +kernel, by decide +kernel, by decide +kernel⟩,
    ⟨by decide +kernel, by decide +kernel, by decide +kernel⟩⟩

theorem idleReading : SleepReading idleNumber haltIdleMode 0x9100007e00 := sleepReadings.1

theorem skipReading : SleepReading skipNumber haltUntilVBlankMode 0x7e00 := sleepReadings.2

end Forgery

open Forgery

theorem wellFormed_sleepDevices : DmgDeviceState.WellFormed (sleepDevices 0x9100007e00) ∧
    DmgDeviceState.WellFormed (sleepDevices 0x7e00) :=
  ⟨⟨by decide, by decide, ⟨by decide, by decide, by decide, by decide⟩, ⟨by decide, by decide⟩,
    ⟨by decide, by decide, by decide⟩, ⟨by decide, by decide, by decide⟩⟩,
   ⟨by decide, by decide, ⟨by decide, by decide, by decide, by decide⟩, ⟨by decide, by decide⟩,
    ⟨by decide, by decide, by decide⟩, ⟨by decide, by decide, by decide⟩⟩⟩

/-- A row of the machine relation with a mode, from a well-formed state in which the core takes an
event. -/
def RowAgainst (mode : ℕ) (event : DmgMachineEvent) (row : Row NativeField) : Prop :=
  Holds (BlockMachine.evaluate row) ∧ modeValue (machinePlane row) mode = 1 ∧
    DmgDeviceState.WellFormed (vmStateAt row false).dmgDevices ∧
    classifyDmgMachineEvent (vmStateAt row false) = .ok (some event)

theorem Forgery.SleepReading.rowAgainst {number mode lowPack : ℕ} {event : DmgMachineEvent}
    (h : SleepReading number mode lowPack) (hlow : lowPack < 2 ^ 64)
    (hsleeping : mode ∈ [haltIdleMode, haltUntilVBlankMode, haltUntilSerialMode,
      haltUntilTimerMode])
    (hdevices : DmgDeviceState.WellFormed (sleepDevices lowPack))
    (hevent : haltedEvent (sleepDevices lowPack) = event) :
    RowAgainst mode event (nativeRow number) := by
  have heq : (vmStateAt (nativeRow number) false).dmgDevices = sleepDevices lowPack :=
    h.devicesAt_eq hlow
  refine ⟨holds_machine_nativeRow h.holds, h.modeValue_eq, ?_, ?_⟩
  · rw [heq]
    exact hdevices
  · rw [h.classify hlow hsleeping, hevent]

/-- A row idles where the core skips to VBlank, and a row skips to VBlank where the core idles. -/
theorem sleeping_mode_open :
    (∃ row, RowAgainst haltIdleMode (.haltUntilVblank 16416) row) ∧
      ∃ row, RowAgainst haltUntilVBlankMode .haltIdle row :=
  ⟨⟨_, idleReading.rowAgainst (by norm_num) (by decide) wellFormed_sleepDevices.1 (by decide)⟩,
    ⟨_, skipReading.rowAgainst (by norm_num) (by decide) wellFormed_sleepDevices.2 (by decide)⟩⟩

/-- The skipping row of a halted CPU: the core sleeps there, and it idles. -/
theorem machineEvent_row_skipRow :
    Holds (BlockMachine.evaluate (nativeRow skipNumber)) ∧
      classifyDmgMachineEvent (vmStateAt (nativeRow skipNumber) false) =
        .ok (some (haltedEvent (vmStateAt (nativeRow skipNumber) false).dmgDevices)) :=
  ⟨holds_machine_nativeRow skipReading.holds,
    (machineEvent_row _ (holds_machine_nativeRow skipReading.holds)).2.2.1 _ (by decide)
      skipReading.modeValue_eq⟩

end Zksm83
