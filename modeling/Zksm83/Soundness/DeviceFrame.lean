import Zksm83.Soundness.DmaSlice

/-!
# Device state over zero-cycle machine rows

HALT-wake and DMA-byte rows advance no device and carry no device event. The device envelope still
binds IE, the APU packs and the joypad pack there. The slices that own the other device scalars
constrain them only over device-clocked blocks and device events, so the frame condition for those
scalars is left open.
-/

namespace Zksm83

open Constraint BlockMetadata BlockBoundary BlockFrontend BlockMachine BlockDeviceEnvelope

namespace Reading

section MachineRow

variable {row : Row NativeField} (hrow : MemorySlices row)

include hrow

/-- A DMA-byte row reads its source in the first slot, writes OAM in the second, and leaves the
other slots unused. -/
theorem slotKind_dmaByte (hmode : modeValue (machinePlane row) dmaByteMode = 1) :
    (slotKind row 0 = dmaSourceKindRom ∨ slotKind row 0 = dmaSourceKindMemory) ∧
      slotKind row 1 = BlockDeviceDma.dmaWriteKind ∧
      ∀ slot, 2 ≤ slot → slot < basicBlockBusEventBound → slotKind row slot = 0 := by
  have hmachine := hrow.machine
  simp only [constrainMachine, constrainModePartition, holds_append, holds_cons] at hmachine
  have hsource := sub_eq_zero.mp hmachine.1.1.1.1.1.1.2.2.1
  have hdma := hrow.dma
  simp only [BlockDeviceDma.constrainDma, BlockDeviceDma.constrainDmaSelector, holds_append,
    holds_cons] at hdma
  have hselector := hdma.1.1.2.1.1.1
  have hone : BlockDeviceDma.dmaPlane row BlockDeviceDma.dmaByteSelector = 1 := by
    rw [sub_eq_zero.mp hselector, ← hsource]
    exact hmode
  exact slotKinds_of_dmaByte ⟨hrow.toPpuInterruptSlices, hrow.dma⟩ hone

end MachineRow

end Reading

open Reading

/-- The listed device scalars have the same value before and after the block. -/
def DevicesKept (row : Row NativeField) (scalars : List ℕ) : Prop :=
  ∀ scalar ∈ scalars, deviceStateValue (boundaryPlane row) true scalar =
    deviceStateValue (boundaryPlane row) false scalar

/-- All device scalars. -/
abbrev deviceScalars : List ℕ :=
  [stateInterruptRequest, stateInterruptEnable, stateDmgLowRegisterPack, stateDmgHighRegisterPack,
    statePpuLine, statePpuDot, stateTimerDiv, stateTimerCounter, stateTimerReloadPhase,
    stateTimerEdgeLatch, stateApuControlLowPack, stateApuControlHighPack, stateApuMixerPack,
    stateApuWaveLowPack, stateApuWaveHighPack, stateJoypadPack, stateDmaPack]

/-- The device scalars that no slice binds on a zero-cycle row. -/
abbrev unboundScalars : List ℕ :=
  [stateInterruptRequest, stateDmgLowRegisterPack, stateDmgHighRegisterPack, statePpuLine,
    statePpuDot, stateTimerDiv, stateTimerCounter, stateTimerReloadPhase, stateTimerEdgeLatch]

/-- Without device I/O the envelope keeps IE, the APU packs and the joypad pack. -/
theorem devicesKept_quiet {row : Row NativeField} (hrow : MemorySlices row)
    (hactive : blockActiveValue row = 1)
    (hkinds : ∀ slot < basicBlockBusEventBound, slotKind row slot ∉ deviceIoCodes) :
    DevicesKept row quietDeviceInvariants := by
  have hio := deviceIoSelectorValue_eq_zero hrow.toBlockSlices hkinds
  have h := hrow.envelope
  simp only [constrainDeviceEnvelope, holds_append, holds_map] at h
  intro scalar hscalar
  have hkept := h.2 scalar hscalar
  rw [hactive, hio, Nat.cast_one, sub_zero, one_mul, one_mul] at hkept
  exact sub_eq_zero.mp hkept

theorem devicesKept_iff_of_union {row : Row NativeField} {all bound open' : List ℕ}
    (hbound : DevicesKept row bound) (hsplit : ∀ scalar ∈ all, scalar ∈ bound ∨ scalar ∈ open')
    (hsub : ∀ scalar ∈ open', scalar ∈ all) : DevicesKept row all ↔ DevicesKept row open' := by
  constructor
  · exact fun h scalar hscalar => h scalar (hsub scalar hscalar)
  · intro h scalar hscalar
    rcases hsplit scalar hscalar with hmem | hmem
    · exact hbound scalar hmem
    · exact h scalar hmem

/-- Every row of `BlockMemoryRelation`: a HALT wake keeps the device state, and a DMA byte keeps it
but for the DMA pack, exactly if the row carries equal values for the scalars that no slice binds
there. -/
theorem devicesKept_zeroCycle_iff (row : Row NativeField)
    (hrow : Holds (BlockMemory.evaluate row)) :
    (modeValue (machinePlane row) haltWakeMode = 1 →
      (DevicesKept row deviceScalars ↔ DevicesKept row (unboundScalars ++ [stateDmaPack]))) ∧
    (modeValue (machinePlane row) dmaByteMode = 1 →
      (DevicesKept row (deviceScalars.erase stateDmaPack) ↔ DevicesKept row unboundScalars)) := by
  have hslices := MemorySlices.of_holds hrow
  constructor
  · intro hmode
    obtain ⟨hactive, -⟩ := machine_row hslices.toMachineSlices (by decide) hmode
    refine devicesKept_iff_of_union (devicesKept_quiet hslices hactive ?_) (by decide) (by decide)
    intro slot hslot
    rw [slotKind_busFree hslices.toMachineSlices (by decide) (by decide) (by decide) hmode hslot]
    decide
  · intro hmode
    obtain ⟨hactive, -⟩ := machine_row hslices.toMachineSlices (by decide) hmode
    obtain ⟨hsource, hwrite, hunused⟩ := slotKind_dmaByte hslices hmode
    refine devicesKept_iff_of_union (devicesKept_quiet hslices hactive ?_) (by decide) (by decide)
    intro slot hslot
    rcases Nat.lt_or_ge slot 2 with hlt | hge
    · interval_cases slot
      · rcases hsource with h | h <;> rw [h] <;> decide
      · rw [hwrite]
        decide
    · rw [hunused slot hge hslot]
      decide

open Forgery in
theorem wakeRow_mode : modeValue (machinePlane wakeRow) haltWakeMode = 1 := by
  show (((modeValue (machinePlane wakeResidues) haltWakeMode).val : ℕ) : NativeField) = 1
  rw [wakeReading.mode, Nat.cast_one]

open Forgery in
theorem wakeRow_memory_holds : Holds (BlockMemory.evaluate wakeRow) :=
  ((holds_append _ _).mp wakeRow_holds).1

open Forgery in
/-- The forged wake-up is a HALT-wake row of the relation. -/
theorem devicesKept_zeroCycle_iff_wakeRow :
    Holds (BlockMemory.evaluate wakeRow) ∧
      modeValue (machinePlane wakeRow) haltWakeMode = 1 ∧
      (DevicesKept wakeRow deviceScalars ↔
        DevicesKept wakeRow (unboundScalars ++ [stateDmaPack])) :=
  ⟨wakeRow_memory_holds, wakeRow_mode,
    (devicesKept_zeroCycle_iff wakeRow wakeRow_memory_holds).1 wakeRow_mode⟩

open Forgery in
/-- The forged wake-up changes the timer counter from 0 to 7. -/
theorem devices_not_kept_wakeRow :
    ¬ ∀ row : Row NativeField, Holds (BlockMemory.evaluate row) →
      (modeValue (machinePlane row) haltWakeMode = 1 → DevicesKept row deviceScalars) ∧
      (modeValue (machinePlane row) dmaByteMode = 1 →
        DevicesKept row (deviceScalars.erase stateDmaPack)) := by
  intro hkept
  have hcounter := (hkept wakeRow wakeRow_memory_holds).1 wakeRow_mode stateTimerCounter (by decide)
  have hafter : deviceStateValue (boundaryPlane wakeRow) true stateTimerCounter =
      ((7 : ℕ) : NativeField) := by
    show (((deviceStateValue (boundaryPlane wakeResidues) true stateTimerCounter).val : ℕ) :
      NativeField) = _
    rw [wakeReading.counterAfter]
  have hbefore : deviceStateValue (boundaryPlane wakeRow) false stateTimerCounter =
      ((0 : ℕ) : NativeField) := by
    show (((deviceStateValue (boundaryPlane wakeResidues) false stateTimerCounter).val : ℕ) :
      NativeField) = _
    rw [wakeReading.counterBefore]
  rw [hafter, hbefore, natCast_inj (by norm_num) (by norm_num)] at hcounter
  omega

end Zksm83
