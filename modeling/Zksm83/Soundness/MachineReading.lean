import Zksm83.Soundness.BusReading

/-!
# Reading machine rows

A row with a machine mode holds a block without instructions and has one mode only, and the modes
other than an interrupt dispatch and a DMA byte use no bus slot.
-/

namespace Zksm83

open Constraint BlockMetadata BlockBoundary BlockFrontend BlockMachine

namespace Reading

section MachineRow

variable {row : Row NativeField} (hrow : MachineSlices row)

include hrow

theorem isBit_metadata : IsBit (blockActiveValue row) ∧ IsBit (instructionValue row) := by
  have h := hrow.metadata
  simp only [BlockMetadata.evaluate, holds_append, holds_cons, boolean_eq_zero_iff] at h
  exact ⟨h.1.1.1.1, h.1.1.1.2.1⟩

/-- Machine columns vanish outside machine rows. -/
theorem machine_eq_one_of_column {column : ℕ} (hcolumn : column < machineAuxColumnCount)
    (hone : machinePlane row column = 1) : blockActiveValue row - instructionValue row = 1 := by
  have h := hrow.machine
  simp only [constrainMachine, holds_append, ownedBits, holds_flatMap, List.mem_range,
    holds_cons] at h
  have howner := (h.1.1.1.1.1.1.1 column hcolumn).2.1
  rw [hone, mul_one, Nat.cast_one] at howner
  exact (sub_eq_zero.mp howner).symm

/-- A row with a machine mode holds a block, and the block has no instruction. -/
theorem machine_row {column : ℕ} (hcolumn : column < machineAuxColumnCount)
    (hone : machinePlane row column = 1) :
    blockActiveValue row = 1 ∧ instructionValue row = 0 := by
  have hmachine := machine_eq_one_of_column hrow hcolumn hone
  obtain ⟨hactive | hactive, hinstruction | hinstruction⟩ := isBit_metadata hrow
  · rw [hactive, hinstruction, sub_zero] at hmachine
    exact absurd hmachine zero_ne_one
  · rw [hactive, hinstruction, zero_sub] at hmachine
    have htwo : ((2 : ℕ) : NativeField) = 0 := by
      push_cast
      linear_combination -hmachine
    exact absurd htwo (natCast_ne_zero (by norm_num) (by norm_num))
  · exact ⟨hactive, hinstruction⟩
  · rw [hactive, hinstruction, sub_self] at hmachine
    exact absurd hmachine zero_ne_one

theorem isBit_machine_column {column : ℕ} (hcolumn : column < machineAuxColumnCount) :
    IsBit (machinePlane row column) := by
  have h := hrow.machine
  simp only [constrainMachine, holds_append, ownedBits, holds_flatMap, List.mem_range,
    holds_cons] at h
  exact (boolean_eq_zero_iff _).mp (h.1.1.1.1.1.1.1 column hcolumn).1

/-- A machine row has one mode. -/
theorem modeValue_eq_zero {mode other : ℕ} (hmode : mode < machineModeCount)
    (hother : other < machineModeCount) (hne : other ≠ mode)
    (hone : modeValue (machinePlane row) mode = 1) : modeValue (machinePlane row) other = 0 := by
  have h := hrow.machine
  simp only [constrainMachine, constrainModePartition, holds_append, holds_cons] at h
  have htotal := sub_eq_zero.mp h.1.1.1.1.1.1.2.1
  have hcolumns : ∀ column < machineModeCount, column < machineAuxColumnCount :=
    fun column hcolumn => hcolumn.trans (by decide)
  rw [machine_eq_one_of_column hrow (hcolumns mode hmode) hone] at htotal
  exact eq_zero_of_totalOver_eq_one (by norm_num)
    (fun column hcolumn => isBit_machine_column hrow (hcolumns column hcolumn)) htotal hmode hother
    hne hone

/-- The modes other than an interrupt and a DMA byte leave every slot unused. -/
theorem slotKind_busFree {mode : ℕ} (hmode : mode < machineModeCount)
    (hinterrupt : mode ≠ interruptMode) (hdma : mode ≠ dmaByteMode)
    (hone : modeValue (machinePlane row) mode = 1) {slot : ℕ}
    (hslot : slot < basicBlockBusEventBound) : slotKind row slot = 0 := by
  have h := hrow.machine
  simp only [constrainMachine, constrainNonCpuFlow, holds_append, holds_map, List.mem_range] at h
  have hfree := h.2.2 slot hslot
  have hmodes : ∀ other < machineModeCount,
      modeValue (machinePlane row) other = if other = mode then 1 else 0 := by
    intro other hlt
    by_cases heq : other = mode
    · rw [if_pos heq, heq, hone]
    · rw [if_neg heq, modeValue_eq_zero hrow hmode hlt heq hone]
  have hbus : sleepingMode (machinePlane row) + modeValue (machinePlane row) haltWakeMode = 1 := by
    rw [sleepingMode, hmodes _ (by decide), hmodes _ (by decide), hmodes _ (by decide),
      hmodes _ (by decide), hmodes _ (by decide)]
    have hlt : mode < 7 := hmode
    interval_cases mode <;> simp at hinterrupt hdma ⊢
  rw [hbus, one_mul, slotActiveValue_eq hrow hslot] at hfree
  by_contra hkind
  rw [if_neg hkind] at hfree
  exact one_ne_zero hfree

end MachineRow

end Reading

end Zksm83
