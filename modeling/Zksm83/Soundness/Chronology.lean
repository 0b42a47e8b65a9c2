import Zksm83.Soundness.Slices
import Zksm83.Soundness.Forgery

/-!
# Chronology of memory events

A selected slot names a predecessor timestamp and a distance, and their sum is the slot's own
timestamp. The row index is committed in bits, the predecessor and the distance are not: their
columns are only required to vanish where the slot is not selected. The argument is sound exactly
on the rows whose predecessor and distance are recomposed from some bits.
-/

namespace Zksm83

open Constraint

namespace BlockMemory

/-- The predecessor and the distance of a slot are small, and the predecessor is earlier. -/
def ChronologySound (row : Row NativeField) (slot : ℕ) : Prop :=
  (memoryPredecessorValue row slot).val < 2 ^ traceMemoryTimestampBits ∧
    (memoryDeltaValue row slot).val < 2 ^ traceMemoryTimestampBits ∧
    (memoryPredecessorValue row slot).val <
      basicBlockBusEventBound * (memoryRowIndexValue row).val + slot + 1

/-- A value that the bits of some timestamp recompose. -/
def SpelledByBits (value : NativeField) : Prop :=
  ∃ bits : List NativeField, bits.length = traceMemoryTimestampBits ∧
    (∀ bit ∈ bits, IsBit bit) ∧ value = packed bits

/-- The predecessor and the distance of a slot are values of some bits. -/
def RangeChecked (row : Row NativeField) (slot : ℕ) : Prop :=
  SpelledByBits (memoryPredecessorValue row slot) ∧ SpelledByBits (memoryDeltaValue row slot)

theorem spelledByBits_iff (value : NativeField) :
    SpelledByBits value ↔ value.val < 2 ^ traceMemoryTimestampBits := by
  constructor
  · rintro ⟨bits, hlength, hbits, rfl⟩
    have hlt := bitsNat_lt bits
    rw [hlength] at hlt
    rw [packed_eq_natCast hbits, ZMod.val_natCast_of_lt (hlt.trans (by norm_num))]
    exact hlt
  · intro hlt
    refine ⟨(List.range traceMemoryTimestampBits).map
      (fun bit => ((value.val / 2 ^ bit % 2 : ℕ) : NativeField)), by simp, ?_, ?_⟩
    · intro bit hbit
      obtain ⟨index, -, rfl⟩ := List.mem_map.mp hbit
      rcases Nat.mod_two_eq_zero_or_one (value.val / 2 ^ index) with h | h <;> simp [h]
    · rw [packed_natBits _ _ hlt, ZMod.natCast_rightInverse value]

/-- Columns that are bits are range checked. -/
theorem rangeChecked_of_isBit {row : Row NativeField} {slot : ℕ}
    (hpredecessor : ∀ bit < traceMemoryTimestampBits, IsBit (memoryPredecessorBit row slot bit))
    (hdelta : ∀ bit < traceMemoryTimestampBits, IsBit (memoryDeltaBit row slot bit)) :
    RangeChecked row slot := by
  refine ⟨⟨_, by simp, ?_, rfl⟩, ⟨_, by simp, ?_, rfl⟩⟩
  · intro bit hbit
    obtain ⟨index, hindex, rfl⟩ := List.mem_map.mp hbit
    exact hpredecessor index (List.mem_range.mp hindex)
  · intro bit hbit
    obtain ⟨index, hindex, rfl⟩ := List.mem_map.mp hbit
    exact hdelta index (List.mem_range.mp hindex)

section Slices

variable {row : Row NativeField} (hrow : MemorySlices row)

include hrow

/-- The row index is a number of fourteen bits. -/
theorem memoryRowIndexValue_eq :
    memoryRowIndexValue row =
      (columnsNat (memoryPlane row) rowBitsStart uniformNumVariables : NativeField) := by
  have hbits := hrow.memory
  simp only [constrainMemory, holds_append, holds_map, List.mem_range, boolean_eq_zero_iff] at hbits
  exact packedBits_eq_natCast hbits.1

/-- The chronology constraint of a selected slot. -/
theorem memory_timestamp_eq {slot : ℕ} (hslot : slot < basicBlockBusEventBound)
    (hselected : memorySelectorValue row slot = 1) :
    currentTimestamp (memoryRowIndexValue row) slot =
      memoryPredecessorValue row slot + memoryDeltaValue row slot + 1 := by
  have hslots := hrow.memory
  simp only [constrainMemory, holds_append, holds_flatMap, List.mem_range] at hslots
  obtain ⟨hmemory, -⟩ := hslots.2 slot hslot
  simp only [constrainMemorySlot, holds_append, holds_cons] at hmemory
  obtain ⟨⟨-, htimestamp, -⟩, -⟩ := hmemory
  have hone : memoryPlane row (slotStart slot + slotSelectorOffset) = 1 := hselected
  rw [hone, one_mul, Nat.cast_one] at htimestamp
  have hexpanded : currentTimestamp (memoryRowIndexValue row) slot -
      memoryPredecessorValue row slot - memoryDeltaValue row slot - 1 = 0 := htimestamp
  linear_combination hexpanded

/-- On the rows of the relation, the chronology of a selected slot is sound exactly if its
predecessor and its distance are values of bits. -/
theorem chronologySound_iff_of_slices {slot : ℕ} (hslot : slot < basicBlockBusEventBound)
    (hselected : memorySelectorValue row slot = 1) :
    ChronologySound row slot ↔ RangeChecked row slot := by
  rw [RangeChecked, spelledByBits_iff, spelledByBits_iff]
  constructor
  · rintro ⟨hpredecessor, hdelta, -⟩
    exact ⟨hpredecessor, hdelta⟩
  · rintro ⟨hpredecessor, hdelta⟩
    refine ⟨hpredecessor, hdelta, ?_⟩
    have hvalue := memoryRowIndexValue_eq hrow
    have hindex := columnsNat_lt (memoryPlane row) rowBitsStart uniformNumVariables
    set index := columnsNat (memoryPlane row) rowBitsStart uniformNumVariables
    have hsum := memory_timestamp_eq hrow hslot hselected
    set predecessor := (memoryPredecessorValue row slot).val with hp
    set delta := (memoryDeltaValue row slot).val with hd
    -- Both sides are below the modulus, so the field equation is one of naturals.
    have hcast : ((index * 5 + (slot + 1) : ℕ) : NativeField) =
        ((predecessor + delta + 1 : ℕ) : NativeField) := by
      rw [currentTimestamp, hvalue] at hsum
      push_cast at hsum ⊢
      rw [hsum, hp, hd, ZMod.natCast_rightInverse, ZMod.natCast_rightInverse]
    have hsmall : index * 5 + (slot + 1) < fieldModulus := by
      have : slot < 5 := hslot
      norm_num at hindex ⊢
      omega
    have hsmallSum : predecessor + delta + 1 < fieldModulus := by
      norm_num at hpredecessor hdelta ⊢
      omega
    have hnat := (natCast_inj hsmall hsmallSum).mp hcast
    have hindexVal : (memoryRowIndexValue row).val = index := by
      rw [hvalue, ZMod.val_natCast_of_lt (hindex.trans (by norm_num))]
    rw [hindexVal]
    show predecessor < 5 * index + slot + 1
    omega

end Slices

open Forgery in
theorem loadRow_memory_holds : Holds (evaluate loadRow) :=
  ((holds_append _ _).mp loadRow_holds).1

end BlockMemory

end Zksm83
