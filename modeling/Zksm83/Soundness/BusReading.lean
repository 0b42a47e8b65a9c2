import Zksm83.Soundness.OneHot
import Zksm83.Soundness.Slices

/-!
# Reading the bus plane of a satisfied row

The bus columns of a satisfied row as numbers: the kind of every slot is one of the nineteen event
kinds, a slot is active exactly if its kind is not zero, kind selectors decide the kind, and the two
addresses and two bytes of a slot are numbers of their width.
-/

namespace Zksm83

open Constraint BlockMetadata BlockFrontend BlockBus

namespace Reading

/-- The kind code of a bus slot. -/
def slotKind (row : Row NativeField) (slot : ℕ) : ℕ := bitsNat (slotKindBits (busPlane row) slot)

/-- The CPU address of a bus slot. -/
def slotAddress (row : Row NativeField) (slot : ℕ) : ℕ :=
  columnsNat (busPlane row) (addressBitsStart + slot * 16) 16

/-- The physical address of a bus slot. -/
def slotPhysical (row : Row NativeField) (slot : ℕ) : ℕ :=
  columnsNat (busPlane row) (physicalBitsStart + slot * romAddressBitCount) romAddressBitCount

/-- The byte of a bus slot. -/
def slotValue (row : Row NativeField) (slot : ℕ) : ℕ :=
  columnsNat (busPlane row) (valueBitsStart + slot * 8) 8

/-- The byte of a bus slot before the event. -/
def slotBefore (row : Row NativeField) (slot : ℕ) : ℕ :=
  columnsNat (busPlane row) (beforeBitsStart + slot * 8) 8

theorem slotAddress_lt (row : Row NativeField) (slot : ℕ) : slotAddress row slot < 2 ^ 16 :=
  columnsNat_lt _ _ _

theorem slotPhysical_lt (row : Row NativeField) (slot : ℕ) : slotPhysical row slot < 2 ^ 20 :=
  columnsNat_lt _ _ _

theorem slotValue_lt (row : Row NativeField) (slot : ℕ) : slotValue row slot < 2 ^ 8 :=
  columnsNat_lt _ _ _

/-- A recomposed field of a slot is the number its bit columns spell. -/
theorem slotField_eq {row : Row NativeField} {slot bitsStart width offset : ℕ}
    (h : Holds (constrainDecomposition (busPlane row) slot bitsStart width offset)) :
    slotFieldValue (busPlane row) slot offset =
      (columnsNat (busPlane row) (bitsStart + slot * width) width : NativeField) := by
  simp only [constrainDecomposition, holds_append, holds_map, holds_cons, List.mem_range,
    boolean_eq_zero_iff] at h
  rw [sub_eq_zero.mp h.2.1]
  exact packedBits_eq_natCast h.1

section Slot

variable {row : Row NativeField} (hrow : MachineSlices row) {slot : ℕ}
  (hslot : slot < basicBlockBusEventBound)

include hrow hslot

theorem holds_constrainSlot : Holds (constrainSlot (busPlane row) slot) := by
  have hbus := hrow.bus
  simp only [constrainBus, holds_append, holds_flatMap, List.mem_range] at hbus
  exact hbus.1 slot hslot

theorem isBit_slotKindBits : ∀ bit ∈ slotKindBits (busPlane row) slot, IsBit bit := by
  have h := holds_constrainSlot hrow hslot
  simp only [constrainSlot, holds_append, holds_map, boolean_eq_zero_iff] at h
  exact h.1.1.1.1.2

/-- A kind selector decides the kind. -/
theorem slotKindSelector_eq (code : ℕ) (hcode : code < 32) :
    slotKindSelector (busPlane row) slot code = if slotKind row slot = code then 1 else 0 :=
  bitSelector_eq (isBit_slotKindBits hrow hslot) code (by simpa [slotKindBits, traceBusKindBits] using hcode)

/-- A sum of kind selectors decides whether the kind is listed. -/
theorem kindSelectorSum_eq (codes : List ℕ) (hnodup : codes.Nodup) (hcodes : ∀ c ∈ codes, c < 32) :
    kindSelectorSum (busPlane row) slot codes = if slotKind row slot ∈ codes then 1 else 0 := by
  induction codes with
  | nil => simp [kindSelectorSum]
  | cons code codes ih =>
    have htail := ih hnodup.of_cons (fun c hc => hcodes c (List.mem_cons_of_mem _ hc))
    have hhead := slotKindSelector_eq hrow hslot code (hcodes code (by simp))
    have hnot : code ∉ codes := (List.nodup_cons.mp hnodup).1
    rw [kindSelectorSum, List.map_cons, total_cons, hhead]
    rw [kindSelectorSum] at htail
    rw [htail]
    by_cases heq : slotKind row slot = code
    · simp [heq, hnot]
    · simp [heq]

/-- The kind is one of the nineteen event kinds. -/
theorem slotKind_lt : slotKind row slot < 19 := by
  have h := holds_constrainSlot hrow hslot
  simp only [constrainSlot, holds_append, holds_cons] at h
  have hsum : totalOver 19 (slotKindSelector (busPlane row) slot) - ((1 : ℕ) : NativeField) = 0 :=
    h.1.1.1.2.1
  have heq := kindSelectorSum_eq hrow hslot (List.range 19) List.nodup_range
    (fun c hc => (List.mem_range.mp hc).trans (by norm_num))
  have htotal : totalOver 19 (slotKindSelector (busPlane row) slot) =
      if slotKind row slot ∈ List.range 19 then 1 else 0 := heq
  by_contra hge
  rw [htotal, if_neg (by simpa using hge)] at hsum
  simp at hsum

/-- A slot is active exactly if its kind is not zero. -/
theorem slotActiveValue_eq :
    slotActiveValue (busPlane row) slot = if slotKind row slot = 0 then 0 else 1 := by
  have h := holds_constrainSlot hrow hslot
  simp only [constrainSlot, holds_append, holds_cons] at h
  have hactive := h.1.1.1.2.2.1
  rw [slotKindSelector_eq hrow hslot 0 (by norm_num), Nat.cast_one] at hactive
  rw [sub_eq_zero.mp hactive]
  split <;> simp

theorem holds_constrainSlotDecompositions :
    Holds (constrainSlotDecompositions (busPlane row) slot) := by
  have h := holds_constrainSlot hrow hslot
  simp only [constrainSlot, holds_append] at h
  exact h.1.2

theorem slotAddressValue_eq :
    slotAddressValue (busPlane row) slot = (slotAddress row slot : NativeField) := by
  have h := holds_constrainSlotDecompositions hrow hslot
  simp only [constrainSlotDecompositions, holds_append] at h
  exact slotField_eq h.1.1.1

theorem slotPhysicalAddressValue_eq :
    slotPhysicalAddressValue (busPlane row) slot = (slotPhysical row slot : NativeField) := by
  have h := holds_constrainSlotDecompositions hrow hslot
  simp only [constrainSlotDecompositions, holds_append] at h
  exact slotField_eq h.1.1.2

theorem slotValueValue_eq :
    slotValueValue (busPlane row) slot = (slotValue row slot : NativeField) := by
  have h := holds_constrainSlotDecompositions hrow hslot
  simp only [constrainSlotDecompositions, holds_append] at h
  exact slotField_eq h.1.2

theorem slotBeforeValue_eq :
    slotBeforeValue (busPlane row) slot = (slotBefore row slot : NativeField) := by
  have h := holds_constrainSlotDecompositions hrow hslot
  simp only [constrainSlotDecompositions, holds_append] at h
  exact slotField_eq h.2

/-- The ROM selector decides whether the kind reads the ROM table. -/
theorem slotRomSelectorValue_eq :
    slotRomSelectorValue (busPlane row) slot =
      if slotKind row slot ∈ romKindCodes then 1 else 0 := by
  have h := holds_constrainSlot hrow hslot
  simp only [constrainSlot, holds_append, holds_cons] at h
  have hrom := h.2.2.1
  rw [kindSelectorSum_eq hrow hslot _ (by decide) (by decide)] at hrom
  exact sub_eq_zero.mp hrom

end Slot

/-- The device-I/O selector vanishes when no slot has a device kind. -/
theorem deviceIoSelectorValue_eq_zero {row : Row NativeField} (hrow : BlockSlices row)
    (hkinds : ∀ slot < basicBlockBusEventBound,
      slotKind row slot ∉ BlockDeviceEnvelope.deviceIoCodes) :
    BlockDeviceEnvelope.deviceIoSelectorValue row = 0 := by
  have h := hrow.envelope
  simp only [BlockDeviceEnvelope.constrainDeviceEnvelope, holds_append, holds_cons] at h
  rw [sub_eq_zero.mp h.1.2.1, BlockDeviceEnvelope.typedDeviceIoCount, total_eq_sum]
  refine List.sum_eq_zero ?_
  intro term hterm
  simp only [List.mem_flatMap, List.mem_map, List.mem_range] at hterm
  obtain ⟨slot, hslot, code, hcode, rfl⟩ := hterm
  have hlt : ∀ c ∈ BlockDeviceEnvelope.deviceIoCodes, c < 32 := by decide
  rw [slotKindSelector_eq hrow.toMachineSlices hslot code (hlt code hcode), if_neg]
  rintro rfl
  exact hkinds slot hslot hcode

end Reading

end Zksm83
