import Zksm83.Soundness.EventAddresses

/-!
# Physical addresses of the bus events of a row

The core maps the CPU address of an event under the mapper registers: ROM events through the ROM
bank, memory events of the external window through the selected RAM bank, and other memory events
to the address itself. In the lanes of an instruction block the ROM events are bound to that
mapping. Memory events are not, and neither is the ROM source of a DMA byte: the memory slice only
bounds the width of their physical address.
-/

namespace Zksm83

open Constraint BlockMetadata BlockRouting BlockFrontend BlockBus PackedLane

/-- The physical address that the core gives a ROM or memory event. -/
def physicalFor (mbc3 : Mbc3State) (profile : Mbc3CartridgeProfile) (kind address : ℕ) : Option ℕ :=
  if kind ∈ romKindCodes then some (mbc3.mapRomFor address)
  else if 0xa000 ≤ address ∧ address ≤ 0xbfff then
    match mbc3.externalWindowFor profile address with
    | .ram physicalAddress => some physicalAddress
    | .rtcRegister _ | .unavailable => none
  else some address

namespace Reading

/-- The boundary before the event of a slot: that of the lane that owns the slot, and the first
boundary of a row without lanes. -/
def slotBoundary (row : Row NativeField) (slot : ℕ) : ℕ :=
  ((List.range basicBlockInstructionBound).find?
    (fun lane => busOwnerValue row slot lane = 1)).getD 0

/-- The slot carries the physical address that the core maps its CPU address to. -/
def Mapped (row : Row NativeField) (slot : ℕ) : Prop :=
  physicalFor (mbc3At row (slotBoundary row slot))
    (profileAt row (slotBoundary row slot)).mbc3CartridgeProfile (slotKind row slot)
    (slotAddress row slot) = some (slotPhysical row slot)

/-- Every slot with a ROM or memory kind is mapped. -/
def PhysicalBound (row : Row NativeField) : Prop :=
  ∀ slot < basicBlockBusEventBound,
    slotKind row slot ∈ romKindCodes ++ BlockMemory.memoryKindCodes → Mapped row slot

/-- The slots whose physical address no slice relates to the mapper are mapped: those with a memory
kind, and those with a ROM kind outside instruction blocks. -/
def UnrelatedSlotsMapped (row : Row NativeField) : Prop :=
  ∀ slot < basicBlockBusEventBound,
    slotKind row slot ∈ BlockMemory.memoryKindCodes ∨
      (slotKind row slot ∈ romKindCodes ∧ instructionValue row = 0) → Mapped row slot

section Slot

variable {row : Row NativeField} (hrow : BlockSlices row) {slot : ℕ}
  (hslot : slot < basicBlockBusEventBound)

include hrow hslot

/-- An active slot of an instruction block belongs to an active lane. -/
theorem exists_owner (hinstruction : instructionValue row = 1) (hkind : slotKind row slot ≠ 0) :
    ∃ lane < basicBlockInstructionBound, busOwnerValue row slot lane = 1 ∧
      laneValue row lane = 1 := by
  have h := hrow.slotActivity
  simp only [constrainInstructionSlotActivity, holds_map, List.mem_range] at h
  have hactive := h slot hslot
  rw [hinstruction, one_mul, slotActiveValue_eq hrow.toMachineSlices hslot, if_neg hkind] at hactive
  obtain ⟨lane, hlane, hone⟩ := exists_of_totalOver_eq_one
    (fun index hindex => isBit_owner hrow.busRouting hslot hindex) (sub_eq_zero.mp hactive).symm
  refine ⟨lane, hlane, hone, ?_⟩
  have hcount := hrow.busRouting
  simp only [constrainResource, holds_append, holds_flatMap, holds_cons, List.mem_range] at hcount
  have hinactive := (hcount.1.1.2 lane hlane).1
  have hmem : slot ∈ laneEvents row lane := mem_laneEvents.mpr ⟨hslot, hone⟩
  have hpos : 1 ≤ (laneEvents row lane).length := List.length_pos_of_mem hmem
  have hle := laneEvents_length_le row lane
  have howned : ownedCount row basicBlockBusEventBound busOwnerStart lane =
      ((laneEvents row lane).length : NativeField) := laneBusOwnerCount_eq hrow hlane
  rw [howned] at hinactive
  have hzero := (mul_eq_zero.mp hinactive).resolve_right (natCast_ne_zero hpos (by omega))
  rw [← sub_eq_zero.mp hzero, Nat.cast_one]

omit hslot in
/-- The boundary before an owned slot is that of its lane. -/
theorem slotBoundary_eq {lane : ℕ} (hslot : slot < basicBlockBusEventBound)
    (hlane : lane < basicBlockInstructionBound) (hone : busOwnerValue row slot lane = 1) :
    slotBoundary row slot = lane := by
  have hunique : ∀ other, other < basicBlockInstructionBound →
      busOwnerValue row slot other = 1 → other = lane := by
    intro other hother hotherOne
    exact (isTiling_owner hrow.busRouting).unique slot hslot other lane ⟨hother, hotherOne⟩
      ⟨hlane, hone⟩
  rw [slotBoundary]
  cases hfind : (List.range basicBlockInstructionBound).find?
      (fun lane => decide (busOwnerValue row slot lane = 1)) with
  | none =>
    have hnone := List.find?_eq_none.mp hfind lane (List.mem_range.mpr hlane)
    simp [hone] at hnone
  | some found =>
    have hfound := List.find?_some hfind
    have hmem := List.mem_range.mp (List.mem_of_find?_eq_some hfind)
    exact hunique found hmem (by simpa using hfound)

/-- The two high bits of the address of a slot. -/
theorem slotAddress_split :
    ∃ low < 0x4000, ∃ window ≤ 1, ∃ outside ≤ 1,
      slotAddress row slot = low + 0x4000 * window + 0x8000 * outside ∧
      slotAddressBit (busPlane row) slot 14 = ((window : ℕ) : NativeField) ∧
      slotAddressBit (busPlane row) slot 15 = ((outside : ℕ) : NativeField) := by
  have h := holds_constrainSlotDecompositions hrow.toMachineSlices hslot
  simp only [constrainSlotDecompositions, constrainDecomposition, holds_append, holds_map,
    List.mem_range, boolean_eq_zero_iff] at h
  have hbits : ∀ bit < 16, IsBit (slotAddressBit (busPlane row) slot bit) := h.1.1.1.1
  refine ⟨columnsNat (busPlane row) (addressBitsStart + slot * 16) 14, columnsNat_lt _ _ _,
    bitNat (slotAddressBit (busPlane row) slot 14), bitNat_le_one _,
    bitNat (slotAddressBit (busPlane row) slot 15), bitNat_le_one _, ?_,
    (natCast_bitNat (hbits 14 (by norm_num))).symm, (natCast_bitNat (hbits 15 (by norm_num))).symm⟩
  rw [slotAddress, columnsNat_add (busPlane row) _ 14 2, columnsNat_add (busPlane row) _ 1 1,
    columnsNat_one, columnsNat_one]
  simp only [slotAddressBit, slotBitValue, Nat.add_assoc]
  ring

end Slot

section Lane

variable {row : Row NativeField} (hrow : CpuSlices row) {slot lane : ℕ}
  (hslot : slot < basicBlockBusEventBound) (hlane : lane < basicBlockInstructionBound)
  (howner : busOwnerValue row slot lane = 1) (hactive : laneValue row lane = 1)

include hrow hslot hlane howner hactive

/-- The ROM identities of a lane, at the slot of one of its events. -/
theorem romMapping_slot (hrom : slotKind row slot ∈ romKindCodes) :
    slotAddressBit (busPlane row) slot 15 = 0 ∧
      ((slotPhysical row slot : ℕ) : NativeField) = (slotAddress row slot : NativeField) +
        slotAddressBit (busPlane row) slot 14 *
          ((scalar row lane stateMbc3RomBank : ℕ) - ((1 : ℕ) : NativeField)) *
          ((0x4000 : ℕ) : NativeField) := by
  obtain ⟨localSlot, hlt, hevent⟩ :=
    List.mem_iff_getElem.mp (mem_laneEvents.mpr ⟨hslot, howner⟩)
  have hlocal : localSlot < basicBlockBusEventBound := by
    have hle := laneEvents_length_le row lane
    show localSlot < 5
    omega
  have hsome : laneEvent row lane localSlot = some slot := laneEvent_eq_some_iff.mpr ⟨hlt, hevent⟩
  have h := (LaneSlices.of_active hrow hlane hactive).romMapping
  simp only [constrainRomMapping, holds_flatMap, holds_cons, List.mem_range] at h
  obtain ⟨houtside, hphysical, -⟩ := h localSlot hlocal
  have hproject : ∀ value : Row NativeField → ℕ → NativeField,
      projectLocalBus row lane localSlot value = value (busPlane row) slot := by
    intro value
    rw [projectLocalBus_eq hrow.busRouting hrow.busMatches hlane hlocal, hsome]
    rfl
  have hselected : busRomSelector row lane localSlot = 1 := by
    rw [busRomSelector, hproject, slotRomSelectorValue_eq hrow.toMachineSlices hslot, if_pos hrom]
  have hfields := holds_constrainSlotDecompositions hrow.toMachineSlices hslot
  simp only [constrainSlotDecompositions, constrainDecomposition, holds_append, holds_cons]
    at hfields
  have haddress : busAddressPacked row lane localSlot = (slotAddress row slot : NativeField) := by
    have hbits : busAddressBit row lane localSlot = slotAddressBit (busPlane row) slot :=
      funext fun bit => hproject _
    rw [← slotAddressValue_eq hrow.toMachineSlices hslot, busAddressPacked, hbits]
    exact (sub_eq_zero.mp hfields.1.1.1.2.1).symm
  have hphysicalPacked :
      busPhysicalPacked row lane localSlot = (slotPhysical row slot : NativeField) := by
    have hbits : busPhysicalBit row lane localSlot = slotPhysicalAddressBit (busPlane row) slot :=
      funext fun bit => hproject _
    rw [← slotPhysicalAddressValue_eq hrow.toMachineSlices hslot, busPhysicalPacked, hbits]
    exact (sub_eq_zero.mp hfields.1.1.2.2.1).symm
  rw [hselected, one_mul, busAddressBit, hproject] at houtside
  rw [hselected, one_mul, haddress, hphysicalPacked, busAddressBit, hproject, before_eq]
    at hphysical
  exact ⟨houtside, sub_eq_zero.mp hphysical⟩

/-- A ROM event of a lane is mapped through the ROM bank before the lane. -/
theorem mapped_of_lane (hrom : slotKind row slot ∈ romKindCodes) : Mapped row slot := by
  obtain ⟨houtside, hphysical⟩ := romMapping_slot hrow hslot hlane howner hactive hrom
  obtain ⟨low, hlow, window, hwindow, outside, houtsideLe, haddress, hwindowBit, houtsideBit⟩ :=
    slotAddress_split hrow.toBlockSlices hslot
  have hbelow : outside = 0 := by
    rw [houtsideBit, ← Nat.cast_zero] at houtside
    exact eq_of_natCast_eq houtside (by omega) (by norm_num)
  have hbank : scalar row lane stateMbc3RomBank < 64 := by
    have hinstruction := instructionValue_eq_one hrow.toBlockSlices hlane hactive
    have h := (holds_boundary hrow hinstruction hlane.le).2
    simp only [constrainMapperBoundary, holds_append, holds_cons] at h
    exact scalar_lt_of_packed hrow hinstruction hlane.le _ 6 (by norm_num) (by norm_num)
      h.1.1.2.1
  have hphysicalLt : slotPhysical row slot < 2 ^ 20 := slotPhysical_lt row slot
  rw [Mapped, physicalFor, if_pos hrom, slotBoundary_eq hrow.toBlockSlices hslot hlane howner,
    Option.some.injEq, Mbc3State.mapRomFor]
  show (if slotAddress row slot < 0x4000 then slotAddress row slot
    else scalar row lane stateMbc3RomBank * 0x4000 + (slotAddress row slot - 0x4000)) = _
  rw [hwindowBit] at hphysical
  rcases Nat.le_one_iff_eq_zero_or_eq_one.mp hwindow with rfl | rfl
  · rw [if_pos (by omega)]
    rw [Nat.cast_zero, zero_mul, zero_mul, add_zero] at hphysical
    exact (eq_of_natCast_eq hphysical (by omega) (by omega)).symm
  · rw [if_neg (by omega)]
    have hsum : ((slotPhysical row slot + 0x4000 : ℕ) : NativeField) =
        ((slotAddress row slot + scalar row lane stateMbc3RomBank * 0x4000 : ℕ) : NativeField) := by
      push_cast
      rw [hphysical]
      push_cast
      ring
    have hnat := eq_of_natCast_eq hsum (by omega) (by omega)
    omega

end Lane

end Reading

open Reading

section LoadRow

open Forgery

/-- The opcode of the forged load is read at the physical address `0x1234`, its CPU address is
`0x0100`. -/
theorem loadRow_physical : slotAddress loadRow 0 = 0x100 ∧ slotPhysical loadRow 0 = 0x1234 := by
  constructor
  · rw [slotAddress, busPlane, columnsNat_slice, loadRow]
    exact columnsNat_nativeRow 16 0x100 (by norm_num) (loadReading.addresses 0 (by norm_num))
  · rw [slotPhysical, busPlane, columnsNat_slice, loadRow]
    exact columnsNat_nativeRow 20 0x1234 (by norm_num) loadReading.physical

end LoadRow

end Zksm83
