import Zksm83.Soundness.SerialExact

/-!
# The DMA slice

The DMA slice splits the DMA pack into its bytes, schedules the bytes of a quiet block by a
comparison with what is left of the transfer, and copies one byte on a DMA row. Read as numbers, it
forces `schedule_dma_bytes` and `complete_dma_byte` of `dmg.rs`. After `block_device_dma.rs`.
-/

namespace Zksm83

open Constraint BlockMetadata BlockBoundary BlockFrontend BlockMachine BlockDeviceEnvelope BlockBus
  BlockDeviceDma Reading

/-- The DMA registers of a device state. -/
def DmgDeviceState.dmaRegisters (devices : DmgDeviceState) : ℕ × ℕ × Bool × ℕ :=
  (devices.dmaSourceHigh, devices.dmaIndex, devices.dmaActive, devices.dmaOwed)

/-- The DMA cursor is inside the transfer and no more than one step is owed. -/
structure DmaInRange (devices : DmgDeviceState) : Prop where
  index_le : devices.dmaIndex ≤ 160
  owed_le : devices.dmaOwed ≤ 6
  index_lt : devices.dmaActive = true → devices.dmaIndex < 160

/-- The first two slots of the block copy the next byte of the transfer to OAM, and the others are
empty. -/
structure DmaCopies (row : Row NativeField) (devices : DmgDeviceState) : Prop where
  source : slotKind row 0 = dmaSourceKindRom ∨ slotKind row 0 = dmaSourceKindMemory
  sourceAddress : slotAddress row 0 = 256 * devices.dmaSourceHigh + devices.dmaIndex
  write : slotKind row 1 = dmaWriteKind
  writeAddress : slotAddress row 1 = 0xfe00 + devices.dmaIndex
  value : slotValue row 1 = slotValue row 0
  rest : ∀ slot, 2 ≤ slot → slot < basicBlockBusEventBound → slotKind row slot = 0

/-- What `BlockDeviceDmaRelation` adds to the slices below it. -/
structure DmaSlices (row : Row NativeField) : Prop extends PpuInterruptSlices row where
  dma : Holds (constrainDma row (dmaPlane row))

theorem DmaSlices.of_holds {row : Row NativeField} (hrow : Holds (BlockDeviceDma.evaluate row)) :
    DmaSlices row := by
  obtain ⟨hinterruptRow, hdma⟩ := (holds_append _ _).mp hrow
  exact ⟨PpuInterruptSlices.of_holds hinterruptRow, hdma⟩

/-- A comparison with a gap of eight bits decides which of two numbers is owed. -/
theorem min_of_comparison {elapsed distance gap owed : ℕ} {event : NativeField}
    (hevent : IsBit event) (hlt : elapsed < fieldModulus) (hdistance : distance ≤ 160)
    (hgap : gap < 256) (howedLe : owed ≤ 6)
    (hcompare : (gap : NativeField) - event * (elapsed - distance) -
      (1 - event) * (distance - elapsed - 1) = 0)
    (howed : (owed : NativeField) = elapsed - event * (elapsed - distance)) :
    owed = min elapsed distance := by
  have hmodulus : (1024 : ℕ) < fieldModulus := by norm_num
  rcases hevent with rfl | rfl
  · -- What is owed is small, so the M-cycles are, and the gap does not wrap around.
    have heq : owed = elapsed := by
      rw [← natCast_inj (by omega) hlt, howed]
      ring
    have hsum : ((gap + elapsed + 1 : ℕ) : NativeField) = (distance : ℕ) := by
      push_cast
      linear_combination hcompare
    rw [natCast_inj (by omega) (by omega)] at hsum
    omega
  · have hsum : ((gap + distance : ℕ) : NativeField) = (elapsed : ℕ) := by
      push_cast
      linear_combination hcompare
    rw [natCast_inj (by omega) hlt] at hsum
    have heq : owed = distance := by
      rw [← natCast_inj (by omega) (by omega), howed]
      ring
    omega

section State

variable {row : Row NativeField} (hrow : DmaSlices row)

include hrow

theorem isBit_dma_column {column : ℕ} (hcolumn : column < dmaAuxColumnCount) :
    IsBit (dmaPlane row column) := by
  have h := hrow.dma
  simp only [constrainDma, holds_append] at h
  exact (holds_ownedBits_iff.mp h.1.1.1.1.1 column hcolumn).1

/-- A row with a DMA column set holds a block. -/
theorem blockActive_of_dma {column : ℕ} (hcolumn : column < dmaAuxColumnCount)
    (hone : dmaPlane row column = 1) : blockActiveValue row = 1 := by
  have h := hrow.dma
  simp only [constrainDma, holds_append] at h
  have howner := (holds_ownedBits_iff.mp h.1.1.1.1.1 column hcolumn).2
  rw [hone, mul_one] at howner
  exact (sub_eq_zero.mp howner).symm

theorem holds_dmaState (after : Bool) :
    Holds (constrainDmaState (boundaryPlane row) (dmaPlane row) after (blockActiveValue row)) := by
  have h := hrow.dma
  simp only [constrainDma, holds_append] at h
  cases after
  · exact h.1.1.1.1.2
  · exact h.1.1.1.2

theorem isBit_pack (after : Bool) {bit : ℕ} (hbit : bit < 32) :
    IsBit (dmaPlane row (packStart after + bit)) := by
  refine isBit_dma_column hrow ?_
  cases after
  · exact lt_of_lt_of_le (show 0 + bit < 32 by omega) (by decide)
  · exact lt_of_lt_of_le (show 32 + bit < 64 by omega) (by decide)

theorem isBit_indexSlack (after : Bool) {bit : ℕ} (hbit : bit < 8) :
    IsBit (dmaPlane row (indexSlackStart after + bit)) := by
  refine isBit_dma_column hrow ?_
  cases after
  · exact lt_of_lt_of_le (show 64 + bit < 72 by omega) (by decide)
  · exact lt_of_lt_of_le (show 72 + bit < 80 by omega) (by decide)

theorem isBit_owedSlack (after : Bool) {bit : ℕ} (hbit : bit < 3) :
    IsBit (dmaPlane row (owedSlackStart after + bit)) := by
  refine isBit_dma_column hrow ?_
  cases after
  · exact lt_of_lt_of_le (show 80 + bit < 83 by omega) (by decide)
  · exact lt_of_lt_of_le (show 83 + bit < 86 by omega) (by decide)

/-- A byte of the DMA pack is spelled by its bit columns. -/
theorem dmaByte_eq (after : Bool) {byte : ℕ} (hbyte : byte < 4) :
    packByte row after stateDmaPack byte =
      columnsNat (dmaPlane row) (packStart after + byte * 8) 8 := by
  have h := holds_dmaState hrow after
  simp only [constrainDmaState, holds_append, holds_cons] at h
  rw [packByte_of_packedBits (by norm_num) (fun bit hbit => isBit_pack hrow after hbit)
    (sub_eq_zero.mp h.1.1.1.1) (by omega), Nat.mul_comm 8 byte]

theorem stateByte_eq (after : Bool) {byte : ℕ} (hbyte : byte < 4) :
    stateByte (dmaPlane row) after byte = (packByte row after stateDmaPack byte : NativeField) := by
  rw [dmaByte_eq hrow after hbyte]
  refine packedBits_eq_natCast ?_
  intro bit hbit
  rw [Nat.add_assoc]
  exact isBit_pack hrow after (by omega)

/-- The lowest bit of the third byte says whether a transfer is active. -/
theorem activeBit_eq (after : Bool) : stateBit (dmaPlane row) after 2 0 =
    if (devicesAt row after).dmaActive then 1 else 0 := by
  have h := holds_dmaState hrow after
  simp only [constrainDmaState, holds_append, holds_cons, holds_map, List.mem_range] at h
  have hzero : columnsNat (dmaPlane row) (packStart after + 2 * 8 + 1) 7 = 0 := by
    rw [columnsNat_eq_zero_iff]
    intro bit hbit hone
    have hclear := h.1.1.2 bit hbit
    rw [stateBit, show packStart after + (2 * 8 + (bit + 1)) = packStart after + 2 * 8 + 1 + bit by
      omega, hone] at hclear
    exact one_ne_zero hclear
  have hbyte : packByte row after stateDmaPack 2 = bitNat (stateBit (dmaPlane row) after 2 0) := by
    rw [dmaByte_eq hrow after (by norm_num), columnsNat_add _ _ 1 7, hzero, Nat.mul_zero,
      Nat.add_zero, columnsNat_one]
    rfl
  have hread : (devicesAt row after).dmaActive = decide (packByte row after stateDmaPack 2 = 1) :=
    rfl
  have hbit : IsBit (stateBit (dmaPlane row) after 2 0) := isBit_pack hrow after (by norm_num)
  rw [hread, hbyte]
  rcases hbit with hclear | hset
  · rw [hclear, bitNat_zero]
    rfl
  · rw [hset, bitNat_one]
    rfl

variable (hactive : blockActiveValue row = 1)

include hactive

/-- The slack of the index is what is left of the transfer. -/
theorem indexSlack_eq (after : Bool) :
    (devicesAt row after).dmaIndex +
      columnsNat (dmaPlane row) (indexSlackStart after) 8 = 160 := by
  have h := holds_dmaState hrow after
  simp only [constrainDmaState, holds_append, holds_cons, hactive, mul_one] at h
  have hsum := sub_eq_zero.mp h.1.1.1.2.1
  rw [stateByte_eq hrow after (by norm_num),
    packedBits_eq_natCast (fun bit hbit => isBit_indexSlack hrow after hbit), ← Nat.cast_add] at hsum
  have hindex : (devicesAt row after).dmaIndex < 256 := Nat.mod_lt _ (by norm_num)
  have hslack := columnsNat_lt (dmaPlane row) (indexSlackStart after) 8
  have hmodulus : (512 : ℕ) < fieldModulus := by norm_num
  exact (natCast_inj (by omega) (show dmaLength < _ by norm_num)).mp hsum

theorem owedSlack_eq (after : Bool) :
    (devicesAt row after).dmaOwed + columnsNat (dmaPlane row) (owedSlackStart after) 3 = 6 := by
  have h := holds_dmaState hrow after
  simp only [constrainDmaState, holds_append, holds_cons, hactive, mul_one] at h
  have hsum := sub_eq_zero.mp h.1.1.1.2.2.1
  rw [stateByte_eq hrow after (by norm_num),
    packedBits_eq_natCast (fun bit hbit => isBit_owedSlack hrow after hbit), ← Nat.cast_add] at hsum
  have howed : (devicesAt row after).dmaOwed < 256 := Nat.mod_lt _ (by norm_num)
  have hslack := columnsNat_lt (dmaPlane row) (owedSlackStart after) 3
  have hmodulus : (512 : ℕ) < fieldModulus := by norm_num
  exact (natCast_inj (by omega) (show dmaMaxOwed < _ by norm_num)).mp hsum

/-- The last running product of the slack says that the transfer is at its end. -/
theorem indexPrefix_eq (after : Bool) : dmaPlane row (indexZeroPrefixStart after + 7) =
    if (devicesAt row after).dmaIndex = 160 then 1 else 0 := by
  have h := holds_dmaState hrow after
  simp only [constrainDmaState, holds_append, hactive] at h
  have hlast := zeroPrefix_of_holds (fun bit hbit => isBit_indexSlack hrow after hbit) h.1.2
    (show 7 < 8 by norm_num)
  have hsum := indexSlack_eq hrow hactive after
  rw [hlast]
  show (if columnsNat (dmaPlane row) (indexSlackStart after) 8 = 0 then (1 : NativeField) else 0) = _
  exact if_congr (by omega) rfl rfl

/-- The DMA registers of a block are in range on both sides. -/
theorem dmaInRange (after : Bool) : DmaInRange (devicesAt row after) := by
  have hindex := indexSlack_eq hrow hactive after
  have howed := owedSlack_eq hrow hactive after
  refine ⟨by omega, by omega, ?_⟩
  intro hrunning
  have h := holds_dmaState hrow after
  simp only [constrainDmaState, holds_append, holds_cons] at h
  have hend := h.2.1
  rw [activeBit_eq hrow after, indexPrefix_eq hrow hactive after, if_pos hrunning,
    one_mul] at hend
  have hne : (devicesAt row after).dmaIndex ≠ 160 := by
    intro heq
    rw [if_pos heq] at hend
    exact one_ne_zero hend
  omega

section Quiet

variable (hquiet : quietValue row = 1)

include hquiet

/-- The comparison of a quiet block charges an active transfer its M-cycles, up to the end. -/
theorem owed_of_quiet {mCycles : ℕ} (hlt : mCycles < fieldModulus)
    (hcycles : stateDelta (boundaryPlane row) stateCpuMCycles = (mCycles : NativeField)) :
    (devicesAt row true).dmaOwed =
      if (devicesAt row false).dmaActive then min mCycles (160 - (devicesAt row false).dmaIndex)
      else 0 := by
  have h := hrow.dma
  simp only [constrainDma, constrainQuietSchedule, holds_append, holds_cons, hquiet, one_mul,
    holds_nil, and_true, BlockDevicePpuInterrupt.constrainComparison, Nat.cast_one] at h
  obtain ⟨⟨-, ⟨-, hcompare, -⟩, howed⟩, -⟩ := h
  rw [stateByte_eq hrow true (by norm_num), activeBit_eq hrow false, hcycles, sub_eq_zero] at howed
  rw [activeBit_eq hrow false, hcycles] at hcompare
  have hslack := indexSlack_eq hrow hactive false
  have hremaining : packedBits (dmaPlane row) beforeIndexSlackBitsStart 8 =
      ((160 - (devicesAt row false).dmaIndex : ℕ) : NativeField) := by
    have hspelled := packedBits_eq_natCast (fun bit hbit => isBit_indexSlack hrow false hbit)
    change packedBits (dmaPlane row) beforeIndexSlackBitsStart 8 = _ at hspelled
    rw [hspelled]
    exact congrArg Nat.cast (by omega)
  have howedLe := owedSlack_eq hrow hactive true
  rw [hremaining] at howed hcompare
  by_cases hrunning : (devicesAt row false).dmaActive = true
  · have hgapBits : ∀ bit < 8, IsBit (dmaPlane row (nearEndGapBitsStart + bit)) :=
      fun bit hbit => isBit_dma_column hrow
        (lt_of_lt_of_le (show 103 + bit < 111 by omega) (by decide))
    rw [if_pos hrunning, one_mul] at howed hcompare
    rw [packedBits_eq_natCast hgapBits] at hcompare
    rw [if_pos hrunning]
    exact min_of_comparison (isBit_dma_column hrow (by decide)) hlt (by omega)
      (columnsNat_lt (dmaPlane row) _ 8) (by omega) hcompare howed
  · rw [if_neg hrunning, zero_mul] at howed
    rw [if_neg hrunning]
    have hzero : (packByte row true stateDmaPack 3 : NativeField) = (0 : ℕ) := by
      rw [howed, Nat.cast_zero]
    exact (natCast_inj (lt_trans (Nat.mod_lt _ (by norm_num)) (show 256 < _ by norm_num))
      (by norm_num)).mp hzero

omit hactive in
/-- The other DMA registers are kept over a quiet block, and no byte is owed before it. -/
theorem dmaBytes_of_quiet :
    (devicesAt row false).dmaOwed = 0 ∧ ∀ byte < 3,
      packByte row true stateDmaPack byte = packByte row false stateDmaPack byte := by
  have h := hrow.dma
  simp only [constrainDma, constrainQuietSchedule, holds_append, holds_cons, hquiet, one_mul,
    holds_map, List.mem_range] at h
  obtain ⟨⟨-, ⟨⟨⟨-, howed, -⟩, hkept⟩, -⟩, -⟩, -⟩ := h
  have hlt : ∀ after byte, packByte row after stateDmaPack byte < fieldModulus :=
    fun after byte => lt_trans (Nat.mod_lt _ (by norm_num)) (show 256 < _ by norm_num)
  rw [stateByte_eq hrow false (by norm_num)] at howed
  refine ⟨(natCast_inj (hlt false 3) (by norm_num)).mp (howed.trans Nat.cast_zero.symm), ?_⟩
  intro byte hbyte
  have hbytes := hkept byte hbyte
  rw [stateByte_eq hrow true (by omega), stateByte_eq hrow false (by omega), sub_eq_zero] at hbytes
  exact (natCast_inj (hlt true byte) (hlt false byte)).mp hbytes

end Quiet

section Byte

variable (hone : dmaPlane row dmaByteSelector = 1)

include hone

omit hactive in
/-- The kinds of the slots of a DMA row. -/
theorem slotKinds_of_dmaByte :
    (slotKind row 0 = dmaSourceKindRom ∨ slotKind row 0 = dmaSourceKindMemory) ∧
      slotKind row 1 = dmaWriteKind ∧
      ∀ slot, 2 ≤ slot → slot < basicBlockBusEventBound → slotKind row slot = 0 := by
  have hmachine : MachineSlices row := hrow.toMachineSlices
  have h := hrow.dma
  simp only [constrainDma, constrainDmaSelector, holds_append, holds_cons, holds_map,
    List.mem_range] at h
  obtain ⟨⟨⟨-, ⟨⟨hselector, hwrite, -⟩, hunused⟩, -⟩, -⟩, -⟩ := h
  rw [hone] at hselector hwrite hunused
  rw [slotKindSelector_eq hmachine (by decide) _ (by decide),
    slotKindSelector_eq hmachine (by decide) _ (by decide)] at hselector
  rw [slotKindSelector_eq hmachine (by decide) _ (by decide)] at hwrite
  refine ⟨?_, ?_, ?_⟩
  · by_contra hkind
    rw [not_or] at hkind
    rw [if_neg hkind.1, if_neg hkind.2, add_zero, sub_zero] at hselector
    exact one_ne_zero hselector
  · by_contra hkind
    rw [if_neg hkind, sub_zero] at hwrite
    exact one_ne_zero hwrite
  · intro slot hle hlt
    have hbound : slot < 5 := hlt
    have hempty := hunused (slot - 2) (by show slot - 2 < 5 - 2; omega)
    rw [one_mul, show slot - 2 + 2 = slot by omega, slotActiveValue_eq hmachine hlt] at hempty
    by_contra hkind
    rw [if_neg hkind] at hempty
    exact one_ne_zero hempty

omit hactive in
/-- The copied byte of a DMA row. -/
theorem dmaCopies_of_dmaByte : DmaCopies row (devicesAt row false) := by
  obtain ⟨hsource, hwrite, hrest⟩ := slotKinds_of_dmaByte hrow hone
  have hmachine : MachineSlices row := hrow.toMachineSlices
  have h := hrow.dma
  simp only [constrainDma, constrainDmaByte, holds_append, holds_cons, hone, one_mul] at h
  obtain ⟨-, -, -, -, -, -, -, hfrom, hto, hvalue, -⟩ := h
  rw [slotAddressValue_eq hmachine (by decide), stateByte_eq hrow false (by norm_num),
    stateByte_eq hrow false (by norm_num), sub_eq_zero, ← Nat.cast_mul, ← Nat.cast_add] at hfrom
  rw [slotAddressValue_eq hmachine (by decide), stateByte_eq hrow false (by norm_num), sub_eq_zero,
    ← Nat.cast_add] at hto
  rw [slotValueValue_eq hmachine (by decide), slotValueValue_eq hmachine (by decide),
    sub_eq_zero] at hvalue
  have hhigh : (devicesAt row false).dmaSourceHigh < 256 := Nat.mod_lt _ (by norm_num)
  have hindex : (devicesAt row false).dmaIndex < 256 := Nat.mod_lt _ (by norm_num)
  have haddress := slotAddress_lt row
  have hmodulus : (2 ^ 17 : ℕ) < fieldModulus := by norm_num
  have hfirst := haddress 0
  have hsecond := haddress 1
  have hread := slotValue_lt row 0
  have hwritten := slotValue_lt row 1
  exact
    { source := hsource
      sourceAddress := (natCast_inj (by omega) (by omega)).mp hfrom
      write := hwrite
      writeAddress := (natCast_inj (by omega) (by omega)).mp hto
      value := (natCast_inj (by omega) (by omega)).mp hvalue
      rest := hrest }

/-- The step of the DMA registers on a DMA row. -/
theorem dmaRegisters_of_dmaByte :
    (devicesAt row true).dmaRegisters = (devicesAt row false).completeDmaByte.dmaRegisters := by
  have hbefore := dmaInRange hrow hactive false
  have hafter := dmaInRange hrow hactive true
  have h := hrow.dma
  simp only [constrainDma, constrainDmaByte, holds_append, holds_cons, hone, one_mul,
    Nat.cast_one] at h
  obtain ⟨-, hactiveBit, -, hhigh, hindex, howed, hactiveStep, -⟩ := h
  have hmodulus : (1024 : ℕ) < fieldModulus := by norm_num
  have hsource : ∀ after, (devicesAt row after).dmaSourceHigh < 256 :=
    fun after => Nat.mod_lt _ (by norm_num)
  have hbeforeSource := hsource false
  have hafterSource := hsource true
  have hbeforeIndex := hbefore.index_le
  have hafterIndex := hafter.index_le
  have hbeforeOwed := hbefore.owed_le
  have hafterOwed := hafter.owed_le
  rw [activeBit_eq hrow false, sub_eq_zero] at hactiveBit
  have hrunning : (devicesAt row false).dmaActive = true := by
    by_contra hidle
    rw [if_neg hidle] at hactiveBit
    exact zero_ne_one hactiveBit
  rw [stateByte_eq hrow true (by norm_num), stateByte_eq hrow false (by norm_num),
    sub_eq_zero] at hhigh
  rw [stateByte_eq hrow true (by norm_num), stateByte_eq hrow false (by norm_num), sub_sub,
    sub_eq_zero, ← Nat.cast_succ] at hindex
  rw [stateByte_eq hrow true (by norm_num), stateByte_eq hrow false (by norm_num),
    sub_add_eq_add_sub, sub_eq_zero, ← Nat.cast_succ] at howed
  have hhighKept : (devicesAt row true).dmaSourceHigh = (devicesAt row false).dmaSourceHigh :=
    (natCast_inj (by omega) (by omega)).mp hhigh
  have hindexStep : (devicesAt row true).dmaIndex = (devicesAt row false).dmaIndex + 1 :=
    (natCast_inj (by omega) (by omega)).mp hindex
  have howedStep : (devicesAt row true).dmaOwed + 1 = (devicesAt row false).dmaOwed :=
    (natCast_inj (by omega) (by omega)).mp howed
  have hprefix := indexPrefix_eq hrow hactive true
  change dmaPlane row (afterIndexZeroPrefixStart + 7) = _ at hprefix
  rw [activeBit_eq hrow true, activeBit_eq hrow false, if_pos hrunning, hprefix] at hactiveStep
  have hindexLt := hbefore.index_lt hrunning
  rw [DmgDeviceState.completeDmaByte]
  by_cases hlast : (devicesAt row false).dmaIndex = 159
  · -- The transfer ends with its last byte.
    have hstopped : (devicesAt row true).dmaActive = false := by
      by_contra hon
      rw [Bool.not_eq_false] at hon
      rw [if_pos hon, if_pos (by omega), sub_self, zero_add] at hactiveStep
      exact one_ne_zero hactiveStep
    rw [if_pos hlast]
    simp only [DmgDeviceState.dmaRegisters, Prod.mk.injEq]
    exact ⟨hhighKept, by omega, hstopped, by omega⟩
  · have hon : (devicesAt row true).dmaActive = true := by
      by_contra hoff
      rw [if_neg hoff, if_neg (by omega), zero_sub, add_zero] at hactiveStep
      exact neg_ne_zero.mpr one_ne_zero hactiveStep
    rw [if_neg hlast]
    simp only [DmgDeviceState.dmaRegisters, Prod.mk.injEq]
    exact ⟨hhighKept, hindexStep, hon.trans hrunning.symm, by omega⟩

end Byte

end State

/-- The DMA slice is exact on every row of `BlockDeviceDmaRelation`. A quiet block owes no byte
before, and its DMA registers are those that `schedule_dma_bytes` leaves; a DMA row copies the next
byte to OAM, and its DMA registers are those that `complete_dma_byte` leaves. The registers are in
range on both sides. -/
theorem dmaSlice_exact {row : Row NativeField} (hholds : Holds (BlockDeviceDma.evaluate row)) :
    (quietValue row = 1 → ∀ mCycles < fieldModulus,
      stateDelta (boundaryPlane row) stateCpuMCycles = (mCycles : NativeField) →
      (devicesAt row false).dmaOwed = 0 ∧
        (devicesAt row true).dmaRegisters = ((devicesAt row false).scheduleDmaBytes mCycles
          (devicesAt row false).dmaActive).dmaRegisters) ∧
    (dmaPlane row dmaByteSelector = 1 →
      DmaCopies row (devicesAt row false) ∧
        (devicesAt row true).dmaRegisters =
          (devicesAt row false).completeDmaByte.dmaRegisters) ∧
    (quietValue row = 1 ∨ dmaPlane row dmaByteSelector = 1 →
      ∀ after, DmaInRange (devicesAt row after)) := by
  have hrow : DmaSlices row := DmaSlices.of_holds hholds
  have hquietActive : quietValue row = 1 → blockActiveValue row = 1 :=
    blockActive_of_quiet hrow.toMachineSlices
  have hbyteActive : dmaPlane row dmaByteSelector = 1 → blockActiveValue row = 1 :=
    blockActive_of_dma hrow (by decide)
  refine ⟨?_, ?_, ?_⟩
  · intro hquiet mCycles hlt hcycles
    obtain ⟨howed, hkept⟩ := dmaBytes_of_quiet hrow hquiet
    refine ⟨howed, ?_⟩
    simp only [DmgDeviceState.dmaRegisters, DmgDeviceState.scheduleDmaBytes, Prod.mk.injEq]
    refine ⟨hkept 0 (by norm_num), hkept 1 (by norm_num), ?_,
      owed_of_quiet hrow (hquietActive hquiet) hquiet hlt hcycles⟩
    show decide (packByte row true stateDmaPack 2 = 1) = decide (packByte row false stateDmaPack 2 = 1)
    rw [hkept 2 (by norm_num)]
  · intro hone
    exact ⟨dmaCopies_of_dmaByte hrow hone,
      dmaRegisters_of_dmaByte hrow (hbyteActive hone) hone⟩
  · intro hcase
    exact dmaInRange hrow (hcase.elim hquietActive hbyteActive)

namespace Forgery

/-- The load is quiet and takes two M-cycles with no transfer active. -/
theorem loadRow_dmaScheduled : (devicesAt loadRow false).dmaOwed = 0 ∧
    (devicesAt loadRow true).dmaRegisters = ((devicesAt loadRow false).scheduleDmaBytes 2
      (devicesAt loadRow false).dmaActive).dmaRegisters :=
  (dmaSlice_exact (holds_dma_of_memory ((holds_append _ _).mp loadRow_holds).1)).1 loadRow_quiet 2
    (by norm_num) loadRow_cycles

end Forgery

end Zksm83
