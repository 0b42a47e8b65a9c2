import Zksm83.Core.DeviceInvariant
import Zksm83.Soundness.SerialSlice
import Zksm83.Soundness.WrittenRows

/-!
# The serial slice is exact

The columns that `append_serial_row` writes on a quiet row satisfy the serial slice where the serial
registers evolve as in the core, and a row that satisfies it has registers that evolve so.
-/

namespace Zksm83

open Constraint BlockMetadata BlockBoundary BlockFrontend BlockDeviceEnvelope BlockDevicePpu
  BlockDeviceSerial
open BlockMachine hiding beforeIfBitsStart
open Reading

section Writing

variable {row : Row NativeField} {mCycles : ℕ}

/-- The saturating subtraction satisfies the countdown equation of the slice. -/
theorem step_of_countdown (devices : DmgDeviceState) (mCycles : ℕ) :
    ((devices.serialCyclesRemaining - 4 * mCycles : ℕ) : NativeField) -
      devices.serialCyclesRemaining +
      (1 - if devices.serialCyclesRemaining = 0 then 1 else 0) *
        (1 - if SerialCompletes devices mCycles then 1 else 0) * (4 * (mCycles : NativeField)) +
      (if SerialCompletes devices mCycles then 1 else 0) *
        (devices.serialCyclesRemaining : NativeField) = 0 := by
  by_cases hidle : devices.serialCyclesRemaining = 0
  · rw [if_pos hidle, hidle, Nat.zero_sub, Nat.cast_zero]
    ring
  by_cases hdone : SerialCompletes devices mCycles
  · rw [if_pos hdone, Nat.sub_eq_zero_of_le hdone.2, Nat.cast_zero]
    ring
  · have hrunning : 4 * mCycles ≤ devices.serialCyclesRemaining := by
      by_contra hlt
      exact hdone ⟨hidle, by omega⟩
    rw [if_neg hidle, if_neg hdone, Nat.cast_sub hrunning]
    push_cast
    ring

/-- The serial columns that `append_serial_row` writes on a quiet row. -/
def serialColumn (row : Row NativeField) (mCycles column : ℕ) : ℕ :=
  if column < afterHighBitsStart then
    deviceScalar row false stateDmgHighRegisterPack / 2 ^ column % 2
  else if column < beforeZeroProductsStart then
    deviceScalar row true stateDmgHighRegisterPack / 2 ^ (column - afterHighBitsStart) % 2
  else if column < afterZeroProductsStart then
    if (devicesAt row false).serialCyclesRemaining % 2 ^ (column - beforeZeroProductsStart + 2) = 0
    then 1 else 0
  else if column < serialCompleted then
    if (devicesAt row true).serialCyclesRemaining % 2 ^ (column - afterZeroProductsStart + 2) = 0
    then 1 else 0
  else if column < completionGapBitsStart then
    if SerialCompletes (devicesAt row false) mCycles then 1 else 0
  else if column < beforeIfBitsStart then
    (if SerialCompletes (devicesAt row false) mCycles then
      4 * mCycles - (devicesAt row false).serialCyclesRemaining else 0) /
      2 ^ (column - completionGapBitsStart) % 2
  else if column < afterIfBitsStart then
    deviceScalar row false stateInterruptRequest / 2 ^ (column - beforeIfBitsStart) % 2
  else deviceScalar row true stateInterruptRequest / 2 ^ (column - afterIfBitsStart) % 2

/-- The serial columns as field elements. -/
def serialRow (row : Row NativeField) (mCycles : ℕ) : Row NativeField :=
  fun column => (serialColumn row mCycles column : NativeField)

theorem serialColumn_lt_two (row : Row NativeField) (mCycles column : ℕ) :
    serialColumn row mCycles column < 2 := by
  unfold serialColumn
  split_ifs <;> first | exact Nat.mod_lt _ (by norm_num) | norm_num

/-- Columns that hold the bits of a number recompose it. -/
theorem packedBits_serialRow {start width number : ℕ}
    (hcolumns : ∀ bit < width, serialColumn row mCycles (start + bit) = number / 2 ^ bit % 2)
    (hnumber : number < 2 ^ width) :
    packedBits (serialRow row mCycles) start width = (number : NativeField) := by
  rw [← packed_natBits width number hnumber, packedBits]
  congr 1
  refine List.map_congr_left ?_
  intro bit hbit
  rw [serialRow, hcolumns bit (List.mem_range.mp hbit)]

/-- The registers of the row are encoded, and the other registers of the high pack are kept. -/
structure SerialEncoded (row : Row NativeField) : Prop where
  high_lt : ∀ after, deviceScalar row after stateDmgHighRegisterPack < 2 ^ 64
  request_lt : ∀ after, deviceScalar row after stateInterruptRequest < 2 ^ 5
  kept : ∀ index < 6, packByte row true stateDmgHighRegisterPack index =
    packByte row false stateDmgHighRegisterPack index

/-- The M-cycles of a quiet block: those of a long HALT skip that the core admits, or at most six. -/
structure SerialCycles (row : Row NativeField) (mCycles : ℕ) : Prop where
  vblank : haltUntilVblankValue row = 1 →
    (devicesAt row false).haltUntilVblankMCycles = some mCycles
  serial : haltUntilSerialValue row = 1 →
    (devicesAt row false).haltUntilSerialMCycles = some mCycles
  timer : haltUntilTimerValue row = 1 →
    (devicesAt row false).haltUntilTimerMCycles = some mCycles
  bounded : haltUntilVblankValue row = 0 → haltUntilSerialValue row = 0 →
    haltUntilTimerValue row = 0 → mCycles ≤ 6

theorem highColumn_eq (after : Bool) {bit : ℕ} (hbit : bit < 64) :
    serialColumn row mCycles (highPackStart after + bit) =
      deviceScalar row after stateDmgHighRegisterPack / 2 ^ bit % 2 := by
  cases after
  · show serialColumn row mCycles (0 + bit) = _
    rw [Nat.zero_add, serialColumn, if_pos hbit]
  · show serialColumn row mCycles (64 + bit) = _
    rw [serialColumn, if_neg (show ¬ 64 + bit < 64 by omega),
      if_pos (show 64 + bit < 128 by omega), show 64 + bit - afterHighBitsStart = bit from
      Nat.add_sub_cancel_left 64 bit]

theorem zeroColumn_eq (after : Bool) {index : ℕ} (hindex : index < 12) :
    serialColumn row mCycles (zeroProductsStart after + index) =
      if (devicesAt row after).serialCyclesRemaining % 2 ^ (index + 2) = 0 then 1 else 0 := by
  cases after
  · show serialColumn row mCycles (128 + index) = _
    rw [serialColumn, if_neg (show ¬ 128 + index < 64 by omega),
      if_neg (show ¬ 128 + index < 128 by omega), if_pos (show 128 + index < 140 by omega),
      show 128 + index - beforeZeroProductsStart = index from Nat.add_sub_cancel_left 128 index]
  · show serialColumn row mCycles (140 + index) = _
    rw [serialColumn, if_neg (show ¬ 140 + index < 64 by omega),
      if_neg (show ¬ 140 + index < 128 by omega), if_neg (show ¬ 140 + index < 140 by omega),
      if_pos (show 140 + index < 152 by omega),
      show 140 + index - afterZeroProductsStart = index from Nat.add_sub_cancel_left 140 index]

theorem completedColumn_eq : serialColumn row mCycles serialCompleted =
    if SerialCompletes (devicesAt row false) mCycles then 1 else 0 := by
  show serialColumn row mCycles 152 = _
  rw [serialColumn, if_neg (show ¬ 152 < 64 by omega), if_neg (show ¬ 152 < 128 by omega),
    if_neg (show ¬ 152 < 140 by omega), if_neg (show ¬ 152 < 152 by omega),
    if_pos (show 152 < 153 by omega)]

theorem gapColumn_eq {bit : ℕ} (hbit : bit < 5) :
    serialColumn row mCycles (completionGapBitsStart + bit) =
      (if SerialCompletes (devicesAt row false) mCycles then
        4 * mCycles - (devicesAt row false).serialCyclesRemaining else 0) / 2 ^ bit % 2 := by
  show serialColumn row mCycles (153 + bit) = _
  rw [serialColumn, if_neg (show ¬ 153 + bit < 64 by omega),
    if_neg (show ¬ 153 + bit < 128 by omega), if_neg (show ¬ 153 + bit < 140 by omega),
    if_neg (show ¬ 153 + bit < 152 by omega), if_neg (show ¬ 153 + bit < 153 by omega),
    if_pos (show 153 + bit < 158 by omega),
    show 153 + bit - completionGapBitsStart = bit from Nat.add_sub_cancel_left 153 bit]

theorem requestColumn_eq (after : Bool) {bit : ℕ} (hbit : bit < 5) :
    serialColumn row mCycles (requestStart after + bit) =
      deviceScalar row after stateInterruptRequest / 2 ^ bit % 2 := by
  cases after
  · show serialColumn row mCycles (158 + bit) = _
    rw [serialColumn, if_neg (show ¬ 158 + bit < 64 by omega),
      if_neg (show ¬ 158 + bit < 128 by omega), if_neg (show ¬ 158 + bit < 140 by omega),
      if_neg (show ¬ 158 + bit < 152 by omega), if_neg (show ¬ 158 + bit < 153 by omega),
      if_neg (show ¬ 158 + bit < 158 by omega), if_pos (show 158 + bit < 163 by omega),
      show 158 + bit - beforeIfBitsStart = bit from Nat.add_sub_cancel_left 158 bit]
  · show serialColumn row mCycles (163 + bit) = _
    rw [serialColumn, if_neg (show ¬ 163 + bit < 64 by omega),
      if_neg (show ¬ 163 + bit < 128 by omega), if_neg (show ¬ 163 + bit < 140 by omega),
      if_neg (show ¬ 163 + bit < 152 by omega), if_neg (show ¬ 163 + bit < 153 by omega),
      if_neg (show ¬ 163 + bit < 158 by omega), if_neg (show ¬ 163 + bit < 163 by omega),
      show 163 + bit - afterIfBitsStart = bit from Nat.add_sub_cancel_left 163 bit]

/-- The written columns decompose the high register pack and IF. -/
theorem serialColumns_serialRow (hencoded : SerialEncoded row) :
    SerialColumns row (serialRow row mCycles) where
  bits := by
    intro column _
    have hlt := serialColumn_lt_two row mCycles column
    rcases (show serialColumn row mCycles column = 0 ∨ serialColumn row mCycles column = 1 by omega)
      with hzero | hone
    · exact Or.inl (by rw [serialRow, hzero, Nat.cast_zero])
    · exact Or.inr (by rw [serialRow, hone, Nat.cast_one])
  high := by
    intro after
    rw [packedBits_serialRow (fun bit hbit => highColumn_eq after hbit) (hencoded.high_lt after)]
    exact (ZMod.natCast_zmod_val _).symm
  requests := by
    intro after
    rw [packedBits_serialRow (fun bit hbit => requestColumn_eq after hbit)
      (hencoded.request_lt after)]
    exact (ZMod.natCast_zmod_val _).symm

/-- The six other registers of the high pack, column by column. -/
theorem stableColumn_eq (hencoded : SerialEncoded row) {bit : ℕ} (hbit : bit < 48) :
    deviceScalar row true stateDmgHighRegisterPack / 2 ^ bit % 2 =
      deviceScalar row false stateDmgHighRegisterPack / 2 ^ bit % 2 := by
  have hread : ∀ after, deviceScalar row after stateDmgHighRegisterPack / 2 ^ bit % 2 =
      ((packByte row after stateDmgHighRegisterPack (bit / 8)).testBit (bit % 8)).toNat := by
    intro after
    rw [packByte, show (256 : ℕ) = 2 ^ 8 by norm_num, ← pow_mul, Nat.testBit_mod_two_pow,
      Nat.testBit_div_two_pow, decide_eq_true (Nat.mod_lt bit (by norm_num)), Bool.true_and,
      Nat.mod_add_div, Nat.toNat_testBit]
  rw [hread, hread, hencoded.kept _ (by omega)]

/-- A skip to the serial interrupt ends with the transfer. -/
theorem SerialCycles.of_serial (hadmitted : SerialCycles row mCycles)
    (hserial : haltUntilSerialValue row = 1) :
    (devicesAt row false).serialCyclesRemaining ≠ 0 ∧
      (devicesAt row false).serialCyclesRemaining = 4 * mCycles := by
  have hskip := hadmitted.serial hserial
  unfold DmgDeviceState.haltUntilSerialMCycles at hskip
  split at hskip
  · cases hskip
  rename_i hready
  simp only [Bool.or_eq_true, decide_eq_true_eq, not_or, ne_eq, not_not] at hready
  have hcycles := Option.some.inj hskip
  omega

/-- No transfer runs on a skip to the V-blank interrupt. -/
theorem SerialCycles.of_vblank (hadmitted : SerialCycles row mCycles)
    (hvblank : haltUntilVblankValue row = 1) :
    (devicesAt row false).serialCyclesRemaining = 0 ∧
      (devicesAt row false).serialControl.testBit 7 = false := by
  have hskip := hadmitted.vblank hvblank
  unfold DmgDeviceState.haltUntilVblankMCycles at hskip
  split at hskip
  · cases hskip
  rename_i hready
  simp only [Bool.or_eq_true, decide_eq_true_eq, not_or, ne_eq, not_not, Bool.not_eq_true] at hready
  exact ⟨hready.1.1.1.2, hready.1.1.2⟩

/-- No transfer runs on a skip to the timer interrupt. -/
theorem SerialCycles.of_timer (hadmitted : SerialCycles row mCycles)
    (htimer : haltUntilTimerValue row = 1) :
    (devicesAt row false).serialCyclesRemaining = 0 ∧
      (devicesAt row false).serialControl.testBit 7 = false := by
  have hskip := hadmitted.timer htimer
  unfold DmgDeviceState.haltUntilTimerMCycles at hskip
  split at hskip
  · cases hskip
  rename_i hready
  simp only [Bool.or_eq_true, decide_eq_true_eq, not_or, ne_eq, not_not, Bool.not_eq_true] at hready
  exact ⟨hready.1.1.1.2, hready.1.1.2⟩

section Long

variable (hrow : PpuSlices row) (hadmitted : SerialCycles row mCycles)

include hrow

theorem isBit_halt : IsBit (haltUntilVblankValue row) ∧ IsBit (haltUntilSerialValue row) ∧
    IsBit (haltUntilTimerValue row) :=
  ⟨isBit_machine_column hrow.toMachineSlices (by decide),
    isBit_machine_column hrow.toMachineSlices (by decide),
    isBit_machine_column hrow.toMachineSlices (by decide)⟩

include hadmitted

/-- The T-cycles left over after a completion fit five bits. -/
theorem gap_lt (hdone : SerialCompletes (devicesAt row false) mCycles) :
    4 * mCycles - (devicesAt row false).serialCyclesRemaining < 32 := by
  obtain ⟨hvblank, hserial, htimer⟩ := isBit_halt hrow
  obtain ⟨hstarted, -⟩ := hdone
  rcases hserial with hserial | hserial
  · have hbounded := hadmitted.bounded
      (hvblank.resolve_right (fun hone => hstarted (hadmitted.of_vblank hone).1)) hserial
      (htimer.resolve_right (fun hone => hstarted (hadmitted.of_timer hone).1))
    omega
  · have hends := hadmitted.of_serial hserial
    omega

/-- The gap columns recompose what is left of the ticks. -/
theorem packedBits_gap : packedBits (serialRow row mCycles) completionGapBitsStart 5 =
    ((if SerialCompletes (devicesAt row false) mCycles then
      4 * mCycles - (devicesAt row false).serialCyclesRemaining else 0 : ℕ) : NativeField) := by
  refine packedBits_serialRow (fun bit hbit => gapColumn_eq hbit) ?_
  split
  case isTrue hdone => exact gap_lt hrow hadmitted hdone
  case isFalse => norm_num

/-- The long HALT skips that the core admits satisfy the constraints on them. -/
theorem holds_longModes (hactive : blockActiveValue row = 1) (hencoded : SerialEncoded row)
    (hle : (devicesAt row false).serialCyclesRemaining ≤ 4096) :
    Holds (constrainLongModes row (serialRow row mCycles)) := by
  have hcolumns : SerialColumns row (serialRow row mCycles) := serialColumns_serialRow hencoded
  have hbits := hcolumns.countdownBits_eq false hle
  change countdownBits (serialRow row mCycles) beforeHighBitsStart = _ at hbits
  have hseven : (devicesAt row false).serialControl.testBit 7 = false →
      lowPackBitValue row false serialControlBitSeven = 0 := by
    intro hclear
    refine (isBit_lowPackBit hrow false (by decide)).resolve_right ?_
    change (packByte row false stateDmgLowRegisterPack 1).testBit 7 = false at hclear
    rw [testBit_lowPackByte hrow hactive false (by norm_num) (by norm_num),
      decide_eq_false_iff_not] at hclear
    exact hclear
  -- A skip without a running transfer has an empty countdown and a clear transfer bit.
  have hquiet : (devicesAt row false).serialCyclesRemaining = 0 ∧
      (devicesAt row false).serialControl.testBit 7 = false →
      countdownBits (serialRow row mCycles) beforeHighBitsStart = 0 ∧
        lowPackBitValue row false serialControlBitSeven = 0 := by
    rintro ⟨hempty, hclear⟩
    rw [hbits, hempty, Nat.cast_zero]
    exact ⟨rfl, hseven hclear⟩
  obtain ⟨hvblank, hserial, htimer⟩ := isBit_halt hrow
  simp only [constrainLongModes, holds_cons, holds_nil, and_true, Nat.cast_one]
  refine ⟨?_, ?_, ?_, ?_, ?_, ?_⟩
  · rcases hserial with hzero | hone
    · rw [hzero, zero_mul]
    · have hends := hadmitted.of_serial hone
      rw [serialRow, completedColumn_eq, if_pos ⟨hends.1, hends.2.le⟩, Nat.cast_one, sub_self,
        mul_zero]
  · rcases hserial with hzero | hone
    · rw [hzero, zero_mul]
    · have hends := hadmitted.of_serial hone
      rw [packedBits_gap hrow hadmitted, if_pos ⟨hends.1, hends.2.le⟩, hends.2, Nat.sub_self,
        Nat.cast_zero, mul_zero]
  · rcases hvblank with hzero | hone
    · rw [hzero, zero_mul]
    · rw [(hquiet (hadmitted.of_vblank hone)).1, mul_zero]
  · rcases hvblank with hzero | hone
    · rw [hzero, zero_mul]
    · rw [(hquiet (hadmitted.of_vblank hone)).2, mul_zero]
  · rcases htimer with hzero | hone
    · rw [hzero, zero_mul]
    · rw [(hquiet (hadmitted.of_timer hone)).1, mul_zero]
  · rcases htimer with hzero | hone
    · rw [hzero, zero_mul]
    · rw [(hquiet (hadmitted.of_timer hone)).2, mul_zero]

end Long

/-- The written columns satisfy the serial slice where the devices evolve as in the core. -/
theorem serialFacts_serialRow (hrow : PpuSlices row) (hactive : blockActiveValue row = 1)
    (hsource : IsBit (interruptSourceValue row 3))
    (hcycles : stateDelta (boundaryPlane row) stateCpuMCycles = (mCycles : NativeField))
    (hencoded : SerialEncoded row) (hadmitted : SerialCycles row mCycles)
    (hfits : SerialFits (devicesAt row false).serialControl
      (devicesAt row false).serialCyclesRemaining)
    (hevolves : SerialEvolves (devicesAt row false) (devicesAt row true)
      (decide (interruptSourceValue row 3 = 1)) mCycles) :
    SerialFacts row (serialRow row mCycles) := by
  obtain ⟨hdata, hcontrol, hcountdown, hrequest⟩ := serialEvolves_iff.mp hevolves
  have hcolumns : SerialColumns row (serialRow row mCycles) := serialColumns_serialRow hencoded
  have hbeforeLe := hfits.remaining_le
  have hafterLe : (devicesAt row true).serialCyclesRemaining ≤ 4096 := by omega
  have hle : ∀ after, (devicesAt row after).serialCyclesRemaining ≤ 4096 :=
    Bool.rec hbeforeLe hafterLe
  have hzero : ∀ after, ∀ index < 12,
      serialRow row mCycles (zeroProductsStart after + index) =
        if (devicesAt row after).serialCyclesRemaining % 2 ^ (index + 2) = 0 then 1 else 0 := by
    intro after index hindex
    rw [serialRow, zeroColumn_eq after hindex, Nat.cast_ite, Nat.cast_one, Nat.cast_zero]
  have hlast : ∀ after, serialRow row mCycles (zeroProductsStart after + 11) =
      if (devicesAt row after).serialCyclesRemaining = 0 then 1 else 0 := by
    intro after
    have hsmall := hle after
    rw [hzero after 11 (by norm_num), Nat.mod_eq_of_lt (by omega)]
  have hbeforeZero := hlast false
  have hafterZero := hlast true
  change serialRow row mCycles (beforeZeroProductsStart + 11) = _ at hbeforeZero
  change serialRow row mCycles (afterZeroProductsStart + 11) = _ at hafterZero
  have hcompleted : serialRow row mCycles serialCompleted =
      if SerialCompletes (devicesAt row false) mCycles then 1 else 0 := by
    rw [serialRow, completedColumn_eq, Nat.cast_ite, Nat.cast_one, Nat.cast_zero]
  have hbeforeBits := hcolumns.countdownBits_eq false (hle false)
  have hafterBits := hcolumns.countdownBits_eq true (hle true)
  change countdownBits (serialRow row mCycles) beforeHighBitsStart = _ at hbeforeBits
  change countdownBits (serialRow row mCycles) afterHighBitsStart = _ at hafterBits
  have hregisters := (serialControl_iff hrow hactive
    (SerialCompletes (devicesAt row false) mCycles)).mpr hcontrol
  refine
    { toSerialColumns := hcolumns
      stable := ?stable
      range := fun after => (hcolumns.range_iff after).mpr (hle after)
      zero := fun after => (hcolumns.zero_iff after).mpr (hzero after)
      completed := ?completed
      countdown := ?countdown
      gapBits := ?gapBits
      gap := ?gap
      running := ?running
      data := ?data
      control := hregisters.1
      transfer := ?transfer
      request := ?request
      long := holds_longModes hrow hadmitted hactive hencoded hbeforeLe }
  case stable =>
    intro bit hbit
    have hbefore : serialRow row mCycles (beforeHighBitsStart + bit) = _ :=
      congrArg Nat.cast (highColumn_eq false (by omega))
    have hafter : serialRow row mCycles (afterHighBitsStart + bit) = _ :=
      congrArg Nat.cast (highColumn_eq true (by omega))
    rw [hbefore, hafter, stableColumn_eq hencoded hbit]
  case completed =>
    rw [hcompleted, hbeforeZero, hafterZero, hcountdown]
    by_cases hidle : (devicesAt row false).serialCyclesRemaining = 0
    · rw [if_neg (fun hdone => hdone.1 hidle), if_pos hidle, sub_self, zero_mul]
    · rw [if_neg hidle, sub_zero, one_mul]
      exact if_congr ⟨fun hdone => Nat.sub_eq_zero_of_le hdone.2,
        fun hzero => ⟨hidle, Nat.le_of_sub_eq_zero hzero⟩⟩ rfl rfl
  case countdown =>
    rw [hafterBits, hbeforeBits, hbeforeZero, hcompleted, hcycles, hcountdown]
    exact step_of_countdown _ _
  case gapBits =>
    intro bit hbit
    rw [hcompleted]
    have hgap : serialRow row mCycles (completionGapBitsStart + bit) = _ :=
      congrArg Nat.cast (gapColumn_eq hbit)
    by_cases hdone : SerialCompletes (devicesAt row false) mCycles
    · rw [if_pos hdone, sub_self, zero_mul]
    · rw [hgap, if_neg hdone, if_neg hdone, Nat.zero_div, Nat.zero_mod, Nat.cast_zero, mul_zero]
  case gap =>
    rw [hcompleted, packedBits_gap hrow hadmitted, hbeforeBits, hcycles]
    by_cases hdone : SerialCompletes (devicesAt row false) mCycles
    · rw [if_pos hdone, if_pos hdone, Nat.cast_sub hdone.2]
      push_cast
      ring
    · rw [if_neg hdone, zero_mul]
  case running =>
    intro bit hbit
    rw [hbeforeZero]
    by_cases hidle : (devicesAt row false).serialCyclesRemaining = 0
    · rw [if_pos hidle, sub_self, zero_mul]
    · rw [(running_iff hrow hactive).mpr (hfits.remaining_iff.mp hidle) bit hbit, sub_self, mul_zero]
  case data =>
    rw [hcompleted]
    exact (serialData_iff hrow hactive _).mpr hdata
  case transfer =>
    rw [hcompleted]
    exact hregisters.2
  case request =>
    rw [hcompleted]
    exact (hcolumns.request_iff hsource _).mpr hrequest

end Writing

/-- On a quiet row of `BlockDevicePpuRelation` the serial slice is exact: it forces the serial
registers and the serial request to evolve by clearing the acknowledged request and advancing the
port, and where they evolve so from a well-formed state, columns that satisfy it exist. -/
theorem serialSlice_exact {row : Row NativeField} {mCycles : ℕ}
    (hppu : Holds (BlockDevicePpu.evaluate row)) (hquiet : quietValue row = 1)
    (hcycles : stateDelta (boundaryPlane row) stateCpuMCycles = (mCycles : NativeField)) :
    (4 * mCycles + 4096 < fieldModulus → Holds (BlockDeviceSerial.evaluate row) →
      SerialEvolves (devicesAt row false) (devicesAt row true)
        (decide (interruptSourceValue row 3 = 1)) mCycles) ∧
    (SerialEncoded row → SerialCycles row mCycles →
      SerialFits (devicesAt row false).serialControl
        (devicesAt row false).serialCyclesRemaining →
      SerialEvolves (devicesAt row false) (devicesAt row true)
        (decide (interruptSourceValue row 3 = 1)) mCycles →
      ∃ auxiliary, Holds (constrainSerial row auxiliary)) := by
  have hrow : PpuSlices row := PpuSlices.of_holds hppu
  have hactive : blockActiveValue row = 1 := blockActive_of_quiet hrow.toMachineSlices hquiet
  have hsource : IsBit (machinePlane row (interruptSourceStart + 3)) :=
    isBit_machine_column hrow.toMachineSlices (by decide)
  constructor
  · intro hbound hserial
    obtain ⟨-, hslice⟩ := (holds_append _ _).mp hserial
    exact ((holds_constrainSerial_iff hactive hquiet).mp hslice).serialEvolves hrow hactive hsource
      hbound hcycles
  · intro hencoded hadmitted hfits hevolves
    exact ⟨serialRow row mCycles, (holds_constrainSerial_iff hactive hquiet).mpr
      (serialFacts_serialRow hrow hactive hsource hcycles hencoded hadmitted hfits hevolves)⟩

namespace Forgery

/-- A row of `BlockMemoryRelation` satisfies `BlockDeviceDmaRelation`. -/
theorem holds_dma_of_memory {row : Row NativeField} (hrow : Holds (BlockMemory.evaluate row)) :
    Holds (BlockDeviceDma.evaluate row) := by
  have hppuMmio := ((holds_append _ _).mp hrow).1
  have htimerMmio := ((holds_append _ _).mp hppuMmio).1
  have hserialMmio := ((holds_append _ _).mp htimerMmio).1
  have hapu := ((holds_append _ _).mp hserialMmio).1
  have hjoypad := ((holds_append _ _).mp hapu).1
  have hmmio := ((holds_append _ _).mp hjoypad).1
  exact ((holds_append _ _).mp hmmio).1

/-- A row of `BlockMemoryRelation` satisfies `BlockDeviceSerialRelation`. -/
theorem holds_serial_of_memory {row : Row NativeField} (hrow : Holds (BlockMemory.evaluate row)) :
    Holds (BlockDeviceSerial.evaluate row) := by
  have hinterrupt := ((holds_append _ _).mp (holds_dma_of_memory hrow)).1
  have htimerCore := ((holds_append _ _).mp hinterrupt).1
  have htimer := ((holds_append _ _).mp htimerCore).1
  exact ((holds_append _ _).mp htimer).1

/-- What the serial slice reads off the columns of the load. -/
structure LoadSerialReading : Prop where
  quiet : (quietValue loadResidues).val = 1
  cycles : (localStateValue (boundaryPlane loadResidues) 0 stateCpuMCycles).val = 0 ∧
    (localStateValue (boundaryPlane loadResidues) 4 stateCpuMCycles).val = 2
  scalars : ∀ after, ∀ offset < 4, (deviceStateValue (boundaryPlane loadResidues) after
    (stateInterruptRequest + offset)).val = [1, 1].getD offset 0
  source : (interruptSourceValue loadResidues 3).val = 0
  modes : (haltUntilVblankValue loadResidues).val = 0 ∧
    (haltUntilSerialValue loadResidues).val = 0 ∧ (haltUntilTimerValue loadResidues).val = 0

theorem loadSerialReading : LoadSerialReading :=
  ⟨by decide +kernel, by decide +kernel, by decide +kernel, by decide +kernel, by decide +kernel⟩

theorem loadRow_quiet : quietValue loadRow = 1 := by
  have hvalue : quietValue loadRow = ((quietValue loadResidues).val : NativeField) := by
    show quietValue ((Residue.toZMod fieldModulus).row loadResidues) = _
    rw [← map_quietValue]
    rfl
  rw [hvalue, loadSerialReading.quiet, Nat.cast_one]

theorem loadRow_cycles :
    stateDelta (boundaryPlane loadRow) stateCpuMCycles = ((2 : ℕ) : NativeField) := by
  have hafter : localStateValue (boundaryPlane loadRow) 4 stateCpuMCycles =
      ((2 : ℕ) : NativeField) := nativeRow_eq loadSerialReading.cycles.2
  have hbefore : localStateValue (boundaryPlane loadRow) 0 stateCpuMCycles =
      ((0 : ℕ) : NativeField) := nativeRow_eq loadSerialReading.cycles.1
  show localStateValue (boundaryPlane loadRow) 4 stateCpuMCycles -
    localStateValue (boundaryPlane loadRow) 0 stateCpuMCycles = _
  rw [hafter, hbefore, Nat.cast_zero, sub_zero]

theorem loadRow_scalar (after : Bool) (offset : ℕ) (hoffset : offset < 4) :
    deviceScalar loadRow after (stateInterruptRequest + offset) = [1, 1].getD offset 0 := by
  have heq : deviceStateValue (boundaryPlane loadRow) after (stateInterruptRequest + offset) =
      (([1, 1].getD offset 0 : ℕ) : NativeField) :=
    nativeRow_eq (loadSerialReading.scalars after offset hoffset)
  have hlt : [1, 1].getD offset 0 < 2 := by
    interval_cases offset <;> simp
  rw [deviceScalar, heq, ZMod.val_natCast_of_lt (hlt.trans (by norm_num))]

/-- The load has an empty serial port before and after. -/
theorem loadRow_serialEvolves : SerialEvolves (devicesAt loadRow false) (devicesAt loadRow true)
    (decide (interruptSourceValue loadRow 3 = 1)) 2 ∧
      ∃ auxiliary, Holds (constrainSerial loadRow auxiliary) := by
  have hserial := holds_serial_of_memory ((holds_append _ _).mp loadRow_holds).1
  obtain ⟨hforced, hwritten⟩ := serialSlice_exact ((holds_append _ _).mp hserial).1 loadRow_quiet
    loadRow_cycles
  have hevolves := hforced (by norm_num) hserial
  have hhigh : ∀ after, deviceScalar loadRow after stateDmgHighRegisterPack = 0 :=
    fun after => loadRow_scalar after 3 (by norm_num)
  have hlow : deviceScalar loadRow false stateDmgLowRegisterPack = 0 :=
    loadRow_scalar false 2 (by norm_num)
  have hrequest : ∀ after, deviceScalar loadRow after stateInterruptRequest = 1 :=
    fun after => loadRow_scalar after 0 (by norm_num)
  have hbyte : ∀ after index, packByte loadRow after stateDmgHighRegisterPack index = 0 := by
    intro after index
    rw [packByte, hhigh, Nat.zero_div, Nat.zero_mod]
  have hcontrol : (devicesAt loadRow false).serialControl = 0 := by
    show packByte loadRow false stateDmgLowRegisterPack 1 = 0
    rw [packByte, hlow, Nat.zero_div, Nat.zero_mod]
  have hremaining : (devicesAt loadRow false).serialCyclesRemaining = 0 := by
    show packByte loadRow false stateDmgHighRegisterPack 6 +
      256 * packByte loadRow false stateDmgHighRegisterPack 7 = 0
    rw [hbyte, hbyte]
  obtain ⟨hvblank, hsleep, htimer⟩ := loadSerialReading.modes
  have hoff : ∀ {column}, (loadResidues column).val = 0 → loadRow column ≠ 1 := by
    intro column hzero
    rw [show loadRow column = ((0 : ℕ) : NativeField) from nativeRow_eq hzero, Nat.cast_zero]
    exact zero_ne_one
  refine ⟨hevolves, hwritten ?_ ?_ ?_ hevolves⟩
  · refine ⟨fun after => ?_, fun after => ?_, fun index _ => ?_⟩
    · rw [hhigh]
      norm_num
    · rw [hrequest]
      norm_num
    · rw [hbyte, hbyte]
  · exact ⟨fun hone => absurd hone (hoff hvblank), fun hone => absurd hone (hoff hsleep),
      fun hone => absurd hone (hoff htimer), fun _ _ _ => by norm_num⟩
  · rw [hcontrol, hremaining]
    exact ⟨by norm_num, by norm_num, by decide⟩

end Forgery

end Zksm83
