import Zksm83.Core.DeviceClock
import Zksm83.Soundness.QuietRows

/-!
# The serial slice of quiet rows

The serial slice decides from bit columns whether a transfer runs, whether it ends, and how many
T-cycles are left over. `SerialFacts` is the slice on a quiet row, constraint by constraint. Read as
numbers, it forces the serial registers to evolve as in `advance_serial_t_cycles` of `dmg.rs`.
After `block_device_serial.rs`.
-/

namespace Zksm83

open Constraint BlockMetadata BlockBoundary BlockFrontend BlockDeviceEnvelope BlockDevicePpu
  BlockDeviceSerial
open BlockMachine hiding beforeIfBitsStart
open Reading

/-- The devices after the acknowledged request is cleared and the serial port has advanced. -/
def serialAdvanced (devices : DmgDeviceState) (acknowledged : Bool) (mCycles : ℕ) :
    DmgDeviceState :=
  (if acknowledged then devices.acknowledgeInterrupt .serial else devices).advanceSerialTCycles
    (4 * mCycles)

/-- The serial registers and the serial request evolve as in the core. -/
structure SerialEvolves (before after : DmgDeviceState) (acknowledged : Bool) (mCycles : ℕ) :
    Prop where
  data : after.serialData = (serialAdvanced before acknowledged mCycles).serialData
  control : after.serialControl = (serialAdvanced before acknowledged mCycles).serialControl
  countdown : after.serialCyclesRemaining =
    (serialAdvanced before acknowledged mCycles).serialCyclesRemaining
  request : after.interruptRequest.testBit 3 =
    (serialAdvanced before acknowledged mCycles).interruptRequest.testBit 3

/-- A transfer ends within some M-cycles. -/
def SerialCompletes (devices : DmgDeviceState) (mCycles : ℕ) : Prop :=
  devices.serialCyclesRemaining ≠ 0 ∧ devices.serialCyclesRemaining ≤ 4 * mCycles

instance (devices : DmgDeviceState) (mCycles : ℕ) : Decidable (SerialCompletes devices mCycles) :=
  inferInstanceAs (Decidable (_ ∧ _))

section Evolution

variable {before after : DmgDeviceState} {acknowledged : Bool} {mCycles : ℕ}

/-- The serial registers and the serial request after some M-cycles, by whether a transfer ends. -/
theorem serialRegisters_advance (devices : DmgDeviceState) (mCycles : ℕ) :
    (devices.advanceSerialTCycles (4 * mCycles)).serialData =
        (if SerialCompletes devices mCycles then 0xff else devices.serialData) ∧
      (devices.advanceSerialTCycles (4 * mCycles)).serialControl =
        (if SerialCompletes devices mCycles then devices.serialControl &&& 0x7f
          else devices.serialControl) ∧
      (devices.advanceSerialTCycles (4 * mCycles)).serialCyclesRemaining =
        devices.serialCyclesRemaining - 4 * mCycles ∧
      (devices.advanceSerialTCycles (4 * mCycles)).interruptRequest.testBit 3 =
        (devices.interruptRequest.testBit 3 || decide (SerialCompletes devices mCycles)) := by
  by_cases hdone : SerialCompletes devices mCycles
  · simp only [DmgDeviceState.advanceSerialTCycles_done hdone.1 hdone.2, hdone, if_true,
      decide_true, Bool.or_true]
    refine ⟨trivial, trivial, (Nat.sub_eq_zero_of_le hdone.2).symm, ?_⟩
    simp only [DmgDeviceState.requestedBits, if_true, Nat.testBit_or]
    rw [show ((2 : ℕ) ^ DmgInterrupt.serial.bit).testBit 3 = true by rfl, Bool.or_true]
  · simp only [hdone, if_false, decide_false, Bool.or_false]
    rcases Nat.eq_zero_or_pos devices.serialCyclesRemaining with hidle | hstarted
    · rw [DmgDeviceState.advanceSerialTCycles_idle hidle, hidle, Nat.zero_sub]
      exact ⟨rfl, rfl, rfl, rfl⟩
    · have hrunning : 4 * mCycles < devices.serialCyclesRemaining := by
        by_contra hle
        exact hdone ⟨by omega, by omega⟩
      rw [DmgDeviceState.advanceSerialTCycles_running hrunning]
      exact ⟨rfl, rfl, rfl, rfl⟩

/-- How the serial registers and the serial request evolve, by whether a transfer ends. -/
theorem serialEvolves_iff :
    SerialEvolves before after acknowledged mCycles ↔
      after.serialData = (if SerialCompletes before mCycles then 0xff else before.serialData) ∧
      after.serialControl =
        (if SerialCompletes before mCycles then before.serialControl &&& 0x7f
          else before.serialControl) ∧
      after.serialCyclesRemaining = before.serialCyclesRemaining - 4 * mCycles ∧
      after.interruptRequest.testBit 3 =
        (before.interruptRequest.testBit 3 && !acknowledged ||
          decide (SerialCompletes before mCycles)) := by
  have hsplit : SerialEvolves before after acknowledged mCycles ↔
      after.serialData = (serialAdvanced before acknowledged mCycles).serialData ∧
      after.serialControl = (serialAdvanced before acknowledged mCycles).serialControl ∧
      after.serialCyclesRemaining =
        (serialAdvanced before acknowledged mCycles).serialCyclesRemaining ∧
      after.interruptRequest.testBit 3 =
        (serialAdvanced before acknowledged mCycles).interruptRequest.testBit 3 :=
    ⟨fun h => ⟨h.data, h.control, h.countdown, h.request⟩,
      fun h => ⟨h.1, h.2.1, h.2.2.1, h.2.2.2⟩⟩
  rw [hsplit, serialAdvanced]
  cases acknowledged with
  | false =>
    obtain ⟨hdata, hcontrol, hcountdown, hrequest⟩ := serialRegisters_advance before mCycles
    rw [if_neg Bool.false_ne_true, hdata, hcontrol, hcountdown, hrequest, Bool.not_false,
      Bool.and_true]
  | true =>
    -- The acknowledgement clears the request and leaves the serial port alone.
    obtain ⟨hdata, hcontrol, hcountdown, hrequest⟩ :=
      serialRegisters_advance (before.acknowledgeInterrupt .serial) mCycles
    have hcleared : (before.acknowledgeInterrupt .serial).interruptRequest.testBit 3 = false := by
      show (before.interruptRequest &&& (0xff - 2 ^ 3)).testBit 3 = _
      rw [Nat.testBit_and]
      exact Bool.and_false _
    rw [if_pos rfl, hdata, hcontrol, hcountdown, hrequest, hcleared, Bool.not_true, Bool.and_false]
    exact Iff.rfl

end Evolution

section Slice

variable {row auxiliary : Row NativeField}

/-- The start of the bit columns of the high register pack. -/
def highPackStart (after : Bool) : ℕ := if after then afterHighBitsStart else beforeHighBitsStart

/-- The start of the bit columns of IF. -/
def requestStart (after : Bool) : ℕ := if after then afterIfBitsStart else beforeIfBitsStart

/-- The start of the zero test of the countdown. -/
def zeroProductsStart (after : Bool) : ℕ :=
  if after then afterZeroProductsStart else beforeZeroProductsStart

/-- The high pack bits at `highStart` hold a countdown of at most 4096. -/
def CountdownInRange (auxiliary : Row NativeField) (highStart : ℕ) : Prop :=
  (∀ bit < 3, auxiliary (highStart + serialCountdownBitsStart + (bit + 13)) = 0) ∧
    ∀ bit < 12, auxiliary (highStart + serialCountdownBitsStart + 12) *
      auxiliary (highStart + serialCountdownBitsStart + bit) = 0

/-- The columns from `productsStart` on are the running products of complemented bits. -/
def IsZeroProducts (auxiliary : Row NativeField) (bitsStart productsStart : ℕ) : Prop :=
  auxiliary productsStart = (1 - auxiliary bitsStart) * (1 - auxiliary (bitsStart + 1)) ∧
    ∀ bit < 11, auxiliary (productsStart + (bit + 1)) =
      auxiliary (productsStart + bit) * (1 - auxiliary (bitsStart + (bit + 2)))

/-- The columns of the slice are bits that decompose the high register pack and IF. -/
structure SerialColumns (row auxiliary : Row NativeField) : Prop where
  bits : ∀ column < serialAuxColumnCount, IsBit (auxiliary column)
  high : ∀ after, deviceStateValue (boundaryPlane row) after stateDmgHighRegisterPack =
    packedBits auxiliary (highPackStart after) 64
  requests : ∀ after, deviceStateValue (boundaryPlane row) after stateInterruptRequest =
    packedBits auxiliary (requestStart after) 5

/-- The serial slice on a quiet row. -/
structure SerialFacts (row auxiliary : Row NativeField) : Prop
    extends SerialColumns row auxiliary where
  stable : ∀ bit < 48,
    auxiliary (beforeHighBitsStart + bit) = auxiliary (afterHighBitsStart + bit)
  range : ∀ after, CountdownInRange auxiliary (highPackStart after)
  zero : ∀ after, IsZeroProducts auxiliary (highPackStart after + serialCountdownBitsStart)
    (zeroProductsStart after)
  completed : auxiliary serialCompleted =
    (1 - auxiliary (beforeZeroProductsStart + 11)) * auxiliary (afterZeroProductsStart + 11)
  countdown : countdownBits auxiliary afterHighBitsStart -
    countdownBits auxiliary beforeHighBitsStart +
    (1 - auxiliary (beforeZeroProductsStart + 11)) * (1 - auxiliary serialCompleted) *
      (4 * stateDelta (boundaryPlane row) stateCpuMCycles) +
    auxiliary serialCompleted * countdownBits auxiliary beforeHighBitsStart = 0
  gapBits : ∀ bit < 5,
    (1 - auxiliary serialCompleted) * auxiliary (completionGapBitsStart + bit) = 0
  gap : auxiliary serialCompleted * (packedBits auxiliary completionGapBitsStart 5 -
    4 * stateDelta (boundaryPlane row) stateCpuMCycles +
      countdownBits auxiliary beforeHighBitsStart) = 0
  running : ∀ bit ∈ [serialControlBitZero, serialControlBitSeven],
    (1 - auxiliary (beforeZeroProductsStart + 11)) * (lowPackBitValue row false bit - 1) = 0
  data : ∀ bit < 8, lowPackBitValue row true bit - lowPackBitValue row false bit =
    auxiliary serialCompleted * (1 - lowPackBitValue row false bit)
  control : ∀ bit < 7,
    lowPackBitValue row true (bit + 8) = lowPackBitValue row false (bit + 8)
  transfer : lowPackBitValue row true serialControlBitSeven =
    lowPackBitValue row false serialControlBitSeven * (1 - auxiliary serialCompleted)
  request : auxiliary (afterIfBitsStart + 3) -
    auxiliary (beforeIfBitsStart + 3) * (1 - interruptSourceValue row 3) =
    (1 - auxiliary (beforeIfBitsStart + 3) * (1 - interruptSourceValue row 3)) *
      auxiliary serialCompleted
  long : Holds (constrainLongModes row auxiliary)

/-- The serial constraints of a quiet row. -/
theorem holds_constrainSerial_iff (hactive : blockActiveValue row = 1)
    (hquiet : quietValue row = 1) :
    Holds (constrainSerial row auxiliary) ↔ SerialFacts row auxiliary := by
  simp only [constrainSerial, constrainHighPacks, constrainCountdownRange, constrainCountdown,
    constrainZeroProducts, constrainCompletionGap, constrainSerialRegisters,
    constrainSerialInterrupt, holds_append, holds_cons, holds_nil, holds_map, List.mem_range,
    hactive, hquiet, one_mul, and_true, holds_ownedBits_iff, ite_self, sub_self, zero_mul,
    Nat.cast_one, Nat.cast_ofNat, sub_eq_zero]
  constructor
  · rintro ⟨⟨⟨⟨⟨hbits, ⟨⟨⟨hbefore, hafter⟩, hstable⟩, hbeforeRange⟩, hafterRange⟩,
      ⟨⟨⟨hbeforeZero, hafterZero⟩, hcompleted, hcountdown⟩, hgapBits, hgap⟩, hzero, hseven⟩,
      ⟨hdata, hcontrol⟩, htransfer⟩, hbeforeIf, hafterIf, hrequest⟩, hlong⟩
    exact
      { bits := hbits
        high := Bool.rec hbefore hafter
        stable := hstable
        range := Bool.rec hbeforeRange hafterRange
        zero := Bool.rec hbeforeZero hafterZero
        completed := hcompleted
        countdown := hcountdown
        gapBits := hgapBits
        gap := hgap
        running := List.forall_mem_cons.mpr ⟨hzero, List.forall_mem_singleton.mpr hseven⟩
        data := hdata
        control := hcontrol
        transfer := htransfer
        requests := Bool.rec hbeforeIf hafterIf
        request := hrequest
        long := hlong }
  · intro h
    exact ⟨⟨⟨⟨⟨h.bits, ⟨⟨⟨h.high false, h.high true⟩, h.stable⟩, h.range false⟩, h.range true⟩,
      ⟨⟨⟨h.zero false, h.zero true⟩, h.completed, h.countdown⟩, h.gapBits, h.gap⟩,
      h.running _ (by simp), h.running _ (by simp)⟩, ⟨h.data, h.control⟩, h.transfer⟩,
      h.requests false, h.requests true, h.request⟩, h.long⟩

end Slice

section Numbers

variable {auxiliary : Row NativeField} {bitsStart productsStart highStart : ℕ}

/-- The countdown columns are in range exactly if they spell at most 4096. -/
theorem countdownInRange_iff
    (hbits : ∀ bit < 16, IsBit (auxiliary (highStart + serialCountdownBitsStart + bit))) :
    CountdownInRange auxiliary highStart ↔
      columnsNat auxiliary (highStart + serialCountdownBitsStart) 16 ≤ 4096 := by
  set start := highStart + serialCountdownBitsStart with hstart
  have hsplit : columnsNat auxiliary start 16 = columnsNat auxiliary start 12 +
      4096 * (bitNat (auxiliary (start + 12)) + 2 * columnsNat auxiliary (start + 13) 3) := by
    rw [columnsNat_add auxiliary start 12 4, columnsNat_add auxiliary (start + 12) 1 3,
      columnsNat_one]
    norm_num [Nat.add_assoc]
  have hlow := columnsNat_lt auxiliary start 12
  have htop : (∀ bit < 3, auxiliary (start + (bit + 13)) = 0) ↔
      columnsNat auxiliary (start + 13) 3 = 0 := by
    rw [columnsNat_eq_zero_iff]
    refine forall₂_congr ?_
    intro bit hbit
    rw [show start + (bit + 13) = start + 13 + bit by omega]
    have hcolumn := hbits (13 + bit) (by omega)
    rw [← Nat.add_assoc] at hcolumn
    exact ⟨fun hzero hone => zero_ne_one (hzero.symm.trans hone), hcolumn.resolve_right⟩
  rw [CountdownInRange, ← hstart, htop, hsplit]
  rcases hbits 12 (by norm_num) with hzero | hone
  · rw [hzero, bitNat_zero]
    simp only [zero_mul, implies_true, and_true]
    omega
  · have hrest : (∀ bit < 12, auxiliary (start + 12) * auxiliary (start + bit) = 0) ↔
        columnsNat auxiliary start 12 = 0 := by
      rw [columnsNat_eq_zero_iff]
      refine forall₂_congr ?_
      intro bit hbit
      rw [hone, one_mul]
      exact ⟨fun hzero hone => zero_ne_one (hzero.symm.trans hone),
        (hbits bit (by omega)).resolve_right⟩
    rw [hrest, hone, bitNat_one]
    omega

/-- The running products of complemented bits test the low bits for zero. -/
theorem isZeroProducts_iff (hbits : ∀ bit < 16, IsBit (auxiliary (bitsStart + bit))) :
    IsZeroProducts auxiliary bitsStart productsStart ↔ ∀ index < 12,
      auxiliary (productsStart + index) =
        if columnsNat auxiliary bitsStart 16 % 2 ^ (index + 2) = 0 then 1 else 0 := by
  have hmod : ∀ width ≤ 16, columnsNat auxiliary bitsStart 16 % 2 ^ width =
      columnsNat auxiliary bitsStart width := by
    intro width hwidth
    have hread : columnsNat auxiliary bitsStart 16 / 2 ^ 0 % 2 ^ width =
        columnsNat auxiliary (bitsStart + 0) width := columnsNat_div_mod (by omega)
    rwa [pow_zero, Nat.div_one] at hread
  have hstep : ∀ width < 16,
      (if columnsNat auxiliary bitsStart 16 % 2 ^ (width + 1) = 0 then (1 : NativeField) else 0) =
        (if columnsNat auxiliary bitsStart 16 % 2 ^ width = 0 then 1 else 0) *
          (1 - auxiliary (bitsStart + width)) := by
    intro width hwidth
    rw [hmod _ (by omega), hmod _ (by omega), zeroFlag_succ (hbits width hwidth)]
  have hfirst : (if columnsNat auxiliary bitsStart 16 % 2 ^ (0 + 2) = 0 then (1 : NativeField)
      else 0) = (1 - auxiliary bitsStart) * (1 - auxiliary (bitsStart + 1)) := by
    rw [hstep 1 (by norm_num), hstep 0 (by norm_num), pow_zero, Nat.mod_one, if_pos rfl, one_mul,
      Nat.add_zero]
  constructor
  · rintro ⟨hhead, htail⟩ index hindex
    induction index with
    | zero => rw [hfirst, Nat.add_zero, hhead]
    | succ index ih =>
      rw [htail index (by omega), ih (by omega), hstep (index + 2) (by omega)]
  · intro hall
    refine ⟨?_, ?_⟩
    · rw [← hfirst]
      exact hall 0 (by norm_num)
    · intro bit hbit
      rw [hall (bit + 1) (by omega), hall bit (by omega), hstep (bit + 2) (by omega)]

/-- The countdown equations of the slice force the saturating subtraction. -/
theorem countdown_of_step {before after gap mCycles : ℕ} (hbefore : before ≤ 4096)
    (hgapLt : gap < 32) (hbound : 4 * mCycles + 4096 < fieldModulus)
    (hafter : after ≤ 4096)
    (hstep : (after : NativeField) - before + (1 - if before = 0 then 1 else 0) *
      (1 - if before ≠ 0 ∧ after = 0 then 1 else 0) * (4 * (mCycles : NativeField)) +
      (if before ≠ 0 ∧ after = 0 then 1 else 0) * (before : NativeField) = 0)
    (hgap : (if before ≠ 0 ∧ after = 0 then (1 : NativeField) else 0) *
      ((gap : NativeField) - 4 * (mCycles : NativeField) + before) = 0) :
    after = before - 4 * mCycles := by
  have hmodulus : (8192 : ℕ) < fieldModulus := by norm_num
  rcases Nat.eq_zero_or_pos before with rfl | hstarted
  · -- No transfer runs, and the countdown stays at zero.
    have hzero : (after : NativeField) = (0 : ℕ) := by
      simpa using hstep
    rw [natCast_inj (by omega) (by omega)] at hzero
    omega
  have hne : before ≠ 0 := by omega
  by_cases hfinal : after = 0
  · -- The gap is what is left of the ticks.
    rw [if_pos ⟨hne, hfinal⟩, one_mul] at hgap
    have hsum : ((gap + before : ℕ) : NativeField) = (4 * mCycles : ℕ) := by
      push_cast
      linear_combination hgap
    rw [natCast_inj (by omega) (by omega)] at hsum
    omega
  · rw [if_neg hne, if_neg (fun h => hfinal h.2)] at hstep
    have hsum : ((after + 4 * mCycles : ℕ) : NativeField) = (before : ℕ) := by
      push_cast
      linear_combination hstep
    rw [natCast_inj (by omega) (by omega)] at hsum
    omega

end Numbers

section Registers

variable {row : Row NativeField} (hrow : PpuSlices row) (hactive : blockActiveValue row = 1)

include hrow hactive

/-- Serial data becomes `0xff` exactly where a transfer ends. -/
theorem serialData_iff (done : Prop) [Decidable done] :
    (∀ bit < 8, lowPackBitValue row true bit - lowPackBitValue row false bit =
      (if done then 1 else 0) * (1 - lowPackBitValue row false bit)) ↔
    (devicesAt row true).serialData =
      if done then 0xff else (devicesAt row false).serialData := by
  have hlt : (devicesAt row false).serialData < 256 := Nat.mod_lt _ (by norm_num)
  have hfull : ∀ bit < 8, (0xff : ℕ).testBit bit = true := by decide
  refine Iff.trans ?_ (packByte_eq_iff (by split <;> omega)).symm
  refine forall₂_congr ?_
  intro bit hbit
  have hbefore := isBit_lowPackBit hrow false (show bit < 64 by omega)
  have hafter := isBit_lowPackBit hrow true (show bit < 64 by omega)
  rw [testBit_lowPackByte hrow hactive true (by norm_num) hbit, Nat.mul_zero, Nat.zero_add]
  split
  · rw [hfull bit hbit, one_mul, decide_eq_true_eq, sub_left_inj]
  · show _ ↔ _ = (packByte row false stateDmgLowRegisterPack 0).testBit bit
    rw [testBit_lowPackByte hrow hactive false (by norm_num) hbit, Nat.mul_zero, Nat.zero_add,
      zero_mul, sub_eq_zero, decide_eq_decide]
    exact isBit_eq_iff hafter hbefore

/-- The transfer bit is cleared exactly where a transfer ends, and the others are kept. -/
theorem serialControl_iff (done : Prop) [Decidable done] :
    ((∀ bit < 7, lowPackBitValue row true (bit + 8) = lowPackBitValue row false (bit + 8)) ∧
      lowPackBitValue row true serialControlBitSeven =
        lowPackBitValue row false serialControlBitSeven * (1 - if done then 1 else 0)) ↔
    (devicesAt row true).serialControl =
      if done then (devicesAt row false).serialControl &&& 0x7f
      else (devicesAt row false).serialControl := by
  have hlt : (devicesAt row false).serialControl < 256 := Nat.mod_lt _ (by norm_num)
  have hmask : ∀ bit < 7, (0x7f : ℕ).testBit bit = true := by decide
  have htop : (0x7f : ℕ).testBit 7 = false := by decide
  have hread : ∀ after, ∀ bit < 8,
      (packByte row after stateDmgLowRegisterPack 1).testBit bit =
        decide (lowPackBitValue row after (bit + 8) = 1) := by
    intro after bit hbit
    rw [testBit_lowPackByte hrow hactive after (by norm_num) hbit, Nat.mul_one, Nat.add_comm]
  have hbit : ∀ after, ∀ bit < 8, IsBit (lowPackBitValue row after (bit + 8)) :=
    fun after bit hbit => isBit_lowPackBit hrow after (by omega)
  have hkept : ∀ bit < 8,
      (lowPackBitValue row true (bit + 8) = lowPackBitValue row false (bit + 8) ↔
        (packByte row true stateDmgLowRegisterPack 1).testBit bit =
          (packByte row false stateDmgLowRegisterPack 1).testBit bit) := by
    intro bit hlt
    rw [hread true bit hlt, hread false bit hlt, decide_eq_decide,
      isBit_eq_iff (hbit true bit hlt) (hbit false bit hlt)]
  refine Iff.trans ?_ (packByte_eq_iff ?_).symm
  · refine Iff.trans (and_congr (forall₂_congr ?_) ?_) Nat.forall_lt_succ_right.symm
    · intro bit hlow
      rw [hkept bit (by omega)]
      split
      · rw [Nat.testBit_and, hmask bit hlow, Bool.and_true]
        exact Iff.rfl
      · exact Iff.rfl
    · rw [show serialControlBitSeven = 7 + 8 by rfl]
      split
      · rw [Nat.testBit_and, htop, Bool.and_false, hread true 7 (by norm_num), sub_self, mul_zero,
          decide_eq_false_iff_not]
        exact ⟨fun hzero hone => zero_ne_one (hzero.symm.trans hone),
          (hbit true 7 (by norm_num)).resolve_right⟩
      · rw [sub_zero, mul_one, hkept 7 (by norm_num)]
        exact Iff.rfl
  · split
    · exact lt_of_le_of_lt Nat.and_le_right (by norm_num)
    · exact hlt

/-- A running transfer has both control bits set. -/
theorem running_iff :
    (∀ bit ∈ [serialControlBitZero, serialControlBitSeven],
      lowPackBitValue row false bit = 1) ↔ (devicesAt row false).serialControl &&& 0x81 = 0x81 := by
  have hmask : ∀ value < 256,
      (value &&& 0x81 = 0x81 ↔ value.testBit 0 = true ∧ value.testBit 7 = true) := by
    decide +kernel
  change _ ↔ packByte row false stateDmgLowRegisterPack 1 &&& 0x81 = 0x81
  rw [hmask (packByte row false stateDmgLowRegisterPack 1) (Nat.mod_lt _ (by norm_num)),
    testBit_lowPackByte hrow hactive false (by norm_num) (by norm_num),
    testBit_lowPackByte hrow hactive false (by norm_num) (by norm_num), decide_eq_true_eq,
    decide_eq_true_eq, List.forall_mem_cons, List.forall_mem_singleton]

end Registers

namespace SerialColumns

variable {row auxiliary : Row NativeField} (h : SerialColumns row auxiliary) (after : Bool)

include h

theorem isBit_high {bit : ℕ} (hbit : bit < 64) : IsBit (auxiliary (highPackStart after + bit)) := by
  refine h.bits _ ?_
  cases after
  · exact lt_of_lt_of_le (show 0 + bit < 64 by omega) (by decide)
  · exact lt_of_lt_of_le (show 64 + bit < 128 by omega) (by decide)

theorem isBit_countdown {bit : ℕ} (hbit : bit < 16) :
    IsBit (auxiliary (highPackStart after + serialCountdownBitsStart + bit)) := by
  rw [Nat.add_assoc]
  exact h.isBit_high after (show 48 + bit < 64 by omega)

theorem isBit_request {bit : ℕ} (hbit : bit < 5) :
    IsBit (auxiliary (requestStart after + bit)) := by
  refine h.bits _ ?_
  cases after
  · exact lt_of_lt_of_le (show 158 + bit < 163 by omega) (by decide)
  · exact lt_of_lt_of_le (show 163 + bit < 168 by omega) (by decide)

/-- The countdown is spelled by the high two bytes of the pack. -/
theorem remaining_eq : (devicesAt row after).serialCyclesRemaining =
    columnsNat auxiliary (highPackStart after + serialCountdownBitsStart) 16 := by
  show packByte row after stateDmgHighRegisterPack 6 +
    256 * packByte row after stateDmgHighRegisterPack 7 = _
  have hbits : ∀ bit < 64, IsBit (auxiliary (highPackStart after + bit)) :=
    fun bit hbit => h.isBit_high after hbit
  rw [packByte_of_packedBits le_rfl hbits (h.high after) (by norm_num),
    packByte_of_packedBits le_rfl hbits (h.high after) (by norm_num),
    columnsNat_add auxiliary _ 8 8, Nat.add_assoc]
  rfl

theorem range_iff : CountdownInRange auxiliary (highPackStart after) ↔
    (devicesAt row after).serialCyclesRemaining ≤ 4096 := by
  rw [h.remaining_eq after, countdownInRange_iff (fun bit hbit => h.isBit_countdown after hbit)]

theorem zero_iff : IsZeroProducts auxiliary (highPackStart after + serialCountdownBitsStart)
      (zeroProductsStart after) ↔
    ∀ index < 12, auxiliary (zeroProductsStart after + index) =
      if (devicesAt row after).serialCyclesRemaining % 2 ^ (index + 2) = 0 then 1 else 0 := by
  rw [h.remaining_eq after, isZeroProducts_iff (fun bit hbit => h.isBit_countdown after hbit)]

/-- The thirteen low bits hold a countdown in range. -/
theorem countdownBits_eq (hle : (devicesAt row after).serialCyclesRemaining ≤ 4096) :
    countdownBits auxiliary (highPackStart after) =
      ((devicesAt row after).serialCyclesRemaining : NativeField) := by
  have hlow : columnsNat auxiliary (highPackStart after + serialCountdownBitsStart) 16 / 2 ^ 0 %
      2 ^ 13 = columnsNat auxiliary (highPackStart after + serialCountdownBitsStart + 0) 13 :=
    columnsNat_div_mod (by norm_num)
  rw [← h.remaining_eq after, pow_zero, Nat.div_one, Nat.mod_eq_of_lt (by omega)] at hlow
  rw [countdownBits, packedBits_eq_natCast
    (fun bit hbit => h.isBit_countdown after (lt_trans hbit (by decide))), hlow, Nat.add_zero]

/-- The serial request bit. -/
theorem testBit_request : (devicesAt row after).interruptRequest.testBit 3 =
    decide (auxiliary (requestStart after + 3) = 1) := by
  show (deviceScalar row after stateInterruptRequest).testBit 3 = _
  rw [show deviceScalar row after stateInterruptRequest = columnsNat auxiliary (requestStart after) 5
    from val_of_packedBits (by norm_num) (fun bit hbit => h.isBit_request after hbit)
      (h.requests after), testBit_columnsNat _ _ (by norm_num)]

/-- The serial request is cleared by its acknowledgement and set where a transfer ends. -/
theorem request_iff (hsource : IsBit (interruptSourceValue row 3)) (done : Prop) [Decidable done] :
    auxiliary (afterIfBitsStart + 3) -
        auxiliary (beforeIfBitsStart + 3) * (1 - interruptSourceValue row 3) =
      (1 - auxiliary (beforeIfBitsStart + 3) * (1 - interruptSourceValue row 3)) *
        (if done then 1 else 0) ↔
    (devicesAt row true).interruptRequest.testBit 3 =
      ((devicesAt row false).interruptRequest.testBit 3 &&
        !decide (interruptSourceValue row 3 = 1) || decide done) := by
  rw [h.testBit_request true, h.testBit_request false]
  show auxiliary (afterIfBitsStart + 3) - _ = _ ↔
    decide (auxiliary (afterIfBitsStart + 3) = 1) =
      (decide (auxiliary (beforeIfBitsStart + 3) = 1) && _ || _)
  have hbefore : IsBit (auxiliary (beforeIfBitsStart + 3)) := h.isBit_request false (by norm_num)
  have hafter : IsBit (auxiliary (afterIfBitsStart + 3)) := h.isBit_request true (by norm_num)
  by_cases hdone : done <;> rcases hbefore with hbefore | hbefore <;>
    rcases hafter with hafter | hafter <;> rcases hsource with hsource | hsource <;>
    simp [hdone, hbefore, hafter, hsource]

end SerialColumns

namespace SerialFacts

variable {row auxiliary : Row NativeField} {mCycles : ℕ} (h : SerialFacts row auxiliary)

include h

theorem remaining_le (after : Bool) : (devicesAt row after).serialCyclesRemaining ≤ 4096 :=
  (h.range_iff after).mp (h.range after)

/-- The last running product says that the countdown is zero. -/
theorem zero_eq (after : Bool) : auxiliary (zeroProductsStart after + 11) =
    if (devicesAt row after).serialCyclesRemaining = 0 then 1 else 0 := by
  have hle := h.remaining_le after
  have hlast := (h.zero_iff after).mp (h.zero after) 11 (by norm_num)
  rwa [Nat.mod_eq_of_lt (by omega)] at hlast

/-- The countdown runs down, and it is completed where it reaches zero. -/
theorem countdown_eq (hbound : 4 * mCycles + 4096 < fieldModulus)
    (hcycles : stateDelta (boundaryPlane row) stateCpuMCycles = (mCycles : NativeField)) :
    (devicesAt row true).serialCyclesRemaining =
        (devicesAt row false).serialCyclesRemaining - 4 * mCycles ∧
      auxiliary serialCompleted =
        if SerialCompletes (devicesAt row false) mCycles then 1 else 0 := by
  have hbefore := h.zero_eq false
  have hafter := h.zero_eq true
  change auxiliary (beforeZeroProductsStart + 11) = _ at hbefore
  change auxiliary (afterZeroProductsStart + 11) = _ at hafter
  have hcompleted : auxiliary serialCompleted =
      if (devicesAt row false).serialCyclesRemaining ≠ 0 ∧
        (devicesAt row true).serialCyclesRemaining = 0 then 1 else 0 := by
    rw [h.completed, hbefore, hafter]
    split_ifs <;> simp_all
  have hgapBits : ∀ bit < 5, IsBit (auxiliary (completionGapBitsStart + bit)) :=
    fun bit hbit => h.bits _ (lt_of_lt_of_le (show 153 + bit < 158 by omega) (by decide))
  have hstep := h.countdown
  have hgap := h.gap
  have hbeforeBits := h.countdownBits_eq false (h.remaining_le false)
  have hafterBits := h.countdownBits_eq true (h.remaining_le true)
  change countdownBits auxiliary beforeHighBitsStart = _ at hbeforeBits
  change countdownBits auxiliary afterHighBitsStart = _ at hafterBits
  rw [hafterBits, hbeforeBits, hbefore, hcompleted, hcycles] at hstep
  rw [hbeforeBits, packedBits_eq_natCast hgapBits, hcompleted, hcycles] at hgap
  have hcountdown := countdown_of_step (h.remaining_le false) (columnsNat_lt auxiliary _ 5) hbound
    (h.remaining_le true) hstep hgap
  refine ⟨hcountdown, ?_⟩
  rw [hcompleted]
  refine if_congr (and_congr_right ?_) rfl rfl
  intro hne
  omega

/-- The serial slice forces the serial registers to evolve as in the core. -/
theorem serialEvolves (hrow : PpuSlices row) (hactive : blockActiveValue row = 1)
    (hsource : IsBit (interruptSourceValue row 3)) (hbound : 4 * mCycles + 4096 < fieldModulus)
    (hcycles : stateDelta (boundaryPlane row) stateCpuMCycles = (mCycles : NativeField)) :
    SerialEvolves (devicesAt row false) (devicesAt row true)
      (decide (interruptSourceValue row 3 = 1)) mCycles := by
  obtain ⟨hcountdown, hcompleted⟩ := h.countdown_eq hbound hcycles
  have hdata := h.data
  have htransfer := h.transfer
  have hrequest := h.request
  rw [hcompleted] at hdata htransfer hrequest
  rw [serialEvolves_iff]
  exact ⟨(serialData_iff hrow hactive _).mp hdata,
    (serialControl_iff hrow hactive _).mp ⟨h.control, htransfer⟩, hcountdown,
    (h.request_iff hsource _).mp hrequest⟩

end SerialFacts

end Zksm83
