import Zksm83.Soundness.DeviceReading
import Zksm83.Soundness.MachineReading

/-!
# Reading quiet rows

A quiet row is device-clocked and performs no device I/O. It holds a block, so the register packs
are spelled by the bit columns of the slices that decompose them, and the columns of the low pack
are those of the PPU slice. The device slices are read from here.
-/

namespace Zksm83

open Constraint BlockMetadata BlockBoundary BlockFrontend BlockMachine BlockDeviceEnvelope
  BlockDevicePpu

namespace Reading

theorem holds_ownedBits_iff {count : ℕ} {row : Row NativeField} {owner : ℕ → NativeField} :
    Holds (ownedBits count row owner) ↔
      ∀ column < count, IsBit (row column) ∧ (1 - owner column) * row column = 0 := by
  simp only [ownedBits, holds_flatMap, holds_cons, holds_nil, and_true, List.mem_range,
    ← boolean_eq_zero_iff, boolean, Nat.cast_one]

theorem isBit_eq_iff {first second : NativeField} (hfirst : IsBit first) (hsecond : IsBit second) :
    first = second ↔ (first = 1 ↔ second = 1) := by
  rcases hfirst with rfl | rfl <;> rcases hsecond with rfl | rfl <;> simp

section Spelled

variable {row : Row NativeField} {start width : ℕ}

/-- A stretch of a spelled number is spelled by its columns. -/
theorem columnsNat_div_mod {skip part : ℕ} (hwithin : skip + part ≤ width) :
    columnsNat row start width / 2 ^ skip % 2 ^ part = columnsNat row (start + skip) part := by
  refine Nat.eq_of_testBit_eq ?_
  intro index
  rw [Nat.testBit_mod_two_pow, Nat.testBit_div_two_pow]
  rcases Nat.lt_or_ge index part with hlt | hge
  · rw [testBit_columnsNat row start (show index + skip < width by omega),
      testBit_columnsNat row (start + skip) hlt, decide_eq_true hlt, Bool.true_and,
      show start + (index + skip) = start + skip + index by omega]
  · rw [decide_eq_false (Nat.not_lt.mpr hge), Bool.false_and,
      Nat.testBit_lt_two_pow (lt_of_lt_of_le (columnsNat_lt row (start + skip) part)
        (Nat.pow_le_pow_right (by norm_num) hge))]

theorem columnsNat_eq_zero_iff :
    columnsNat row start width = 0 ↔ ∀ bit < width, row (start + bit) ≠ 1 := by
  constructor
  · intro hzero bit hbit hone
    have hset := testBit_columnsNat row start hbit
    rw [hzero, hone, Nat.zero_testBit, decide_eq_true rfl] at hset
    cases hset
  · intro hnone
    refine Nat.eq_of_testBit_eq ?_
    intro index
    rw [Nat.zero_testBit]
    rcases Nat.lt_or_ge index width with hlt | hge
    · rw [testBit_columnsNat row start hlt, decide_eq_false (hnone index hlt)]
    · exact Nat.testBit_lt_two_pow (lt_of_lt_of_le (columnsNat_lt row start width)
        (Nat.pow_le_pow_right (by norm_num) hge))

/-- A value that bit columns recompose is the number they spell. -/
theorem val_of_packedBits {value : NativeField} (hwidth : width ≤ 64)
    (hbits : ∀ bit < width, IsBit (row (start + bit)))
    (hvalue : value = packedBits row start width) : value.val = columnsNat row start width := by
  have hlt : columnsNat row start width < fieldModulus :=
    (columnsNat_lt row start width).trans_le
      ((Nat.pow_le_pow_right (by norm_num) hwidth).trans (by norm_num))
  rw [hvalue, packedBits_eq_natCast hbits, ZMod.val_natCast_of_lt hlt]

end Spelled

/-- One more column is zero if the columns so far are and the next one is. -/
theorem zeroFlag_succ {row : Row NativeField} {start width : ℕ} (hbit : IsBit (row (start + width))) :
    (if columnsNat row start (width + 1) = 0 then (1 : NativeField) else 0) =
      (if columnsNat row start width = 0 then 1 else 0) * (1 - row (start + width)) := by
  have hpow : 0 < 2 ^ width := Nat.two_pow_pos width
  rw [columnsNat_add, columnsNat_one]
  rcases hbit with hzero | hone
  · rw [hzero, bitNat_zero, Nat.mul_zero, Nat.add_zero, sub_zero, mul_one]
  · rw [hone, bitNat_one, Nat.mul_one, sub_self, mul_zero, if_neg (by omega)]

/-- A chain of complemented bits says which low stretches of the columns are zero. -/
theorem zeroPrefix_of_holds {values : ℕ → NativeField} {row : Row NativeField} {start count : ℕ}
    (hbits : ∀ bit < count, IsBit (row (start + bit)))
    (hchain : Holds (prefixChain count 1 values (fun bit => ((1 : ℕ) : NativeField) -
      row (start + bit)))) {index : ℕ} (hindex : index < count) :
    values index = if columnsNat row start (index + 1) = 0 then 1 else 0 := by
  simp only [prefixChain, holds_map, List.mem_range, sub_eq_zero, Nat.cast_one] at hchain
  induction index with
  | zero =>
    rw [hchain 0 hindex, zeroFlag_succ (hbits 0 hindex)]
    rfl
  | succ index ih =>
    rw [hchain (index + 1) hindex, zeroFlag_succ (hbits (index + 1) hindex), ← ih (by omega)]
    rfl

section Pack

variable {row auxiliary : Row NativeField} {after : Bool} {state start width : ℕ}
  (hwidth : width ≤ 64) (hbits : ∀ bit < width, IsBit (auxiliary (start + bit)))
  (hpack : deviceStateValue (boundaryPlane row) after state = packedBits auxiliary start width)

include hwidth hbits hpack

theorem deviceScalar_of_packedBits :
    deviceScalar row after state = columnsNat auxiliary start width :=
  val_of_packedBits hwidth hbits hpack

/-- A byte of a register pack is spelled by its bit columns. -/
theorem packByte_of_packedBits {index : ℕ} (hindex : 8 * index + 8 ≤ width) :
    packByte row after state index = columnsNat auxiliary (start + 8 * index) 8 := by
  rw [packByte, deviceScalar_of_packedBits hwidth hbits hpack, show (256 : ℕ) = 2 ^ 8 by norm_num,
    ← pow_mul, columnsNat_div_mod hindex]

end Pack

section Quiet

variable {row : Row NativeField}

/-- A register byte is a given byte exactly if their bits agree. -/
theorem packByte_eq_iff {after : Bool} {state index byte : ℕ} (hbyte : byte < 256) :
    packByte row after state index = byte ↔
      ∀ bit < 8, (packByte row after state index).testBit bit = byte.testBit bit := by
  have hlt : packByte row after state index < 256 := Nat.mod_lt _ (by norm_num)
  refine ⟨fun heq bit _ => by rw [heq], ?_⟩
  intro hbits
  refine Nat.eq_of_testBit_eq ?_
  intro bit
  rcases Nat.lt_or_ge bit 8 with hbit | hbit
  · exact hbits bit hbit
  · have hpow : (2 : ℕ) ^ 8 ≤ 2 ^ bit := Nat.pow_le_pow_right (by norm_num) hbit
    rw [Nat.testBit_lt_two_pow (hlt.trans_le hpow), Nat.testBit_lt_two_pow (hbyte.trans_le hpow)]

/-- A device-clocked row holds a block. -/
theorem blockActive_of_quiet (hrow : MachineSlices row) (hquiet : quietValue row = 1) :
    blockActiveValue row = 1 := by
  obtain ⟨hactive, hinstruction⟩ := isBit_metadata hrow
  refine hactive.resolve_left ?_
  intro hzero
  have hnone : instructionValue row = 0 := by
    have h := hrow.metadata
    simp only [BlockMetadata.evaluate, holds_append, holds_cons] at h
    have hinside := h.1.1.1.2.2.1
    rwa [hzero, sub_zero, Nat.cast_one, mul_one] at hinside
  have hmodes : ∀ mode < machineAuxColumnCount, machinePlane row mode = 0 := by
    intro mode hmode
    refine (isBit_machine_column hrow hmode).resolve_right ?_
    intro hone
    have hmachine := machine_eq_one_of_column hrow hmode hone
    rw [hzero, hnone, sub_self] at hmachine
    exact zero_ne_one hmachine
  have hclocked : deviceClockedValue row = 0 := by
    show instructionValue row + machinePlane row haltIdleMode + machinePlane row interruptMode +
      machinePlane row haltUntilVBlankMode + machinePlane row haltUntilSerialMode +
        machinePlane row haltUntilTimerMode = 0
    rw [hnone, hmodes _ (by decide), hmodes _ (by decide), hmodes _ (by decide),
      hmodes _ (by decide), hmodes _ (by decide)]
    norm_num
  rw [quietValue, hclocked, zero_mul] at hquiet
  exact zero_ne_one hquiet

/-- What `BlockDevicePpuRelation` says about a row, slice by slice. -/
structure PpuSlices (row : Row NativeField) : Prop extends MachineSlices row where
  envelope : Holds (constrainDeviceEnvelope row)
  ppu : Holds (constrainPpu row (ppuPlane row))

theorem PpuSlices.of_holds (hrow : Holds (BlockDevicePpu.evaluate row)) : PpuSlices row := by
  obtain ⟨henvelopeRow, hppu⟩ := (holds_append _ _).mp hrow
  obtain ⟨hmachineRow, henvelope⟩ := (holds_append _ _).mp henvelopeRow
  exact ⟨MachineSlices.of_holds hmachineRow, henvelope, hppu⟩

variable (hrow : PpuSlices row)

include hrow

theorem isBit_ppu_column {column : ℕ} (hcolumn : column < ppuAuxColumnCount) :
    IsBit (ppuPlane row column) := by
  have h := hrow.ppu
  simp only [constrainPpu, holds_append] at h
  exact (holds_ownedBits_iff.mp h.1.1 column hcolumn).1

/-- The start of the bit columns of the low register pack. -/
def lowPackStart (after : Bool) : ℕ :=
  if after then afterLowPackBitsStart else beforeLowPackBitsStart

omit hrow in
theorem lowPackBitValue_eq (after : Bool) (bit : ℕ) :
    lowPackBitValue row after bit = ppuPlane row (lowPackStart after + bit) := by
  rw [lowPackBitValue, ppuPlane, slice_apply, lowPackStart, Nat.add_assoc]

theorem isBit_lowPackBit (after : Bool) {bit : ℕ} (hbit : bit < 64) :
    IsBit (lowPackBitValue row after bit) := by
  rw [lowPackBitValue_eq]
  refine isBit_ppu_column hrow ?_
  cases after
  · exact lt_of_lt_of_le (show 0 + bit < 64 by omega) (by decide)
  · exact lt_of_lt_of_le (show 64 + bit < 128 by omega) (by decide)

/-- The low register pack is spelled by its bit columns. -/
theorem lowPack_eq (hactive : blockActiveValue row = 1) (after : Bool) :
    deviceStateValue (boundaryPlane row) after stateDmgLowRegisterPack =
      packedBits (ppuPlane row) (lowPackStart after) 64 := by
  have h := hrow.ppu
  simp only [constrainPpu, constrainPpuTransition, holds_append, holds_cons, hactive,
    one_mul] at h
  obtain ⟨hbefore, hafter, -⟩ := h.1.2.1.1.1.1.1.1
  cases after
  · exact sub_eq_zero.mp hbefore
  · exact sub_eq_zero.mp hafter

/-- A bit of a register in the low pack. -/
theorem testBit_lowPackByte (hactive : blockActiveValue row = 1) (after : Bool) {index bit : ℕ}
    (hindex : index < 8) (hbit : bit < 8) :
    (packByte row after stateDmgLowRegisterPack index).testBit bit =
      decide (lowPackBitValue row after (8 * index + bit) = 1) := by
  have hbits : ∀ other < 64, IsBit (ppuPlane row (lowPackStart after + other)) := by
    intro other hother
    rw [← lowPackBitValue_eq]
    exact isBit_lowPackBit hrow after hother
  rw [packByte_of_packedBits le_rfl hbits (lowPack_eq hrow hactive after) (by omega),
    testBit_columnsNat _ _ hbit, lowPackBitValue_eq, Nat.add_assoc]

end Quiet

end Reading

end Zksm83
