import Zksm83.Soundness.DeviceReading
import Zksm83.Soundness.MachineReading

/-!
# Machine rows and the event of the core

The machine columns spell the interrupt registers, the program counter and the stack pointer before
the row, and the prefix columns select the first enabled request. An interrupt row is the dispatch
of that request, a HALT-wake row a wake of the core, and the sleeping modes sit at a halted CPU
without an enabled request. Read `machineEvent_row` first.
-/

namespace Zksm83

open Constraint BlockMetadata BlockBoundary BlockFrontend BlockMachine

namespace DmgDeviceState

/-- Whether a source is requested and enabled. -/
def Pending (devices : DmgDeviceState) (bit : ℕ) : Prop :=
  devices.interruptRequest.testBit bit = true ∧ devices.interruptEnable.testBit bit = true

instance (devices : DmgDeviceState) (bit : ℕ) : Decidable (devices.Pending bit) :=
  inferInstanceAs (Decidable (_ ∧ _))

theorem pendingInterrupt_eq (devices : DmgDeviceState) :
    devices.pendingInterrupt =
      if devices.Pending 0 then some .vblank
      else if devices.Pending 1 then some .lcdStat
      else if devices.Pending 2 then some .timer
      else if devices.Pending 3 then some .serial
      else if devices.Pending 4 then some .joypad
      else none := by
  simp only [pendingInterrupt, Pending, Nat.testBit_and, Bool.and_eq_true]
  congr

/-- The pending interrupt is the first source that is requested and enabled. -/
theorem pendingInterrupt_eq_some_iff (devices : DmgDeviceState) (interrupt : DmgInterrupt) :
    devices.pendingInterrupt = some interrupt ↔
      devices.Pending interrupt.bit ∧ ∀ bit < interrupt.bit, ¬ devices.Pending bit := by
  rw [pendingInterrupt_eq]
  cases interrupt <;>
    simp only [DmgInterrupt.bit, Nat.forall_lt_succ_right, Nat.not_lt_zero, false_implies,
      implies_true, true_and, and_true] <;>
    split_ifs <;> simp_all

theorem pendingInterrupt_eq_none_iff (devices : DmgDeviceState) :
    devices.pendingInterrupt = none ↔ ∀ bit < 5, ¬ devices.Pending bit := by
  rw [pendingInterrupt_eq]
  simp only [Nat.forall_lt_succ_right, Nat.not_lt_zero, false_implies, implies_true, true_and]
  split_ifs <;> simp_all

end DmgDeviceState

namespace Reading

section Machine

variable {row : Row NativeField} (hrow : MachineSlices row)
  (hmachine : blockActiveValue row - instructionValue row = 1)

include hrow hmachine

omit hmachine in
/-- A scalar that the machine columns recompose is the number they spell. -/
theorem val_eq_columnsNat {value : NativeField} {start width : ℕ}
    (hwithin : start + width ≤ machineAuxColumnCount) (hwidth : width < 64)
    (hpacked : value - packedBits (machinePlane row) start width = 0) :
    value.val = columnsNat (machinePlane row) start width := by
  have hbits : ∀ bit < width, IsBit (machinePlane row (start + bit)) := by
    intro bit hbit
    exact isBit_machine_column hrow (lt_of_lt_of_le (Nat.add_lt_add_left hbit start) hwithin)
  have hlt := columnsNat_lt (machinePlane row) start width
  have hsmall : 2 ^ width < fieldModulus :=
    (Nat.pow_lt_pow_right (by norm_num) hwidth).trans (by norm_num)
  rw [sub_eq_zero.mp hpacked, packedBits_eq_natCast hbits,
    ZMod.val_natCast_of_lt (hlt.trans hsmall)]

theorem holds_machineInputs :
    deviceScalar row false stateInterruptRequest =
        columnsNat (machinePlane row) beforeIfBitsStart 5 ∧
      deviceScalar row false stateInterruptEnable =
        columnsNat (machinePlane row) beforeIeBitsStart 5 ∧
      scalar row 0 statePc = columnsNat (machinePlane row) beforePcBitsStart 16 ∧
      scalar row 0 stateSp = columnsNat (machinePlane row) beforeSpBitsStart 16 := by
  have h := hrow.machine
  simp only [constrainMachine, constrainMachineInputs, holds_append, holds_cons] at h
  obtain ⟨hrequest, henable, hpc, hsp, -⟩ := h.1.1.1.1.1.2
  rw [hmachine, one_mul] at hrequest henable hpc hsp
  exact ⟨val_eq_columnsNat hrow (by decide) (by decide) hrequest,
    val_eq_columnsNat hrow (by decide) (by decide) henable,
    val_eq_columnsNat hrow (by decide) (by decide) hpc,
    val_eq_columnsNat hrow (by decide) (by decide) hsp⟩

/-- A source is pending exactly if both of its columns are set. -/
theorem pending_iff {bit : ℕ} (hbit : bit < 5) :
    (devicesAt row false).Pending bit ↔ machinePlane row (beforeIfBitsStart + bit) = 1 ∧
      machinePlane row (beforeIeBitsStart + bit) = 1 := by
  obtain ⟨hrequest, henable, -, -⟩ := holds_machineInputs hrow hmachine
  have hrequestBit : (devicesAt row false).interruptRequest.testBit bit =
      decide (machinePlane row (beforeIfBitsStart + bit) = 1) := by
    rw [← testBit_columnsNat _ _ hbit, ← hrequest]
    rfl
  have henableBit : (devicesAt row false).interruptEnable.testBit bit =
      decide (machinePlane row (beforeIeBitsStart + bit) = 1) := by
    rw [← testBit_columnsNat _ _ hbit, ← henable]
    rfl
  rw [DmgDeviceState.Pending, hrequestBit, henableBit, decide_eq_true_iff, decide_eq_true_iff]

theorem pendingValue_eq {bit : ℕ} (hbit : bit < 5) : pendingValue (machinePlane row) bit =
    if (devicesAt row false).Pending bit then 1 else 0 := by
  have hcolumn : ∀ column < machineAuxColumnCount, IsBit (machinePlane row column) :=
    fun column hlt => isBit_machine_column hrow hlt
  have hif := hcolumn (beforeIfBitsStart + bit)
    (lt_of_lt_of_le (Nat.add_lt_add_left hbit _) (by decide))
  have hie := hcolumn (beforeIeBitsStart + bit)
    (lt_of_lt_of_le (Nat.add_lt_add_left hbit _) (by decide))
  simp only [pending_iff hrow hmachine hbit, pendingValue]
  rcases hif with hif | hif <;> rcases hie with hie | hie <;> simp [hif, hie]

theorem holds_priority {bit : ℕ} (hbit : bit < 5) :
    machinePlane row (pendingClearPrefixStart + bit) =
        higherClear (machinePlane row) 1 bit * (1 - pendingValue (machinePlane row) bit) ∧
      machinePlane row (interruptSourceStart + bit) =
        modeValue (machinePlane row) interruptMode * pendingValue (machinePlane row) bit *
          higherClear (machinePlane row) 1 bit := by
  have h := hrow.machine
  simp only [constrainMachine, constrainInterruptPriority, holds_append, holds_flatMap,
    List.mem_range, holds_cons] at h
  obtain ⟨hclear, hsource, -⟩ := h.1.1.1.1.2.1 bit hbit
  rw [hmachine, Nat.cast_one] at hclear
  rw [hmachine] at hsource
  exact ⟨sub_eq_zero.mp hclear, sub_eq_zero.mp hsource⟩

/-- The prefix columns say whether an earlier source is pending. -/
theorem higherClear_eq {bit : ℕ} (hbit : bit ≤ 5) : higherClear (machinePlane row) 1 bit =
    if ∀ earlier < bit, ¬ (devicesAt row false).Pending earlier then 1 else 0 := by
  induction bit with
  | zero => simp [higherClear, previous]
  | succ bit ih =>
    have hlt : bit < 5 := hbit
    have hstep : higherClear (machinePlane row) 1 (bit + 1) =
        machinePlane row (pendingClearPrefixStart + bit) := rfl
    rw [hstep, (holds_priority hrow hmachine hlt).1, ih (Nat.le_of_succ_le hbit),
      pendingValue_eq hrow hmachine hlt]
    simp only [Nat.forall_lt_succ_right]
    by_cases hclear : ∀ earlier < bit, ¬ (devicesAt row false).Pending earlier <;>
      by_cases hpending : (devicesAt row false).Pending bit <;> simp [hclear, hpending]

/-- The last prefix column says whether no source is pending. -/
theorem nonePending_iff : machinePlane row (pendingClearPrefixStart + 4) = 1 ↔
    (devicesAt row false).pendingInterrupt = none := by
  have hstep : higherClear (machinePlane row) 1 5 = machinePlane row (pendingClearPrefixStart + 4) :=
    rfl
  rw [← hstep, higherClear_eq hrow hmachine le_rfl, DmgDeviceState.pendingInterrupt_eq_none_iff]
  split <;> simp_all

end Machine

/-- A local scalar with a small value. -/
theorem scalar_eq {row : Row NativeField} {boundary state n : ℕ} (hn : n < 1000000)
    (h : localStateValue (boundaryPlane row) boundary state = (n : NativeField)) :
    scalar row boundary state = n := by
  rw [scalar, h, ZMod.val_natCast_of_lt (hn.trans (by norm_num))]

/-- The master enable of a code. -/
def imeOfCode : ℕ → ImeState
  | 0 => .disabled
  | 1 => .enablePending
  | _ => .enabled

/-- The run state of a code. -/
def runStateOfCode : ℕ → RunState
  | 0 => .running
  | 1 => .halted
  | 2 => .stopped
  | _ => .haltBug

theorem ime_cpuAt {row : Row NativeField} {boundary code : ℕ}
    (h : scalar row boundary stateIme = code) : (cpuAt row boundary).ime = imeOfCode code := by
  subst h
  rfl

theorem runState_cpuAt {row : Row NativeField} {boundary code : ℕ}
    (h : scalar row boundary stateRunState = code) :
    (cpuAt row boundary).runState = runStateOfCode code := by
  subst h
  rfl

section Modes

variable {row : Row NativeField} (hrow : MachineSlices row)

include hrow

/-- What an interrupt row says about the run state and the master enable. -/
theorem interrupt_latches (hmode : modeValue (machinePlane row) interruptMode = 1) :
    (scalar row 0 stateRunState = 0 ∨ scalar row 0 stateRunState = 1 ∨
        scalar row 0 stateRunState = 3) ∧
      scalar row 0 stateIme = 2 ∧ scalar row basicBlockInstructionBound stateIme = 0 ∧
      scalar row basicBlockInstructionBound stateRunState = 0 := by
  have h := hrow.machine
  simp only [constrainMachine, constrainModeSelection, holds_append, holds_cons] at h
  obtain ⟨hrun, hime, himeAfter, hrunAfter, -⟩ := h.1.1.1.2.1
  rw [hmode, one_mul] at hrun hime himeAfter hrunAfter
  refine ⟨?_, scalar_eq (by norm_num) (sub_eq_zero.mp hime),
    scalar_eq (by norm_num) (himeAfter.trans Nat.cast_zero.symm),
    scalar_eq (by norm_num) (hrunAfter.trans Nat.cast_zero.symm)⟩
  rcases mul_eq_zero.mp hrun with hpair | hthree
  · rcases mul_eq_zero.mp hpair with hzero | hone
    · exact Or.inl (scalar_eq (by norm_num) (hzero.trans Nat.cast_zero.symm))
    · exact Or.inr (Or.inl (scalar_eq (by norm_num) (sub_eq_zero.mp hone)))
  · exact Or.inr (Or.inr (scalar_eq (by norm_num) (sub_eq_zero.mp hthree)))

/-- The first pending source of an interrupt row. -/
theorem interrupt_pending (hmode : modeValue (machinePlane row) interruptMode = 1) :
    ∃ interrupt, (devicesAt row false).pendingInterrupt = some interrupt ∧
      ∀ bit < 5, machinePlane row (interruptSourceStart + bit) =
        if bit = interrupt.bit then 1 else 0 := by
  have hmachine := machine_eq_one_of_column hrow (by decide) hmode
  have hsource : ∀ bit < 5, machinePlane row (interruptSourceStart + bit) =
      if (devicesAt row false).Pending bit ∧
        ∀ earlier < bit, ¬ (devicesAt row false).Pending earlier then 1 else 0 := by
    intro bit hbit
    rw [(holds_priority hrow hmachine hbit).2, hmode, one_mul, pendingValue_eq hrow hmachine hbit,
      higherClear_eq hrow hmachine (Nat.le_of_lt hbit)]
    by_cases hpending : (devicesAt row false).Pending bit <;> simp [hpending]
  have h := hrow.machine
  simp only [constrainMachine, constrainInterruptPriority, holds_append, holds_cons] at h
  have htotal := sub_eq_zero.mp h.1.1.1.1.2.2.1
  rw [hmode] at htotal
  cases hpending : (devicesAt row false).pendingInterrupt with
  | none =>
    -- Without a pending source the sources would sum up to zero.
    rw [DmgDeviceState.pendingInterrupt_eq_none_iff] at hpending
    rw [totalOver_eq_sum, Finset.sum_eq_zero] at htotal
    · exact absurd htotal zero_ne_one
    · intro bit hbit
      have hlt := Finset.mem_range.mp hbit
      rw [hsource bit hlt, if_neg (fun hboth => hpending bit hlt hboth.1)]
  | some interrupt =>
    refine ⟨interrupt, rfl, ?_⟩
    have hfirst := (DmgDeviceState.pendingInterrupt_eq_some_iff _ _).mp hpending
    intro bit hbit
    rw [hsource bit hbit]
    refine if_congr ?_ rfl rfl
    constructor
    · rintro ⟨hset, hclear⟩
      rcases lt_trichotomy bit interrupt.bit with hlt | heq | hgt
      · exact absurd hset (hfirst.2 bit hlt)
      · exact heq
      · exact absurd hfirst.1 (hclear _ hgt)
    · rintro rfl
      exact hfirst

omit hrow in
/-- The selected source gives the vector. -/
theorem vector_eq {interrupt : DmgInterrupt}
    (hsource : ∀ bit < 5, machinePlane row (interruptSourceStart + bit) =
      if bit = interrupt.bit then 1 else 0) :
    totalOver 5 (fun source => machinePlane row (interruptSourceStart + source) *
      ((interruptVectors.getD source 0 : ℕ) : NativeField)) =
      ((interrupt.vector : ℕ) : NativeField) := by
  rw [totalOver_eq_sum, Finset.sum_eq_single interrupt.bit]
  · rw [hsource _ (by cases interrupt <;> decide), if_pos rfl, one_mul]
    cases interrupt <;> rfl
  · intro bit hbit hne
    rw [hsource bit (Finset.mem_range.mp hbit), if_neg hne, zero_mul]
  · intro hnot
    exact absurd (Finset.mem_range.mpr (by cases interrupt <;> decide)) hnot

omit hrow in
/-- A 16-bit number that is another one less an offset, up to a wrap bit. -/
theorem eq_sub_mod {value base offset : ℕ} {wrap : NativeField} (hwrap : IsBit wrap)
    (hvalue : value < 65536) (hbase : base < 65536) (hoffset : offset ≤ 2)
    (h : (value : NativeField) - (base : NativeField) + (offset : NativeField) -
      ((65536 : ℕ) : NativeField) * wrap = 0) :
    value = (base + (65536 - offset)) % 65536 := by
  have hnat : ((value + offset : ℕ) : NativeField) =
      ((base + 65536 * bitNat wrap : ℕ) : NativeField) := by
    push_cast
    rw [natCast_bitNat hwrap]
    push_cast at h
    linear_combination h
  have hle := bitNat_le_one wrap
  have heq := eq_of_natCast_eq hnat (by omega) (by omega)
  omega

/-- The numbers of the stack pointer and the program counter before a machine row have 16 bits. -/
theorem machineInputs_lt (hmachine : blockActiveValue row - instructionValue row = 1) :
    scalar row 0 statePc < 65536 ∧ scalar row 0 stateSp < 65536 := by
  obtain ⟨-, -, hpc, hsp⟩ := holds_machineInputs hrow hmachine
  rw [hpc, hsp]
  exact ⟨columnsNat_lt _ _ 16, columnsNat_lt _ _ 16⟩

/-- The program counter, the stack pointer and the two pushes of an interrupt row. -/
theorem interrupt_cpu (hmode : modeValue (machinePlane row) interruptMode = 1)
    {interrupt : DmgInterrupt} (hsource : ∀ bit < 5, machinePlane row (interruptSourceStart + bit) =
      if bit = interrupt.bit then 1 else 0) :
    scalar row basicBlockInstructionBound statePc = interrupt.vector ∧
      scalar row basicBlockInstructionBound stateSp = (scalar row 0 stateSp + 65534) % 65536 ∧
      slotAddress row 0 = (scalar row 0 stateSp + 65535) % 65536 ∧
      slotAddress row 1 = (scalar row 0 stateSp + 65534) % 65536 ∧
      slotValue row 0 = scalar row 0 statePc / 256 ∧
      slotValue row 1 = scalar row 0 statePc % 256 := by
  have hmachine := machine_eq_one_of_column hrow (by decide) hmode
  obtain ⟨-, -, hpcBits, -⟩ := holds_machineInputs hrow hmachine
  obtain ⟨-, hspLt⟩ := machineInputs_lt hrow hmachine
  have h := hrow.machine
  simp only [constrainMachine, constrainCpu, constrainInterruptCpu, holds_append, holds_cons] at h
  obtain ⟨hpc, hsp, hfirst, hsecond, hhigh, hlow, -⟩ := h.1.2.2.1.1
  rw [hmode, one_mul] at hpc hsp hfirst hsecond hhigh hlow
  rw [vector_eq hsource] at hpc
  have hwrap : ∀ column < machineAuxColumnCount, IsBit (machinePlane row column) :=
    fun column hlt => isBit_machine_column hrow hlt
  have hbits : ∀ (start width : ℕ), start + width ≤ machineAuxColumnCount →
      packedBits (machinePlane row) start width =
        ((columnsNat (machinePlane row) start width : ℕ) : NativeField) := by
    intro start width hwithin
    refine packedBits_eq_natCast (fun bit hbit => hwrap _ ?_)
    exact lt_of_lt_of_le (Nat.add_lt_add_left hbit start) hwithin
  have hbefore := natCast_scalar row 0 stateSp
  rw [slotAddressValue_eq hrow (by decide), ← hbefore] at hfirst hsecond
  rw [slotValueValue_eq hrow (by decide), hbits _ _ (by decide)] at hhigh hlow
  have hsecondEq := eq_sub_mod (hwrap stackWrap (by decide)) (slotAddress_lt row 1) hspLt le_rfl
    hsecond
  have hfirstEq := eq_sub_mod (hwrap stackFirstWrap (by decide)) (slotAddress_lt row 0) hspLt
    one_le_two hfirst
  have hsplit := columnsNat_add (machinePlane row) beforePcBitsStart 8 8
  have hlowLt := columnsNat_lt (machinePlane row) beforePcBitsStart 8
  have hpcEq : scalar row 0 statePc = columnsNat (machinePlane row) beforePcBitsStart 8 +
      2 ^ 8 * columnsNat (machinePlane row) (beforePcBitsStart + 8) 8 := hpcBits.trans hsplit
  have hsmall : ∀ start, columnsNat (machinePlane row) start 8 < 1000000000000 :=
    fun start => (columnsNat_lt (machinePlane row) start 8).trans (by norm_num)
  have hhighEq := eq_of_natCast_eq (sub_eq_zero.mp hhigh)
    ((slotValue_lt row 0).trans (by norm_num)) (hsmall _)
  have hlowEq := eq_of_natCast_eq (sub_eq_zero.mp hlow)
    ((slotValue_lt row 1).trans (by norm_num)) (hsmall _)
  refine ⟨scalar_eq (by cases interrupt <;> decide) (sub_eq_zero.mp hpc), ?_, hfirstEq, hsecondEq,
    by omega, by omega⟩
  rw [← hsecondEq]
  have hlt := slotAddress_lt row 1
  refine scalar_eq (by omega) ?_
  linear_combination hsp - hsecond - hbefore

/-- The slots of an interrupt row. -/
theorem interrupt_slots (hmode : modeValue (machinePlane row) interruptMode = 1) :
    slotKind row 0 = memoryWriteKind ∧ slotKind row 1 = memoryWriteKind ∧
      ∀ slot, 2 ≤ slot → slot < basicBlockBusEventBound → slotKind row slot = 0 := by
  have hmachine := machine_eq_one_of_column hrow (by decide) hmode
  have h := hrow.machine
  simp only [constrainMachine, constrainCpu, constrainInterruptCpu, holds_append, holds_map,
    List.mem_range] at h
  obtain ⟨⟨-, hpushes⟩, hunused⟩ := h.1.2.2
  have hpush : ∀ slot < 2, slotKind row slot = memoryWriteKind := by
    intro slot hslot
    have hselector := hpushes slot hslot
    rw [hmachine, hmode, one_mul, slotKindSelector_eq hrow
      (hslot.trans (by decide)) _ (by decide)] at hselector
    by_contra hne
    rw [if_neg hne, zero_sub, neg_eq_zero] at hselector
    exact one_ne_zero hselector
  refine ⟨hpush 0 (by norm_num), hpush 1 (by norm_num), ?_⟩
  intro slot hle hslot
  have hlt : slot < 5 := hslot
  have hnone := hunused (slot - 2) (by show slot - 2 < 5 - 2; omega)
  rw [hmode, one_mul, show slot - 2 + 2 = slot by omega, slotActiveValue_eq hrow hslot] at hnone
  by_contra hne
  rw [if_neg hne] at hnone
  exact one_ne_zero hnone

/-- A halted CPU without a pending interrupt under the sleeping modes. -/
theorem sleeping_latches {mode : ℕ}
    (hsleeping : mode ∈ [haltIdleMode, haltUntilVBlankMode, haltUntilSerialMode, haltUntilTimerMode])
    (hmode : modeValue (machinePlane row) mode = 1) :
    scalar row 0 stateRunState = 1 ∧ (devicesAt row false).pendingInterrupt = none := by
  have hcount : ∀ other ∈ [haltIdleMode, haltUntilVBlankMode, haltUntilSerialMode,
      haltUntilTimerMode], other < machineModeCount := by decide
  have hlt := hcount mode hsleeping
  have hmachine := machine_eq_one_of_column hrow (hlt.trans (by decide)) hmode
  have hmodes : ∀ other < machineModeCount,
      modeValue (machinePlane row) other = if other = mode then 1 else 0 := by
    intro other hother
    by_cases heq : other = mode
    · rw [if_pos heq, heq, hmode]
    · rw [if_neg heq, modeValue_eq_zero hrow hlt hother heq hmode]
  have hsleep : sleepingMode (machinePlane row) = 1 := by
    rw [sleepingMode, hmodes _ (by decide), hmodes _ (by decide), hmodes _ (by decide),
      hmodes _ (by decide)]
    simp only [List.mem_cons, List.not_mem_nil, or_false] at hsleeping
    rcases hsleeping with rfl | rfl | rfl | rfl <;> simp
  have h := hrow.machine
  simp only [constrainMachine, constrainModeSelection, holds_append, holds_cons] at h
  obtain ⟨-, -, -, -, -, -, -, -, hrun, hnone, -⟩ := h.1.1.1.2.1
  rw [hsleep, one_mul] at hrun hnone
  refine ⟨scalar_eq (by norm_num) (sub_eq_zero.mp hrun), ?_⟩
  rw [← nonePending_iff hrow hmachine, sub_eq_zero.mp hnone, Nat.cast_one]

/-- The enabled source of a long HALT. -/
theorem long_enabled :
    (modeValue (machinePlane row) haltUntilVBlankMode = 1 →
      (devicesAt row false).interruptEnable.testBit 0 = true ∧
        (devicesAt row false).interruptEnable.testBit 4 = false) ∧
    (modeValue (machinePlane row) haltUntilSerialMode = 1 →
      (devicesAt row false).interruptEnable.testBit 3 = true) ∧
    (modeValue (machinePlane row) haltUntilTimerMode = 1 →
      (devicesAt row false).interruptEnable.testBit 2 = true) := by
  have henable : ∀ mode < machineModeCount, modeValue (machinePlane row) mode = 1 →
      ∀ bit < 5, (devicesAt row false).interruptEnable.testBit bit =
        decide (machinePlane row (beforeIeBitsStart + bit) = 1) := by
    intro mode hlt hmode bit hbit
    have hmachine := machine_eq_one_of_column hrow (hlt.trans (by decide)) hmode
    obtain ⟨-, hspelled, -, -⟩ := holds_machineInputs hrow hmachine
    rw [← testBit_columnsNat _ _ hbit, ← hspelled]
    rfl
  have h := hrow.machine
  simp only [constrainMachine, constrainModeSelection, holds_append, holds_cons] at h
  obtain ⟨-, -, -, -, -, -, -, -, -, -, hvblank, hjoypad, hserial, htimer, -⟩ := h.1.1.1.2.1
  refine ⟨fun hmode => ⟨?_, ?_⟩, fun hmode => ?_, fun hmode => ?_⟩
  · rw [hmode, one_mul, Nat.cast_one] at hvblank
    rw [henable _ (by decide) hmode 0 (by norm_num), decide_eq_true_iff]
    exact sub_eq_zero.mp hvblank
  · rw [hmode, one_mul] at hjoypad
    rw [henable _ (by decide) hmode 4 (by norm_num), hjoypad, decide_eq_false_iff_not]
    exact zero_ne_one
  · rw [hmode, one_mul, Nat.cast_one] at hserial
    rw [henable _ (by decide) hmode 3 (by norm_num), decide_eq_true_iff]
    exact sub_eq_zero.mp hserial
  · rw [hmode, one_mul, Nat.cast_one] at htimer
    rw [henable _ (by decide) hmode 2 (by norm_num), decide_eq_true_iff]
    exact sub_eq_zero.mp htimer

/-- A halted CPU with a pending interrupt that the master enable does not admit, under the waking
mode. -/
theorem wake_latches (hmode : modeValue (machinePlane row) haltWakeMode = 1) :
    scalar row 0 stateRunState = 1 ∧ (scalar row 0 stateIme = 0 ∨ scalar row 0 stateIme = 1) ∧
      (devicesAt row false).pendingInterrupt ≠ none := by
  have hmachine := machine_eq_one_of_column hrow (by decide) hmode
  have h := hrow.machine
  simp only [constrainMachine, constrainModeSelection, holds_append, holds_cons] at h
  obtain ⟨-, -, -, -, hrun, -, hime, hnone, -⟩ := h.1.1.1.2.1
  rw [hmode, one_mul] at hrun hime hnone
  refine ⟨scalar_eq (by norm_num) (sub_eq_zero.mp hrun), ?_, ?_⟩
  · rcases mul_eq_zero.mp hime with hzero | hone
    · exact Or.inl (scalar_eq (by norm_num) (hzero.trans Nat.cast_zero.symm))
    · exact Or.inr (scalar_eq (by norm_num) (sub_eq_zero.mp hone))
  · rw [ne_eq, ← nonePending_iff hrow hmachine, hnone]
    exact zero_ne_one

end Modes

/-- An interrupt row dispatches a source as the core does. -/
structure Dispatches (row : Row NativeField) (interrupt : DmgInterrupt) : Prop where
  event : classifyDmgMachineEvent (vmStateAt row false) = .ok (some (.interrupt interrupt))
  pending : (vmStateAt row false).dmgDevices.pendingInterrupt = some interrupt
  enabled : (vmStateAt row false).cpu.ime = .enabled
  source : ∀ bit < 5, machinePlane row (interruptSourceStart + bit) =
    if bit = interrupt.bit then 1 else 0
  pc : (vmStateAt row true).cpu.pc = interrupt.vector
  ime : (vmStateAt row true).cpu.ime = .disabled
  runState : (vmStateAt row true).cpu.runState = .running
  sp : (vmStateAt row true).cpu.sp = ((vmStateAt row false).cpu.sp + 65534) % 65536
  high : slotKind row 0 = memoryWriteKind ∧
    slotAddress row 0 = ((vmStateAt row false).cpu.sp + 65535) % 65536 ∧
    slotValue row 0 = (vmStateAt row false).cpu.pc / 256
  low : slotKind row 1 = memoryWriteKind ∧
    slotAddress row 1 = ((vmStateAt row false).cpu.sp + 65534) % 65536 ∧
    slotValue row 1 = (vmStateAt row false).cpu.pc % 256
  unused : ∀ slot, 2 ≤ slot → slot < basicBlockBusEventBound → slotKind row slot = 0

/-- Every row with the interrupt mode is a dispatch of the core. -/
theorem dispatches_of_mode {row : Row NativeField} (hrow : MachineSlices row)
    (hmode : modeValue (machinePlane row) interruptMode = 1) :
    ∃ interrupt, Dispatches row interrupt := by
  obtain ⟨interrupt, hpending, hsource⟩ := interrupt_pending hrow hmode
  obtain ⟨hrun, hime, himeAfter, hrunAfter⟩ := interrupt_latches hrow hmode
  obtain ⟨hpc, hsp, hfirst, hsecond, hhigh, hlow⟩ := interrupt_cpu hrow hmode hsource
  obtain ⟨hkindFirst, hkindSecond, hunused⟩ := interrupt_slots hrow hmode
  have henabled : (vmStateAt row false).cpu.ime = .enabled := ime_cpuAt hime
  refine ⟨interrupt, ?_, hpending, henabled, hsource, hpc, ime_cpuAt himeAfter,
    runState_cpuAt hrunAfter, hsp, ⟨hkindFirst, hfirst, hhigh⟩, ⟨hkindSecond, hsecond, hlow⟩,
    hunused⟩
  have hdevices : (vmStateAt row false).dmgDevices.pendingInterrupt = some interrupt := hpending
  unfold classifyDmgMachineEvent
  rw [hdevices, henabled]
  rcases hrun with hrunning | hhalted | hbug
  · rw [show (vmStateAt row false).cpu.runState = .running from runState_cpuAt hrunning]
    rfl
  · rw [show (vmStateAt row false).cpu.runState = .halted from runState_cpuAt hhalted]
    rfl
  · rw [show (vmStateAt row false).cpu.runState = .haltBug from runState_cpuAt hbug]
    rfl

/-- Every row with the waking mode is a wake of the core. -/
theorem classify_wake {row : Row NativeField} (hrow : MachineSlices row)
    (hmode : modeValue (machinePlane row) haltWakeMode = 1) :
    classifyDmgMachineEvent (vmStateAt row false) = .ok (some .haltWake) := by
  obtain ⟨hrun, hime, hpending⟩ := wake_latches hrow hmode
  obtain ⟨interrupt, hinterrupt⟩ := Option.ne_none_iff_exists'.mp hpending
  have hdevices : (vmStateAt row false).dmgDevices.pendingInterrupt = some interrupt := hinterrupt
  have hrunState : (vmStateAt row false).cpu.runState = .halted := runState_cpuAt hrun
  have hdisabled : (vmStateAt row false).cpu.ime ≠ .enabled := by
    rcases hime with hzero | hone
    · rw [show (vmStateAt row false).cpu.ime = .disabled from ime_cpuAt hzero]
      decide
    · rw [show (vmStateAt row false).cpu.ime = .enablePending from ime_cpuAt hone]
      decide
  unfold classifyDmgMachineEvent
  rw [hrunState, hdevices]
  simp only [if_neg hdisabled]

/-- Every row with a sleeping mode sits at a halted CPU without a pending interrupt. -/
theorem classify_sleeping {row : Row NativeField} (hrow : MachineSlices row) {mode : ℕ}
    (hsleeping : mode ∈ [haltIdleMode, haltUntilVBlankMode, haltUntilSerialMode, haltUntilTimerMode])
    (hmode : modeValue (machinePlane row) mode = 1) :
    classifyDmgMachineEvent (vmStateAt row false) =
      .ok (some (haltedEvent (vmStateAt row false).dmgDevices)) := by
  obtain ⟨hrun, hpending⟩ := sleeping_latches hrow hsleeping hmode
  have hdevices : (vmStateAt row false).dmgDevices.pendingInterrupt = none := hpending
  have hrunState : (vmStateAt row false).cpu.runState = .halted := runState_cpuAt hrun
  unfold classifyDmgMachineEvent
  rw [hrunState, hdevices]

end Reading

open Reading

/-- Every row of `BlockMachineRelation`: an interrupt row is the core's dispatch of the first
enabled request; a HALT-wake row has a state before it in which the core wakes; and a row of a
sleeping mode has a state before it in which the core sleeps, with the source of a long mode
enabled. -/
theorem machineEvent_row (row : Row NativeField) (hrow : Holds (BlockMachine.evaluate row)) :
    (modeValue (machinePlane row) interruptMode = 1 → ∃ interrupt, Dispatches row interrupt) ∧
    (modeValue (machinePlane row) haltWakeMode = 1 →
      classifyDmgMachineEvent (vmStateAt row false) = .ok (some .haltWake)) ∧
    (∀ mode ∈ [haltIdleMode, haltUntilVBlankMode, haltUntilSerialMode, haltUntilTimerMode],
      modeValue (machinePlane row) mode = 1 →
      classifyDmgMachineEvent (vmStateAt row false) =
        .ok (some (haltedEvent (vmStateAt row false).dmgDevices))) ∧
    (modeValue (machinePlane row) haltUntilVBlankMode = 1 →
      (vmStateAt row false).dmgDevices.interruptEnable.testBit 0 = true ∧
        (vmStateAt row false).dmgDevices.interruptEnable.testBit 4 = false) ∧
    (modeValue (machinePlane row) haltUntilSerialMode = 1 →
      (vmStateAt row false).dmgDevices.interruptEnable.testBit 3 = true) ∧
    (modeValue (machinePlane row) haltUntilTimerMode = 1 →
      (vmStateAt row false).dmgDevices.interruptEnable.testBit 2 = true) := by
  have hslices := MachineSlices.of_holds hrow
  exact ⟨dispatches_of_mode hslices, classify_wake hslices,
    fun mode hsleeping hmode => classify_sleeping hslices hsleeping hmode, long_enabled hslices⟩

end Zksm83
