import Zksm83.Soundness.EventReading

/-!
# Addresses of fetches and operands

The numbered events of an active lane against the state before it: the opcode byte and the
immediates at and after the program counter, the operands that a register pair, an immediate or the
stack pointer addresses. Where a lane constraint names the address of an event, the event has it.
-/


namespace Zksm83

open Constraint BlockMetadata BlockFrontend BlockIsa BlockBus PackedLane
open IsaTable (descriptor busPattern dataBus)

namespace Reading

theorem Carries.immediateReads_le {row : Row NativeField} {lane : ℕ}
    {instruction : DecodedInstruction} (hcarries : Carries row lane instruction) :
    (busPattern instruction).immediateReads ≤ 5 := by
  have h := hcarries.eventCount_le
  unfold eventCount at h
  omega

theorem two_mul_pred_ne_zero :
    ((2 : ℕ) : NativeField) * (((2 : ℕ) : NativeField) - 1) ≠ 0 := by
  rw [show ((2 : ℕ) : NativeField) - 1 = ((1 : ℕ) : NativeField) by push_cast; ring,
    ← Nat.cast_mul]
  exact natCast_ne_zero (by norm_num) (by norm_num)

section Fetch

variable {row : Row NativeField} (hrow : CpuSlices row) {lane : ℕ}
  (hlane : lane < basicBlockInstructionBound)

include hrow hlane

/-- The address of a lane in the fixed table: its prefix bit and its opcode byte. -/
theorem laneAddress_split :
    ∃ opcode < 256, ∃ bit ≤ 1, laneAddress row lane = opcode + 256 * bit ∧
      packed ((List.range 8).map (isaAddressBit row lane)) = ((opcode : ℕ) : NativeField) ∧
      isaAddressBit row lane 8 = ((bit : ℕ) : NativeField) := by
  have hbits : ∀ bit < isaAddressBitCount, IsBit (isaAddressBit row lane bit) :=
    fun bit hbit => isBit_isaAddressBit hrow.toBlockSlices hlane hbit
  refine ⟨columnsNat (isaPlane row) (laneStart lane) 8, columnsNat_lt _ _ _,
    bitNat (isaAddressBit row lane 8), bitNat_le_one _, ?_, ?_, ?_⟩
  · rw [laneAddress, show isaAddressBitCount = 8 + 1 from rfl, columnsNat_add, columnsNat_one]
    rfl
  · exact packedBits_eq_natCast (fun bit hbit => hbits bit (hbit.trans (by norm_num)))
  · exact (natCast_bitNat (hbits 8 (by norm_num))).symm

variable (hactive : laneValue row lane = 1) {instruction : DecodedInstruction}
  (hcarries : Carries row lane instruction)

include hactive

/-- The opcode byte is fetched at the program counter. -/
theorem eventAddress_zero : eventAddress row lane 0 = scalar row lane statePc := by
  have h := (LaneSlices.of_active hrow hlane hactive).fetchAlignment
  simp only [constrainFetchAlignment, holds_cons, PackedLane.instruction, hactive, one_mul] at h
  have haddress := sub_eq_zero.mp h.1
  have hinstruction := instructionValue_eq_one hrow.toBlockSlices hlane hactive
  have hpc := (scalar_cpu_lt hrow hinstruction hlane.le).1
  rw [busAddress_eq hrow hlane (by norm_num), before, ← natCast_scalar] at haddress
  have hlt := eventAddress_lt row lane 0
  exact eq_of_natCast_eq haddress (by omega) (by omega)

/-- An address that is the program counter plus a step, up to the HALT bug and a wrap. -/
theorem eventAddress_fetch (localSlot step wrap : ℕ) (hlocal : localSlot < 5) (hstep : 1 ≤ step)
    (hle : step ≤ 2) (hwrap : IsBit (laneColumn row lane wrap))
    (h : busAddress row lane localSlot = before row lane statePc + ((step : ℕ) : NativeField) -
      laneColumn row lane haltBug - ((65536 : ℕ) : NativeField) * laneColumn row lane wrap) :
    eventAddress row lane localSlot =
      (Exec.nextFetch (cpuAt row lane) + (step - 1)) % 65536 := by
  obtain ⟨bug, hbug, hflag, hnext⟩ := nextFetch_cpuAt hrow hlane hactive
  have hinstruction := instructionValue_eq_one hrow.toBlockSlices hlane hactive
  have hpc := (scalar_cpu_lt hrow hinstruction hlane.le).1
  have hlt := eventAddress_lt row lane localSlot
  have hwrapLe := bitNat_le_one (laneColumn row lane wrap)
  rw [busAddress_eq hrow hlane hlocal, before, ← natCast_scalar, hflag,
    ← natCast_bitNat hwrap] at h
  have hsum : ((eventAddress row lane localSlot + bug +
      65536 * bitNat (laneColumn row lane wrap) : ℕ) : NativeField) =
      ((scalar row lane statePc + step : ℕ) : NativeField) := by
    push_cast
    linear_combination h
  have hnat := eq_of_natCast_eq hsum (by omega) (by omega)
  rw [hnext]
  omega

theorem isBit_fetchWrap {wrap : ℕ} (hwrap : wrap ∈ [fetchOneWrap, fetchTwoWrap]) :
    IsBit (laneColumn row lane wrap) := by
  have h := (LaneSlices.of_active hrow hlane hactive).instructionWitness
  simp only [constrainInstructionWitness, holds_append, holds_booleans_iff,
    List.forall_mem_map] at h
  refine h.1.1.2 wrap ?_
  rcases List.mem_pair.mp hwrap with rfl | rfl <;> simp

theorem nextFetch_lt : Exec.nextFetch (cpuAt row lane) < 65536 := by
  obtain ⟨bug, -, -, hnext⟩ := nextFetch_cpuAt hrow hlane hactive
  rw [hnext]
  exact Nat.mod_lt _ (by norm_num)

/-- A prefixed lane: the prefix byte, then the opcode byte. -/
theorem fetched_cb (hprefixed : 256 ≤ laneAddress row lane) :
    eventValue row lane 0 = 0xcb ∧ eventValue row lane 1 = laneAddress row lane - 256 ∧
      eventAddress row lane 1 = Exec.nextFetch (cpuAt row lane) := by
  obtain ⟨opcode, hopcode, bit, hbit, haddress, hpacked, hone⟩ := laneAddress_split hrow hlane
  have hbitOne : bit = 1 := by omega
  rw [hbitOne, Nat.cast_one] at hone
  have h := (LaneSlices.of_active hrow hlane hactive).fetchAlignment
  simp only [constrainFetchAlignment, holds_cons, PackedLane.instruction, hactive, one_mul, hone,
    hpacked, Nat.cast_one, sub_self, zero_mul, sub_zero] at h
  obtain ⟨-, hvalue, hfetch, hsecond, -⟩ := h
  have hlt := eventValue_lt row lane 0
  have hlt' := eventValue_lt row lane 1
  rw [busValue_eq hrow hlane (by norm_num), sub_eq_zero] at hvalue hsecond
  refine ⟨eq_of_natCast_eq hvalue (by omega) (by norm_num), ?_, ?_⟩
  · have heq := eq_of_natCast_eq hsecond (by omega) (by omega)
    omega
  · have hwrap := isBit_fetchWrap hrow hlane hactive (List.mem_cons_self ..)
    have heq := eventAddress_fetch hrow hlane hactive 1 1 fetchOneWrap (by norm_num) le_rfl
      (by norm_num) hwrap (sub_eq_zero.mp hfetch)
    rwa [Nat.sub_self, Nat.add_zero, Nat.mod_eq_of_lt (nextFetch_lt hrow hlane hactive)] at heq

include hcarries

/-- A lane without prefix: the opcode byte and the addresses of the immediates. -/
theorem fetched_primary (hprimary : laneAddress row lane < 256) :
    eventValue row lane 0 = laneAddress row lane ∧
      (1 ≤ (busPattern instruction).immediateReads →
        eventAddress row lane 1 = Exec.nextFetch (cpuAt row lane)) ∧
      ((busPattern instruction).immediateReads = 2 →
        eventAddress row lane 2 = (Exec.nextFetch (cpuAt row lane) + 1) % 65536) := by
  obtain ⟨opcode, hopcode, bit, hbit, haddress, hpacked, hone⟩ := laneAddress_split hrow hlane
  have hbitZero : bit = 0 := by omega
  rw [hbitZero, Nat.cast_zero] at hone
  have h := (LaneSlices.of_active hrow hlane hactive).fetchAlignment
  simp only [constrainFetchAlignment, holds_cons, PackedLane.instruction, hactive, one_mul, hone,
    hpacked, Nat.cast_one, sub_zero, zero_mul, hcarries.busPattern_eq.2.1] at h
  obtain ⟨-, hvalue, -, -, hfetch, hsecond, -⟩ := h
  have hlt := eventValue_lt row lane 0
  rw [busValue_eq hrow hlane (by norm_num), sub_eq_zero] at hvalue
  refine ⟨?_, ?_, ?_⟩
  · have heq := eq_of_natCast_eq hvalue (by omega) (by omega)
    omega
  · intro hcount
    have hne := natCast_ne_zero hcount (by have := hcarries.immediateReads_le; omega)
    have hwrap := isBit_fetchWrap hrow hlane hactive (List.mem_cons_self ..)
    have heq := eventAddress_fetch hrow hlane hactive 1 1 fetchOneWrap (by norm_num) le_rfl
      (by norm_num) hwrap (sub_eq_zero.mp ((mul_eq_zero.mp hfetch).resolve_left hne))
    rwa [Nat.sub_self, Nat.add_zero, Nat.mod_eq_of_lt (nextFetch_lt hrow hlane hactive)] at heq
  · intro hcount
    rw [hcount] at hsecond
    have hwrap := isBit_fetchWrap hrow hlane hactive (List.mem_cons_of_mem _ (List.mem_cons_self ..))
    refine eventAddress_fetch hrow hlane hactive 2 2 fetchTwoWrap (by norm_num) (by norm_num)
      le_rfl hwrap (sub_eq_zero.mp ((mul_eq_zero.mp hsecond).resolve_left two_mul_pred_ne_zero))

/-- The immediates of a lane are the bytes of its second and third event. -/
theorem immediates_eq :
    (1 ≤ (busPattern instruction).immediateReads →
        immediateLow row lane = (eventValue row lane 1 : NativeField)) ∧
      ((busPattern instruction).immediateReads = 2 →
        immediateHigh row lane = (eventValue row lane 2 : NativeField)) := by
  have h := (LaneSlices.of_active hrow hlane hactive).instructionWitness
  simp only [constrainInstructionWitness, holds_append, holds_cons, PackedLane.instruction, hactive,
    one_mul, hcarries.busPattern_eq.2.1] at h
  obtain ⟨-, -, -, hlow, hhigh, -⟩ := h.1.2
  rw [busValue_eq hrow hlane (by norm_num)] at hlow hhigh
  constructor
  · intro hcount
    have hne := natCast_ne_zero hcount (by have := hcarries.immediateReads_le; omega)
    exact sub_eq_zero.mp ((mul_eq_zero.mp hlow).resolve_left hne)
  · intro hcount
    rw [hcount, Nat.cast_one] at hhigh
    exact sub_eq_zero.mp ((mul_eq_zero.mp hhigh).resolve_left two_mul_pred_ne_zero)

end Fetch

namespace Carries

variable {row : Row NativeField} {lane : ℕ} {instruction : DecodedInstruction}
  (hcarries : Carries row lane instruction)

include hcarries

/-- An instruction without prefix: one opcode byte and the immediates of its operation. -/
theorem primary (hprimary : laneAddress row lane < 256) :
    decodePrimary (laneAddress row lane) = some instruction ∧
      instruction.byteLen = immediateNeed instruction.operation + 1 ∧
      (busPattern instruction).opcodeFetches = 1 ∧
      (busPattern instruction).immediateReads = immediateNeed instruction.operation ∧
      ∀ operation operand, instruction.operation ≠ .cb operation operand := by
  have hdecode := hcarries.decode
  rw [decodeAddress, if_pos hprimary] at hdecode
  have hencoding : instruction.encoding = .primary (laneAddress row lane) := by
    rw [decodePrimary] at hdecode
    split at hdecode
    · exact absurd hdecode (by simp)
    · rw [← Option.some.inj hdecode]
      rfl
  have h := hcarries.wellFormed
  simp only [wellFormedInstruction, hencoding, Bool.and_eq_true] at h
  have hlast := h.2
  have hnotCb : ∀ operation operand, instruction.operation ≠ .cb operation operand := by
    intro operation operand hcb
    simp [hcb] at hlast
  have hlength : instruction.byteLen = immediateNeed instruction.operation + 1 := by
    split at hlast
    case h_3 hcb => exact absurd hcb (hnotCb _ _)
    all_goals simp_all
  refine ⟨hdecode, hlength, ?_, ?_, hnotCb⟩
  · simp [busPattern, hencoding]
  · simp [busPattern, hencoding, hlength]

/-- A prefixed instruction: two opcode bytes and a CB operation. -/
theorem prefixed (hprefixed : 256 ≤ laneAddress row lane) :
    instruction = decodeCb (laneAddress row lane - 256) ∧
      (busPattern instruction).opcodeFetches = 2 ∧
      (busPattern instruction).immediateReads = 0 ∧
      ∃ operation operand, instruction.operation = .cb operation operand := by
  have hdecode := hcarries.decode
  rw [decodeAddress, if_neg (by omega), Option.some.injEq] at hdecode
  refine ⟨hdecode.symm, ?_, ?_, ?_⟩
  · rw [← hdecode]
    rfl
  · rw [← hdecode]
    rfl
  · rw [← hdecode]
    exact ⟨_, _, rfl⟩

/-- The selector of the lane's own operation. -/
theorem operationSelector_one {code : ℕ} (hcode : code < 64)
    (hoperation : (descriptor instruction.operation).1 = code) :
    operationSelector row lane code = 1 := by
  rw [hcarries.operationSelector_eq code hcode, if_pos hoperation]

/-- The selector of the lane's own first argument. -/
theorem argumentZero_one {code : ℕ} (hcode : code < 8)
    (hargument : (descriptor instruction.operation).2.1 = code) :
    argumentZero row lane code = 1 := by
  rw [hcarries.argumentZero_eq code hcode, if_pos hargument]

/-- The selector of another operation. -/
theorem operationSelector_zero {code : ℕ} (hcode : code < 64)
    (hoperation : (descriptor instruction.operation).1 ≠ code) :
    operationSelector row lane code = 0 := by
  rw [hcarries.operationSelector_eq code hcode, if_neg hoperation]

end Carries

/-- The operations whose `(HL)` operand has no address constraint. -/
def hlOperandUnbound : Operation → Bool
  | .load8 _ .indirectHl | .alu8 _ .indirectHl | .increment8 .indirectHl
  | .decrement8 .indirectHl => true
  | _ => false

/-- The condition on which an operation accesses the stack. -/
def stackCondition : Operation → Option Condition
  | .call condition | .return condition => condition
  | _ => none

section Data

variable {row : Row NativeField} (hrow : CpuSlices row) {lane : ℕ}
  (hlane : lane < basicBlockInstructionBound) (hactive : laneValue row lane = 1)
  {instruction : DecodedInstruction} (hcarries : Carries row lane instruction)

omit hrow hlane hactive in
theorem before_eq (row : Row NativeField) (lane state : ℕ) :
    before row lane state = ((scalar row lane state : ℕ) : NativeField) :=
  (natCast_scalar row lane state).symm

omit hrow hlane hactive in
theorem beforeWord_eq (row : Row NativeField) (lane high low : ℕ) :
    beforeWord row lane high low =
      ((scalar row lane high * 256 + scalar row lane low : ℕ) : NativeField) := by
  rw [beforeWord, before_eq, before_eq]
  push_cast
  rfl

include hrow hlane hactive hcarries

theorem data_storeSp (hoperation : instruction.operation = .storeSpAbsolute)
    (hprimary : laneAddress row lane < 256) :
    eventAddress row lane 3 = eventValue row lane 1 + 256 * eventValue row lane 2 ∧
      eventAddress row lane 4 =
        (eventValue row lane 1 + 256 * eventValue row lane 2 + 1) % 65536 := by
  have hselector : operationSelector row lane 1 = 1 := by
    rw [hcarries.operationSelector_eq 1 (by norm_num), hoperation]
    rfl
  obtain ⟨-, -, -, hcount, -⟩ := hcarries.primary hprimary
  rw [hoperation] at hcount
  have himmediates := immediates_eq hrow hlane hactive hcarries
  rw [hcount] at himmediates
  have h := (LaneSlices.of_active hrow hlane hactive).storeSp
  simp only [constrainStoreSp, holds_cons, PackedLane.instruction, hactive, hselector, one_mul,
    himmediates.1 (by norm_num [immediateNeed]), himmediates.2 rfl] at h
  obtain ⟨hwrap, hfirst, -, hsecond, -⟩ := h
  rw [boolean_eq_zero_iff] at hwrap
  have hwrapLe := bitNat_le_one (laneColumn row lane addressWrap)
  rw [← natCast_bitNat hwrap] at hsecond
  rw [busAddress_eq hrow hlane (by norm_num)] at hfirst hsecond
  have hlow := eventValue_lt row lane 1
  have hhigh := eventValue_lt row lane 2
  have hthree := eventAddress_lt row lane 3
  have hfour := eventAddress_lt row lane 4
  constructor
  · refine eq_of_natCast_eq ?_ (by omega) (by omega)
    push_cast
    linear_combination hfirst
  · have hsum : ((eventAddress row lane 4 + 65536 * bitNat (laneColumn row lane addressWrap) : ℕ) :
        NativeField) =
        ((eventValue row lane 1 + 256 * eventValue row lane 2 + 1 : ℕ) : NativeField) := by
      push_cast
      linear_combination hsecond
    have hnat := eq_of_natCast_eq hsum (by omega) (by omega)
    omega

omit hactive hcarries in
/-- An event address that is a small number in the field. -/
theorem eventAddress_eq {localSlot address : ℕ} (hlocal : localSlot < 5) (haddress : address < 200000)
    (h : busAddress row lane localSlot = ((address : ℕ) : NativeField)) :
    eventAddress row lane localSlot = address := by
  have hlt := eventAddress_lt row lane localSlot
  rw [busAddress_eq hrow hlane hlocal] at h
  exact eq_of_natCast_eq h (by omega) (by omega)

omit hcarries in
/-- Byte scalars before an active lane. -/
theorem scalar_lane_lt (state : ℕ) (hstate : state < 8) : scalar row lane state < 256 :=
  scalar_byte_lt hrow (instructionValue_eq_one hrow.toBlockSlices hlane hactive) hlane.le hstate

omit hcarries in
/-- Register pairs before an active lane. -/
theorem word_lane_lt (high low : ℕ) (hhigh : high < 8) (hlow : low < 8) :
    scalar row lane high * 256 + scalar row lane low < 200000 := by
  have hhighLt := scalar_lane_lt hrow hlane hactive high hhigh
  have hlowLt := scalar_lane_lt hrow hlane hactive low hlow
  omega

theorem data_indirect {address : IndirectAddress} {direction : TransferDirection}
    (hoperation : instruction.operation = .loadAccumulatorIndirect address direction) :
    eventAddress row lane 1 = (cpuAt row lane).indirectAddress address := by
  have hselector : operationSelector row lane 6 = 1 :=
    hcarries.operationSelector_one (by norm_num) (by rw [hoperation]; rfl)
  have hcode : (descriptor instruction.operation).2.1 = IsaTable.indirectCode address := by
    rw [hoperation]
    rfl
  have h := (LaneSlices.of_active hrow hlane hactive).accumulatorTransfers
  simp only [constrainAccumulatorTransfers, constrainDirectionalTransfer, holds_append, holds_cons,
    PackedLane.instruction, hactive, hselector, one_mul,
    hcarries.argumentZero_eq 0 (by norm_num), hcarries.argumentZero_eq 1 (by norm_num),
    hcarries.argumentZero_eq 2 (by norm_num), hcarries.argumentZero_eq 3 (by norm_num), hcode,
    beforeWord_eq] at h
  have haddress := sub_eq_zero.mp h.1.1.1.1
  have hword := word_lane_lt hrow hlane hactive
  cases address with
  | bc =>
    refine eventAddress_eq hrow hlane (by norm_num) (hword stateB stateC (by norm_num)
      (by norm_num)) (haddress.trans ?_)
    simp only [IsaTable.indirectCode, reduceIte, one_mul, zero_mul, add_zero, zero_ne_one,
      Nat.reduceEqDiff]
    rfl
  | de =>
    refine eventAddress_eq hrow hlane (by norm_num) (hword stateD stateE (by norm_num)
      (by norm_num)) (haddress.trans ?_)
    simp only [IsaTable.indirectCode, reduceIte, one_mul, zero_mul, add_zero, zero_add, one_ne_zero,
      Nat.reduceEqDiff]
    rfl
  | hlIncrement =>
    refine eventAddress_eq hrow hlane (by norm_num) (hword stateH stateL (by norm_num)
      (by norm_num)) (haddress.trans ?_)
    simp only [IsaTable.indirectCode, reduceIte, one_mul, zero_mul, add_zero, zero_add,
      Nat.reduceEqDiff]
    rfl
  | hlDecrement =>
    refine eventAddress_eq hrow hlane (by norm_num) (hword stateH stateL (by norm_num)
      (by norm_num)) (haddress.trans ?_)
    simp only [IsaTable.indirectCode, reduceIte, one_mul, zero_mul, zero_add,
      Nat.reduceEqDiff]
    rfl

theorem data_high (direction : TransferDirection) :
    (instruction.operation = .highImmediateLoad direction → laneAddress row lane < 256 →
      eventAddress row lane 2 = 0xff00 + eventValue row lane 1) ∧
    (instruction.operation = .highCLoad direction →
      eventAddress row lane 1 = 0xff00 + (cpuAt row lane).registers.c) ∧
    (instruction.operation = .absoluteAccumulatorLoad direction → laneAddress row lane < 256 →
      eventAddress row lane 3 = eventValue row lane 1 + 256 * eventValue row lane 2) := by
  have h := (LaneSlices.of_active hrow hlane hactive).accumulatorTransfers
  simp only [constrainAccumulatorTransfers, constrainDirectionalTransfer, holds_append, holds_cons,
    PackedLane.instruction, hactive, one_mul] at h
  have himmediates := immediates_eq hrow hlane hactive hcarries
  have hlow := eventValue_lt row lane 1
  have hhigh := eventValue_lt row lane 2
  refine ⟨?_, ?_, ?_⟩
  · intro hoperation hprimary
    obtain ⟨-, -, -, hcount, -⟩ := hcarries.primary hprimary
    rw [hoperation] at hcount
    have haddress := h.1.1.2.1
    rw [hcarries.operationSelector_one (by norm_num) (by rw [hoperation]; rfl), one_mul,
      himmediates.1 (by rw [hcount]; rfl)] at haddress
    refine eventAddress_eq hrow hlane (by norm_num) (by omega) ?_
    push_cast
    linear_combination haddress
  · intro hoperation
    have haddress := h.1.2.1
    have hc := scalar_lane_lt hrow hlane hactive stateC (by norm_num)
    rw [hcarries.operationSelector_one (by norm_num) (by rw [hoperation]; rfl), one_mul,
      before_eq] at haddress
    show eventAddress row lane 1 = 0xff00 + scalar row lane stateC
    refine eventAddress_eq hrow hlane (by norm_num) (by omega) ?_
    push_cast
    linear_combination haddress
  · intro hoperation hprimary
    obtain ⟨-, -, -, hcount, -⟩ := hcarries.primary hprimary
    rw [hoperation] at hcount
    have haddress := h.2.1
    rw [hcarries.operationSelector_one (by norm_num) (by rw [hoperation]; rfl), one_mul,
      himmediates.1 (by rw [hcount]; norm_num [immediateNeed]), himmediates.2 hcount] at haddress
    refine eventAddress_eq hrow hlane (by norm_num) (by omega) ?_
    push_cast
    linear_combination haddress

/-- The writes of a byte to `(HL)`. -/
theorem data_hlWrite :
    (instruction.operation = .load8Immediate .indirectHl →
      eventAddress row lane 2 = (cpuAt row lane).register16 .hl) ∧
    (∀ source, instruction.operation = .load8 .indirectHl source →
      eventAddress row lane 1 = (cpuAt row lane).register16 .hl) := by
  have hword := word_lane_lt hrow hlane hactive stateH stateL (by norm_num) (by norm_num)
  constructor
  · intro hoperation
    have h := (LaneSlices.of_active hrow hlane hactive).immediateLoads
    simp only [constrainImmediateLoads, holds_append, holds_cons, PackedLane.instruction, hactive,
      one_mul, beforeWord_eq] at h
    have haddress := h.2.1
    rw [hcarries.operationSelector_one (by norm_num) (by rw [hoperation]; rfl), one_mul,
      hcarries.argumentZero_one (by norm_num) (by rw [hoperation]; rfl), one_mul] at haddress
    exact eventAddress_eq hrow hlane (by norm_num) hword (sub_eq_zero.mp haddress)
  · intro source hoperation
    have h := (LaneSlices.of_active hrow hlane hactive).load8
    simp only [constrainLoad8, holds_append, holds_cons, PackedLane.instruction, hactive, one_mul,
      beforeWord_eq] at h
    have haddress := h.2.1
    rw [hcarries.operationSelector_one (by norm_num) (by rw [hoperation]; rfl), one_mul,
      hcarries.argumentZero_one (by norm_num) (by rw [hoperation]; rfl), one_mul] at haddress
    exact eventAddress_eq hrow hlane (by norm_num) hword (sub_eq_zero.mp haddress)

/-- CB operations on `(HL)` read at HL, and write there unless they only test a bit. -/
theorem data_cb {operation : CbOperation} (hoperation : instruction.operation = .cb operation .indirectHl) :
    eventAddress row lane 2 = (cpuAt row lane).register16 .hl ∧
      ((∀ bit, operation ≠ .testBit bit) →
        eventAddress row lane 3 = (cpuAt row lane).register16 .hl) := by
  have hword := word_lane_lt hrow hlane hactive stateH stateL (by norm_num) (by norm_num)
  have hmemory : argumentOne row lane 6 = 1 := by
    rw [hcarries.argumentOne_eq 6 (by norm_num), hoperation]
    cases operation <;> rfl
  have h := (LaneSlices.of_active hrow hlane hactive).cbBus
  simp only [constrainCbBusWithLookup, holds_cons, PackedLane.instruction, hactive, one_mul,
    hmemory, mul_one, hcarries.operationSelector_eq 37 (by norm_num),
    hcarries.operationSelector_eq 38 (by norm_num), hcarries.operationSelector_eq 39 (by norm_num),
    hcarries.operationSelector_eq 40 (by norm_num), hoperation, beforeWord_eq] at h
  obtain ⟨hread, hwrite, -⟩ := h
  rw [register16_hl_cpuAt]
  constructor
  · refine eventAddress_eq hrow hlane (by norm_num) hword (sub_eq_zero.mp ?_)
    cases operation <;>
      simpa only [descriptor, reduceIte, Nat.reduceEqDiff, add_zero, zero_add, one_mul] using hread
  · intro hwrites
    refine eventAddress_eq hrow hlane (by norm_num) hword (sub_eq_zero.mp ?_)
    cases operation with
    | testBit bit => exact absurd rfl (hwrites bit)
    | _ =>
      simpa only [descriptor, reduceIte, Nat.reduceEqDiff, add_zero, zero_add, one_mul] using hwrite

omit hcarries in
theorem isBit_stackWrap :
    IsBit (laneColumn row lane stackWrap) ∧ IsBit (laneColumn row lane stackFirstWrap) := by
  have h := (LaneSlices.of_active hrow hlane hactive).stackOperations
  simp only [constrainStackOperations, holds_append, holds_cons, boolean_eq_zero_iff] at h
  exact ⟨h.1.1.1.1.1.1, h.1.1.1.1.1.2.1⟩

omit hcarries in
/-- The two addresses below the stack pointer. -/
theorem push_addresses {first second : ℕ} (hfirst : first < 5) (hsecond : second < 5)
    (hhigh : busAddress row lane first = before row lane stateSp - ((1 : ℕ) : NativeField) +
      ((65536 : ℕ) : NativeField) * laneColumn row lane stackFirstWrap)
    (hlow : busAddress row lane second = before row lane stateSp - ((2 : ℕ) : NativeField) +
      ((65536 : ℕ) : NativeField) * laneColumn row lane stackWrap) :
    eventAddress row lane first = (scalar row lane stateSp + 65535) % 65536 ∧
      eventAddress row lane second = (scalar row lane stateSp + 65534) % 65536 := by
  obtain ⟨hwrap, hfirstWrap⟩ := isBit_stackWrap hrow hlane hactive
  have hinstruction := instructionValue_eq_one hrow.toBlockSlices hlane hactive
  have hsp := (scalar_cpu_lt hrow hinstruction hlane.le).2.1
  have hwrapLe := bitNat_le_one (laneColumn row lane stackWrap)
  have hfirstLe := bitNat_le_one (laneColumn row lane stackFirstWrap)
  have hfirstLt := eventAddress_lt row lane first
  have hsecondLt := eventAddress_lt row lane second
  rw [busAddress_eq hrow hlane hfirst, before_eq, ← natCast_bitNat hfirstWrap] at hhigh
  rw [busAddress_eq hrow hlane hsecond, before_eq, ← natCast_bitNat hwrap] at hlow
  have hhighSum : ((eventAddress row lane first + 1 : ℕ) : NativeField) =
      ((scalar row lane stateSp + 65536 * bitNat (laneColumn row lane stackFirstWrap) : ℕ) :
        NativeField) := by
    push_cast
    linear_combination hhigh
  have hlowSum : ((eventAddress row lane second + 2 : ℕ) : NativeField) =
      ((scalar row lane stateSp + 65536 * bitNat (laneColumn row lane stackWrap) : ℕ) :
        NativeField) := by
    push_cast
    linear_combination hlow
  have hhighNat := eq_of_natCast_eq hhighSum (by omega) (by omega)
  have hlowNat := eq_of_natCast_eq hlowSum (by omega) (by omega)
  constructor <;> omega

/-- The stack addresses of CALL, PUSH and RST. -/
theorem data_push :
    (∀ condition, instruction.operation = .call condition → laneBranch row lane = 1 →
      eventAddress row lane 3 = ((cpuAt row lane).sp + 65535) % 65536 ∧
        eventAddress row lane 4 = ((cpuAt row lane).sp + 65534) % 65536) ∧
    ((∃ register, instruction.operation = .push register) ∨
        (∃ vector, instruction.operation = .restart vector) →
      eventAddress row lane 1 = ((cpuAt row lane).sp + 65535) % 65536 ∧
        eventAddress row lane 2 = ((cpuAt row lane).sp + 65534) % 65536) := by
  have h := (LaneSlices.of_active hrow hlane hactive).stackOperations
  simp only [constrainStackOperations, constrainPushes, holds_append, holds_cons,
    PackedLane.instruction, hactive, one_mul, ← natCast_laneBranch hrow.toBlockSlices hlane,
    hcarries.operationSelector_eq 34 (by norm_num), hcarries.operationSelector_eq 35 (by norm_num),
    hcarries.operationSelector_eq 36 (by norm_num)] at h
  obtain ⟨-, hhigh, hlow, -⟩ := h.1.1.2
  constructor
  · intro condition hoperation hbranch
    simp only [hoperation, descriptor, hbranch, reduceIte, Nat.reduceEqDiff, Nat.cast_one, one_mul,
      add_zero, zero_mul] at hhigh hlow
    exact push_addresses hrow hlane hactive (by norm_num) (by norm_num)
      (by rw [Nat.cast_one]; exact sub_eq_zero.mp hhigh) (sub_eq_zero.mp hlow)
  · rintro (⟨register, hoperation⟩ | ⟨vector, hoperation⟩)
    · simp only [hoperation, descriptor, reduceIte, Nat.reduceEqDiff, one_mul, add_zero, zero_add,
        zero_mul] at hhigh hlow
      exact push_addresses hrow hlane hactive (by norm_num) (by norm_num)
        (sub_eq_zero.mp hhigh) (sub_eq_zero.mp hlow)
    · simp only [hoperation, descriptor, reduceIte, Nat.reduceEqDiff, one_mul, zero_add,
        zero_mul] at hhigh hlow
      exact push_addresses hrow hlane hactive (by norm_num) (by norm_num)
        (sub_eq_zero.mp hhigh) (sub_eq_zero.mp hlow)

/-- The stack addresses of RET, POP and RETI. -/
theorem data_pop
    (hoperation : (∃ condition, instruction.operation = .return condition ∧
        laneBranch row lane = 1) ∨ (∃ register, instruction.operation = .pop register) ∨
      instruction.operation = .returnFromInterrupt) :
    eventAddress row lane 1 = (cpuAt row lane).sp ∧
      eventAddress row lane 2 = ((cpuAt row lane).sp + 1) % 65536 := by
  have h := (LaneSlices.of_active hrow hlane hactive).stackOperations
  simp only [constrainStackOperations, constrainPops, holds_append, holds_cons,
    PackedLane.instruction, hactive, one_mul, ← natCast_laneBranch hrow.toBlockSlices hlane,
    hcarries.operationSelector_eq 20 (by norm_num), hcarries.operationSelector_eq 24 (by norm_num),
    hcarries.operationSelector_eq 25 (by norm_num)] at h
  obtain ⟨-, hlow, hhigh, -⟩ := h.1.2.1.1
  have hpopped : busAddress row lane 1 = before row lane stateSp ∧
      busAddress row lane 2 = before row lane stateSp + ((1 : ℕ) : NativeField) -
        ((65536 : ℕ) : NativeField) * laneColumn row lane stackFirstWrap := by
    rcases hoperation with ⟨condition, hoperation, hbranch⟩ | ⟨register, hoperation⟩ | hoperation
    · simp only [hoperation, descriptor, hbranch, reduceIte, Nat.reduceEqDiff, Nat.cast_one,
        one_mul, add_zero] at hhigh hlow
      exact ⟨sub_eq_zero.mp hlow, by rw [Nat.cast_one]; exact sub_eq_zero.mp hhigh⟩
    · simp only [hoperation, descriptor, reduceIte, Nat.reduceEqDiff, one_mul, add_zero, zero_add,
        zero_mul] at hhigh hlow
      exact ⟨sub_eq_zero.mp hlow, sub_eq_zero.mp hhigh⟩
    · simp only [hoperation, descriptor, reduceIte, Nat.reduceEqDiff, one_mul, zero_add,
        zero_mul] at hhigh hlow
      exact ⟨sub_eq_zero.mp hlow, sub_eq_zero.mp hhigh⟩
  obtain ⟨-, hfirstWrap⟩ := isBit_stackWrap hrow hlane hactive
  have hinstruction := instructionValue_eq_one hrow.toBlockSlices hlane hactive
  have hsp := (scalar_cpu_lt hrow hinstruction hlane.le).2.1
  have hfirstLe := bitNat_le_one (laneColumn row lane stackFirstWrap)
  have hlt := eventAddress_lt row lane 2
  obtain ⟨hfirst, hsecond⟩ := hpopped
  rw [before_eq] at hfirst
  rw [busAddress_eq hrow hlane (by norm_num), before_eq, ← natCast_bitNat hfirstWrap] at hsecond
  refine ⟨eventAddress_eq hrow hlane (by norm_num) (hsp.trans (by norm_num)) hfirst, ?_⟩
  have hsum : ((eventAddress row lane 2 + 65536 * bitNat (laneColumn row lane stackFirstWrap) : ℕ) :
      NativeField) = ((scalar row lane stateSp + 1 : ℕ) : NativeField) := by
    push_cast
    linear_combination hsecond
  have hnat := eq_of_natCast_eq hsum (by omega) (by omega)
  show eventAddress row lane 2 = (scalar row lane stateSp + 1) % 65536
  omega

end Data

end Reading

end Zksm83
