import Zksm83.Soundness.DataAddresses
import Zksm83.Soundness.WrittenRows

/-!
# Addresses of the bus events of a lane

The events of a lane are compared with the accesses that the core makes from the state before the
lane, answered with the bytes of the lane's events. The fetches, the immediates, the stack and the
transfers through a register pair or an immediate are bound to the addresses of the core. The
operand of `LD r,(HL)`, of an ALU operation on `(HL)`, and of `INC (HL)` and `DEC (HL)` is not: its
byte is bound, its address is not.
-/

namespace Zksm83

open Constraint BlockMetadata BlockFrontend BlockIsa BlockBus PackedLane
open IsaTable (descriptor busPattern dataBus)

namespace Reading

/-- The numbered events of a lane have the addresses of the core's accesses: those the core makes
from the state before the lane, answered with the bytes of the lane's events. -/
def AddressesBound (row : Row NativeField) (lane : ℕ) : Prop :=
  ∀ localSlot slot, laneEvent row lane localSlot = some slot →
    ∃ access, (accesses (eventValue row lane) (cpuAt row lane))[localSlot]? = some access ∧
      slotAddress row slot = access.address

/-- The number of data events of an instruction. -/
def dataCount (instruction : DecodedInstruction) (branch : ℕ) : ℕ :=
  (busPattern instruction).dataReads + (busPattern instruction).dataWrites +
    branch * ((busPattern instruction).takenDataReads + (busPattern instruction).takenDataWrites)

/-- The number of fetches of an instruction. -/
def fetchCount (instruction : DecodedInstruction) : ℕ :=
  (busPattern instruction).opcodeFetches + (busPattern instruction).immediateReads

theorem eventCount_eq (instruction : DecodedInstruction) (branch : ℕ) :
    eventCount (busPattern instruction) branch =
      fetchCount instruction + dataCount instruction branch := by
  unfold eventCount fetchCount dataCount
  omega

theorem laneEvent_eq_some_iff {row : Row NativeField} {lane localSlot slot : ℕ} :
    laneEvent row lane localSlot = some slot ↔
      ∃ h : localSlot < (laneEvents row lane).length, (laneEvents row lane)[localSlot] = slot := by
  rw [laneEvent, List.getElem?_eq_some_iff]

/-- The events of a lane, by number instead of by slot. -/
theorem addressesBound_iff_eventAddress (row : Row NativeField) (lane : ℕ) :
    AddressesBound row lane ↔ ∀ localSlot < (laneEvents row lane).length,
      ∃ access, (accesses (eventValue row lane) (cpuAt row lane))[localSlot]? = some access ∧
        eventAddress row lane localSlot = access.address := by
  constructor
  · intro h localSlot hlt
    have hevent : laneEvent row lane localSlot = some ((laneEvents row lane)[localSlot]) :=
      laneEvent_eq_some_iff.mpr ⟨hlt, rfl⟩
    obtain ⟨access, haccess, haddress⟩ := h localSlot _ hevent
    refine ⟨access, haccess, ?_⟩
    rw [eventAddress, hevent]
    exact haddress
  · intro h localSlot slot hevent
    obtain ⟨hlt, -⟩ := laneEvent_eq_some_iff.mp hevent
    obtain ⟨access, haccess, haddress⟩ := h localSlot hlt
    rw [eventAddress, hevent] at haddress
    exact ⟨access, haccess, haddress⟩

/-- The accesses of the lane's operation. -/
def laneAccesses (row : Row NativeField) (lane : ℕ) (instruction : DecodedInstruction) :
    List Access :=
  operationAccesses (cpuAt row lane)
    (Exec.answered (eventValue row lane) 1 (busPattern instruction).immediateReads)
    instruction.operation

/-- The fetches of a lane are accesses of the core, and what follows are those of its operation. -/
structure FetchesBound (row : Row NativeField) (lane : ℕ) (instruction : DecodedInstruction)
    (fetches : List Access) : Prop where
  length : fetches.length = fetchCount instruction
  accesses : accesses (eventValue row lane) (cpuAt row lane) =
    fetches ++ laneAccesses row lane instruction
  address : ∀ localSlot access, fetches[localSlot]? = some access →
    eventAddress row lane localSlot = access.address

section Bound

variable {row : Row NativeField} (hrow : CpuSlices row) {lane : ℕ}
  (hlane : lane < basicBlockInstructionBound) (hactive : laneValue row lane = 1)
  {instruction : DecodedInstruction} (hcarries : Carries row lane instruction)

include hrow hlane hactive hcarries

theorem fetchesBound_cb (hprefixed : 256 ≤ laneAddress row lane) :
    FetchesBound row lane instruction [⟨.opcodeFetch, (cpuAt row lane).pc⟩,
      ⟨.opcodeFetch, Exec.nextFetch (cpuAt row lane)⟩] := by
  obtain ⟨hinstruction, hfetches, himmediates, -⟩ := hcarries.prefixed hprefixed
  obtain ⟨hzero, hone, haddress⟩ := fetched_cb hrow hlane hactive hprefixed
  refine ⟨?_, ?_, ?_⟩
  · rw [fetchCount, hfetches, himmediates]
    rfl
  · rw [Exec.accesses_cb hzero, hone, ← hinstruction, laneAccesses, himmediates]
    rfl
  · intro localSlot access haccess
    match localSlot, haccess with
    | 0, haccess =>
      obtain rfl := Option.some.inj haccess
      exact eventAddress_zero hrow hlane hactive
    | 1, haccess =>
      obtain rfl := Option.some.inj haccess
      exact haddress

theorem fetchesBound_primary (hprimary : laneAddress row lane < 256)
    (hnotPrefix : laneAddress row lane ≠ 0xcb) :
    FetchesBound row lane instruction (⟨.opcodeFetch, (cpuAt row lane).pc⟩ ::
      Exec.immediateAccesses (Exec.nextFetch (cpuAt row lane))
        (busPattern instruction).immediateReads) := by
  obtain ⟨hdecode, hlength, hfetches, himmediates, -⟩ := hcarries.primary hprimary
  obtain ⟨hzero, hone, htwo⟩ := fetched_primary hrow hlane hactive hcarries hprimary
  have hneed : immediateNeed instruction.operation ≤ 2 := by
    unfold immediateNeed
    split <;> norm_num
  have hlengthSub : instruction.byteLen - 1 = (busPattern instruction).immediateReads := by
    rw [himmediates, hlength]
    rfl
  refine ⟨?_, ?_, ?_⟩
  · rw [fetchCount, hfetches, List.length_cons, Exec.length_immediateAccesses, add_comm]
  · rw [Exec.accesses_primary (by rw [hzero]; exact hnotPrefix) (by rw [hzero]; exact hdecode)
      (by rw [hlength]; rfl), hlengthSub]
    rfl
  · intro localSlot access haccess
    have hcount : (busPattern instruction).immediateReads ≤ 2 := himmediates.trans_le hneed
    match localSlot, haccess with
    | 0, haccess =>
      obtain rfl := Option.some.inj haccess
      exact eventAddress_zero hrow hlane hactive
    | 1, haccess =>
      generalize (busPattern instruction).immediateReads = count at haccess hone hcount
      match count, haccess with
      | count + 1, haccess =>
        obtain rfl := Option.some.inj haccess
        exact hone (by omega)
    | 2, haccess =>
      generalize (busPattern instruction).immediateReads = count at haccess htwo hcount
      match count, haccess with
      | 2, haccess =>
        obtain rfl := Option.some.inj haccess
        exact htwo rfl
    | localSlot + 3, haccess =>
      have hlt := (List.getElem?_eq_some_iff.mp haccess).1
      rw [List.length_cons, Exec.length_immediateAccesses] at hlt
      omega

end Bound

/-- The data events of a lane have the addresses of the operation's accesses. -/
def DataBound (row : Row NativeField) (lane : ℕ) (instruction : DecodedInstruction) : Prop :=
  ∀ index < dataCount instruction (laneBranch row lane), ∃ access,
    (laneAccesses row lane instruction)[index]? = some access ∧
    eventAddress row lane (fetchCount instruction + index) = access.address

/-- Beyond the fetches only the data events matter. -/
theorem FetchesBound.bounds_iff {row : Row NativeField} {lane : ℕ}
    {instruction : DecodedInstruction} {fetches : List Access}
    (h : FetchesBound row lane instruction fetches)
    (hlength : (laneEvents row lane).length =
      fetchCount instruction + dataCount instruction (laneBranch row lane)) :
    AddressesBound row lane ↔ DataBound row lane instruction := by
  rw [addressesBound_iff_eventAddress, hlength, h.accesses]
  constructor
  · intro hall index hindex
    have hevent := hall (fetchCount instruction + index) (by omega)
    rwa [List.getElem?_append_right (by rw [h.length]; omega), h.length,
      Nat.add_sub_cancel_left] at hevent
  · intro hdata localSlot hlt
    by_cases hfetch : localSlot < fetches.length
    · refine ⟨fetches[localSlot], ?_, ?_⟩
      · rw [List.getElem?_append_left hfetch, List.getElem?_eq_getElem hfetch]
      · exact h.address localSlot _ (List.getElem?_eq_getElem hfetch)
    · have hle : fetchCount instruction ≤ localSlot := by
        rw [← h.length]
        omega
      obtain ⟨access, haccess, haddress⟩ := hdata (localSlot - fetchCount instruction) (by omega)
      rw [Nat.add_sub_of_le hle] at haddress
      refine ⟨access, ?_, haddress⟩
      rw [List.getElem?_append_right (by rw [h.length]; exact hle), h.length]
      exact haccess

section Accesses

variable {row : Row NativeField} {lane : ℕ} {instruction : DecodedInstruction}

theorem dataBound_none (hcount : dataCount instruction (laneBranch row lane) = 0) :
    DataBound row lane instruction := by
  intro index hindex
  omega

theorem dataBound_single {access : Access} {start : ℕ}
    (hlist : laneAccesses row lane instruction = [access])
    (hcount : dataCount instruction (laneBranch row lane) = 1)
    (hstart : fetchCount instruction = start) :
    DataBound row lane instruction ↔ eventAddress row lane start = access.address := by
  constructor
  · intro hbound
    obtain ⟨found, hfound, haddress⟩ := hbound 0 (by omega)
    rw [hlist] at hfound
    obtain rfl := Option.some.inj hfound
    rwa [hstart] at haddress
  · intro haddress index hindex
    obtain rfl : index = 0 := by omega
    exact ⟨access, by rw [hlist]; rfl, by rwa [hstart]⟩

theorem dataBound_pair {first second : Access} {start : ℕ}
    (hlist : laneAccesses row lane instruction = [first, second])
    (hcount : dataCount instruction (laneBranch row lane) = 2)
    (hstart : fetchCount instruction = start) :
    DataBound row lane instruction ↔ eventAddress row lane start = first.address ∧
      eventAddress row lane (start + 1) = second.address := by
  constructor
  · intro hbound
    obtain ⟨found, hfound, haddress⟩ := hbound 0 (by omega)
    obtain ⟨found', hfound', haddress'⟩ := hbound 1 (by omega)
    rw [hlist] at hfound hfound'
    obtain rfl := Option.some.inj hfound
    obtain rfl := Option.some.inj hfound'
    rw [hstart] at haddress haddress'
    exact ⟨haddress, haddress'⟩
  · rintro ⟨haddress, haddress'⟩ index hindex
    rw [hlist, hstart]
    rcases (by omega : index = 0 ∨ index = 1) with rfl | rfl
    · exact ⟨first, rfl, haddress⟩
    · exact ⟨second, rfl, haddress'⟩

end Accesses

section Operations

variable {row : Row NativeField} (hrow : CpuSlices row) {lane : ℕ}
  (hlane : lane < basicBlockInstructionBound) (hactive : laneValue row lane = 1)
  {instruction : DecodedInstruction} (hcarries : Carries row lane instruction)

include hrow hlane hactive hcarries

/-- Unconditional returns and calls branch. -/
theorem laneBranch_unconditional
    (hoperation : instruction.operation = .return none ∨ instruction.operation = .call none) :
    laneBranch row lane = 1 := by
  have h := (LaneSlices.of_active hrow hlane hactive).branchRouting
  simp only [constrainBranchRoutingWithLookup, conditionalOperation, holds_cons,
    PackedLane.instruction, hactive, one_mul, hcarries.operationSelector_eq 3 (by norm_num),
    hcarries.operationSelector_eq 20 (by norm_num), hcarries.operationSelector_eq 28 (by norm_num),
    hcarries.operationSelector_eq 34 (by norm_num), hcarries.operationSelector_eq 25 (by norm_num),
    hcarries.operationSelector_eq 26 (by norm_num), hcarries.operationSelector_eq 36 (by norm_num),
    hcarries.argumentZero_eq 0 (by norm_num)] at h
  have hfixed := h.1
  have hone : branchTaken row lane = 1 := by
    rcases hoperation with hoperation | hoperation
    · simp only [hoperation, descriptor, IsaTable.conditionCode, reduceIte, Nat.reduceEqDiff,
        add_zero, zero_add, one_mul, Nat.cast_one] at hfixed
      exact sub_eq_zero.mp hfixed
    · simp only [hoperation, descriptor, IsaTable.conditionCode, reduceIte, Nat.reduceEqDiff,
        add_zero, zero_add, one_mul, Nat.cast_one] at hfixed
      exact sub_eq_zero.mp hfixed
  rw [laneBranch, hone, bitNat_one]

/-- Operations without prefix: all data addresses are bound but those of an `(HL)` operand. -/
theorem dataBound_primary (hprimary : laneAddress row lane < 256)
    (hbound : hlOperandUnbound instruction.operation = false)
    (hhonest : laneBranch row lane = 1 →
      (cpuAt row lane).takes (stackCondition instruction.operation) = true) :
    DataBound row lane instruction := by
  obtain ⟨-, -, hfetches, himmediates, hnotCb⟩ := hcarries.primary hprimary
  have hordinary := hcarries.ordinaryOperands
  have hcount : dataCount instruction (laneBranch row lane) =
      (dataBus instruction.operation).1 + (dataBus instruction.operation).2.1 +
        laneBranch row lane * ((dataBus instruction.operation).2.2.1 +
          (dataBus instruction.operation).2.2.2) := rfl
  have hstart : fetchCount instruction = 1 + immediateNeed instruction.operation := by
    rw [fetchCount, hfetches, himmediates]
  have hlist : laneAccesses row lane instruction = operationAccesses (cpuAt row lane)
      (Exec.answered (eventValue row lane) 1 (immediateNeed instruction.operation))
      instruction.operation := by
    rw [laneAccesses, himmediates]
  cases hoperation : instruction.operation with
  | storeSpAbsolute =>
    rw [hoperation] at hlist hcount hstart
    exact (dataBound_pair hlist hcount hstart).mpr
      (data_storeSp hrow hlane hactive hcarries hoperation hprimary)
  | loadAccumulatorIndirect address direction =>
    have haddress := data_indirect hrow hlane hactive hcarries hoperation
    rw [hoperation] at hlist hcount hstart
    cases direction with
    | intoAccumulator => exact (dataBound_single hlist hcount hstart).mpr haddress
    | fromAccumulator => exact (dataBound_single hlist hcount hstart).mpr haddress
  | load8Immediate target =>
    cases target with
    | indirectHl =>
      have haddress := (data_hlWrite hrow hlane hactive hcarries).1 hoperation
      rw [hoperation] at hlist hcount hstart
      exact (dataBound_single hlist hcount hstart).mpr haddress
    | register register =>
      rw [hoperation] at hcount
      exact dataBound_none hcount
    | immediate =>
      rw [hoperation] at hordinary
      exact absurd hordinary (by decide)
  | load8 destination source =>
    cases destination with
    | indirectHl =>
      have haddress := (data_hlWrite hrow hlane hactive hcarries).2 source hoperation
      rw [hoperation] at hlist hcount hstart hordinary
      cases source with
      | register register => exact (dataBound_single hlist hcount hstart).mpr haddress
      | immediate => exact absurd hordinary (by decide)
      | indirectHl => exact absurd hordinary (by decide)
    | register register =>
      rw [hoperation] at hcount hbound
      cases source with
      | register source => exact dataBound_none hcount
      | immediate => exact dataBound_none hcount
      | indirectHl => exact absurd hbound (by simp [hlOperandUnbound])
    | immediate =>
      rw [hoperation] at hordinary
      exact absurd hordinary (by simp [Zksm83.ordinaryOperands])
  | highImmediateLoad direction =>
    have haddress := (data_high hrow hlane hactive hcarries direction).1 hoperation hprimary
    rw [hoperation] at hlist hcount hstart
    cases direction with
    | intoAccumulator => exact (dataBound_single hlist hcount hstart).mpr haddress
    | fromAccumulator => exact (dataBound_single hlist hcount hstart).mpr haddress
  | highCLoad direction =>
    have haddress := (data_high hrow hlane hactive hcarries direction).2.1 hoperation
    rw [hoperation] at hlist hcount hstart
    cases direction with
    | intoAccumulator => exact (dataBound_single hlist hcount hstart).mpr haddress
    | fromAccumulator => exact (dataBound_single hlist hcount hstart).mpr haddress
  | absoluteAccumulatorLoad direction =>
    have haddress := (data_high hrow hlane hactive hcarries direction).2.2 hoperation hprimary
    rw [hoperation] at hlist hcount hstart
    cases direction with
    | intoAccumulator => exact (dataBound_single hlist hcount hstart).mpr haddress
    | fromAccumulator => exact (dataBound_single hlist hcount hstart).mpr haddress
  | increment8 target =>
    rw [hoperation] at hcount hbound hordinary
    cases target with
    | register register => exact dataBound_none hcount
    | immediate => exact absurd hordinary (by decide)
    | indirectHl => exact absurd hbound (by decide)
  | decrement8 target =>
    rw [hoperation] at hcount hbound hordinary
    cases target with
    | register register => exact dataBound_none hcount
    | immediate => exact absurd hordinary (by decide)
    | indirectHl => exact absurd hbound (by decide)
  | alu8 operation source =>
    rw [hoperation] at hcount hbound
    cases source with
    | register register => exact dataBound_none hcount
    | immediate => exact dataBound_none hcount
    | indirectHl => exact absurd hbound (by simp [hlOperandUnbound])
  | cb operation operand => exact absurd hoperation (hnotCb operation operand)
  | «return» condition =>
    rw [hoperation] at hhonest
    rcases Nat.le_one_iff_eq_zero_or_eq_one.mp (laneBranch_le row lane) with hbranch | hbranch
    · cases condition with
      | none =>
        have htaken := laneBranch_unconditional hrow hlane hactive hcarries (.inl hoperation)
        omega
      | some condition =>
        rw [hoperation, hbranch] at hcount
        exact dataBound_none (by rw [hbranch, hcount]; rfl)
    · have haddress := data_pop hrow hlane hactive hcarries (.inl ⟨condition, hoperation, hbranch⟩)
      have htakes : (cpuAt row lane).takes condition = true := hhonest hbranch
      rw [hoperation, operationAccesses, if_pos htakes] at hlist
      rw [hoperation, hbranch] at hcount
      rw [hoperation] at hstart
      exact (dataBound_pair hlist (by rw [hbranch, hcount]; cases condition <;> rfl) hstart).mpr
        haddress
  | call condition =>
    rw [hoperation] at hhonest
    rcases Nat.le_one_iff_eq_zero_or_eq_one.mp (laneBranch_le row lane) with hbranch | hbranch
    · cases condition with
      | none =>
        have htaken := laneBranch_unconditional hrow hlane hactive hcarries (.inr hoperation)
        omega
      | some condition =>
        rw [hoperation, hbranch] at hcount
        exact dataBound_none (by rw [hbranch, hcount]; rfl)
    · have haddress := (data_push hrow hlane hactive hcarries).1 condition hoperation hbranch
      have htakes : (cpuAt row lane).takes condition = true := hhonest hbranch
      rw [hoperation, operationAccesses, if_pos htakes] at hlist
      rw [hoperation, hbranch] at hcount
      rw [hoperation] at hstart
      exact (dataBound_pair hlist (by rw [hbranch, hcount]; cases condition <;> rfl) hstart).mpr
        haddress
  | returnFromInterrupt =>
    have haddress := data_pop hrow hlane hactive hcarries (.inr (.inr hoperation))
    rw [hoperation] at hlist hcount hstart
    exact (dataBound_pair hlist hcount hstart).mpr haddress
  | pop register =>
    have haddress := data_pop hrow hlane hactive hcarries (.inr (.inl ⟨register, hoperation⟩))
    rw [hoperation] at hlist hcount hstart
    exact (dataBound_pair hlist hcount hstart).mpr haddress
  | push register =>
    have haddress := (data_push hrow hlane hactive hcarries).2 (.inl ⟨register, hoperation⟩)
    rw [hoperation] at hlist hcount hstart
    exact (dataBound_pair hlist hcount hstart).mpr haddress
  | restart vector =>
    have haddress := (data_push hrow hlane hactive hcarries).2 (.inr ⟨vector, hoperation⟩)
    rw [hoperation] at hlist hcount hstart
    exact (dataBound_pair hlist hcount hstart).mpr haddress
  | _ =>
    rw [hoperation] at hcount
    exact dataBound_none hcount

/-- CB operations: all data addresses are bound. -/
theorem dataBound_cb (hprefixed : 256 ≤ laneAddress row lane) :
    DataBound row lane instruction := by
  obtain ⟨-, hfetches, himmediates, operation, operand, hoperation⟩ := hcarries.prefixed hprefixed
  have hordinary := hcarries.ordinaryOperands
  have hcount : dataCount instruction (laneBranch row lane) =
      (dataBus instruction.operation).1 + (dataBus instruction.operation).2.1 +
        laneBranch row lane * ((dataBus instruction.operation).2.2.1 +
          (dataBus instruction.operation).2.2.2) := rfl
  have hstart : fetchCount instruction = 2 := by rw [fetchCount, hfetches, himmediates]
  have hlist : laneAccesses row lane instruction =
      operationAccesses (cpuAt row lane) [] instruction.operation := by
    rw [laneAccesses, himmediates]
    rfl
  cases operand with
  | indirectHl =>
    obtain ⟨hread, hwrite⟩ := data_cb hrow hlane hactive hcarries hoperation
    rw [hoperation] at hlist hcount
    cases operation with
    | testBit bit => exact (dataBound_single hlist hcount hstart).mpr hread
    | _ => exact (dataBound_pair hlist hcount hstart).mpr ⟨hread, hwrite (by simp)⟩
  | register register =>
    rw [hoperation] at hcount
    cases operation <;> exact dataBound_none hcount
  | immediate =>
    rw [hoperation] at hordinary
    exact absurd hordinary (by simp [Zksm83.ordinaryOperands])

omit hrow hlane hactive hcarries in
/-- The events after the first one, by number. -/
theorem forall_tail_iff (address : ℕ) :
    (∀ slot ∈ (laneEvents row lane).tail, slotAddress row slot = address) ↔
      ∀ localSlot, 1 ≤ localSlot → localSlot < (laneEvents row lane).length →
        eventAddress row lane localSlot = address := by
  have hevent : ∀ localSlot (h : localSlot < (laneEvents row lane).length),
      eventAddress row lane localSlot = slotAddress row ((laneEvents row lane)[localSlot]) := by
    intro localSlot h
    rw [eventAddress, laneEvent_eq_some_iff.mpr ⟨h, rfl⟩]
    rfl
  constructor
  · intro h localSlot hpos hlt
    rw [hevent localSlot hlt]
    refine h _ (List.mem_iff_getElem.mpr ⟨localSlot - 1, by rw [List.length_tail]; omega, ?_⟩)
    rw [List.getElem_tail]
    congr 1
    omega
  · intro h slot hslot
    obtain ⟨index, hindex, rfl⟩ := List.mem_iff_getElem.mp hslot
    rw [List.length_tail] at hindex
    rw [List.getElem_tail, ← hevent (index + 1) (by omega)]
    exact h (index + 1) (by omega) (by omega)

omit hrow hlane hactive hcarries in
/-- The accesses of an operation whose `(HL)` operand has no address constraint. -/
theorem hlOperand_accesses (row : Row NativeField) (lane : ℕ)
    (hordinary : ordinaryOperands instruction.operation = true)
    (hunbound : hlOperandUnbound instruction.operation = true) :
    immediateNeed instruction.operation = 0 ∧
      (operationAccesses (cpuAt row lane) [] instruction.operation).length =
        dataCount instruction (laneBranch row lane) ∧
      ∀ access ∈ operationAccesses (cpuAt row lane) [] instruction.operation,
        access.address = (cpuAt row lane).register16 .hl := by
  have hcount : dataCount instruction (laneBranch row lane) =
      (dataBus instruction.operation).1 + (dataBus instruction.operation).2.1 +
        laneBranch row lane * ((dataBus instruction.operation).2.2.1 +
          (dataBus instruction.operation).2.2.2) := rfl
  rw [hcount]
  generalize instruction.operation = operation at hunbound hordinary
  unfold hlOperandUnbound at hunbound
  split at hunbound
  case h_1 destination =>
    cases destination with
    | register register => exact ⟨rfl, rfl, by simp [operationAccesses, operandAccess]⟩
    | immediate => exact absurd hordinary (by decide)
    | indirectHl => exact absurd hordinary (by decide)
  case h_2 => exact ⟨rfl, rfl, by simp [operationAccesses, operandAccess]⟩
  case h_3 => exact ⟨rfl, rfl, by simp [operationAccesses, operandAccess]⟩
  case h_4 => exact ⟨rfl, rfl, by simp [operationAccesses, operandAccess]⟩
  case h_5 => exact absurd hunbound (by decide)

omit hactive in
/-- An `(HL)` operand without address constraint is bound exactly if its events are at HL. -/
theorem dataBound_hlOperand_iff (hprimary : laneAddress row lane < 256)
    (hunbound : hlOperandUnbound instruction.operation = true) :
    DataBound row lane instruction ↔ ∀ slot ∈ (laneEvents row lane).tail,
      slotAddress row slot = (cpuAt row lane).register16 .hl := by
  obtain ⟨-, -, hfetches, himmediates, -⟩ := hcarries.primary hprimary
  obtain ⟨hneed, hcount, haddress⟩ :=
    hlOperand_accesses row lane hcarries.ordinaryOperands hunbound
  have hstart : fetchCount instruction = 1 := by rw [fetchCount, hfetches, himmediates, hneed]
  have hlength := laneEvents_length hrow.toBlockSlices hlane hcarries
  rw [eventCount_eq, hstart] at hlength
  have hlist : laneAccesses row lane instruction =
      operationAccesses (cpuAt row lane) [] instruction.operation := by
    rw [laneAccesses, himmediates, hneed]
    rfl
  rw [← hlist] at hcount haddress
  rw [forall_tail_iff, hlength, DataBound, hstart]
  constructor
  · intro hbound localSlot hpos hlt
    obtain ⟨access, haccess, hevent⟩ := hbound (localSlot - 1) (by omega)
    rw [Nat.add_sub_of_le hpos] at hevent
    rw [hevent, haddress access (List.mem_of_getElem? haccess)]
  · intro hevents index hindex
    have hlt : index < (laneAccesses row lane instruction).length := by omega
    refine ⟨(laneAccesses row lane instruction)[index], List.getElem?_eq_getElem hlt, ?_⟩
    rw [hevents (1 + index) (by omega) (by omega), haddress _ (List.getElem_mem hlt)]

omit hrow hlane hactive hcarries in
/-- A conditional call or return whose data events are the core's has a true condition. -/
theorem takes_of_dataBound (hbound : DataBound row lane instruction)
    (hbranch : laneBranch row lane = 1) :
    (cpuAt row lane).takes (stackCondition instruction.operation) = true := by
  by_contra hfalse
  have hcount : dataCount instruction (laneBranch row lane) =
      (dataBus instruction.operation).1 + (dataBus instruction.operation).2.1 +
        laneBranch row lane * ((dataBus instruction.operation).2.2.1 +
          (dataBus instruction.operation).2.2.2) := rfl
  rw [hbranch] at hcount
  obtain ⟨hempty, hpos⟩ : laneAccesses row lane instruction = [] ∧
      0 < dataCount instruction (laneBranch row lane) := by
    rw [hbranch, laneAccesses]
    cases hoperation : instruction.operation with
    | «return» condition =>
      rw [hoperation] at hfalse hcount
      cases condition with
      | none => exact absurd rfl hfalse
      | some condition =>
        rw [hcount]
        exact ⟨if_neg hfalse, by simp [dataBus]⟩
    | call condition =>
      rw [hoperation] at hfalse hcount
      cases condition with
      | none => exact absurd rfl hfalse
      | some condition =>
        rw [hcount]
        exact ⟨if_neg hfalse, by simp [dataBus]⟩
    | _ =>
      rw [hoperation] at hfalse
      exact absurd rfl hfalse
  obtain ⟨access, haccess, -⟩ := hbound 0 hpos
  rw [hempty] at haccess
  exact absurd haccess (by simp)

end Operations

/-- The events of an `(HL)` operand without address constraint are at HL. -/
def HlOperandBound (row : Row NativeField) (lane : ℕ) : Prop :=
  ∀ instruction, decodeAddress (laneAddress row lane) = some instruction →
    hlOperandUnbound instruction.operation = true →
      ∀ slot ∈ (laneEvents row lane).tail, slotAddress row slot = (cpuAt row lane).register16 .hl

/-- A lane that takes a conditional call or return has a true condition in its flags. -/
def StackBranchTrue (row : Row NativeField) (lane : ℕ) : Prop :=
  ∀ instruction, decodeAddress (laneAddress row lane) = some instruction →
    laneBranch row lane = 1 → (cpuAt row lane).takes (stackCondition instruction.operation) = true

section Lane

variable {row : Row NativeField} (hrow : CpuSlices row) {lane : ℕ}
  (hlane : lane < basicBlockInstructionBound) (hactive : laneValue row lane = 1)
  {instruction : DecodedInstruction} (hcarries : Carries row lane instruction)

include hrow hlane hactive hcarries

/-- The bare prefix byte is one fetch. -/
theorem addressesBound_prefix (hbare : laneAddress row lane = 0xcb) :
    AddressesBound row lane ∧ instruction.operation = .prefixCb := by
  have hdecode := hcarries.decode
  rw [hbare, show decodeAddress 0xcb = some (decodeDefinedPrimary 0xcb) from rfl,
    Option.some.injEq] at hdecode
  have hzero := (fetched_primary hrow hlane hactive hcarries (by rw [hbare]; norm_num)).1
  have hlength := laneEvents_length hrow.toBlockSlices hlane hcarries
  rw [← hdecode] at hlength
  refine ⟨?_, by rw [← hdecode]; rfl⟩
  rw [addressesBound_iff_eventAddress, Exec.accesses_cb (hzero.trans hbare)]
  intro localSlot hlt
  obtain rfl : localSlot = 0 := by
    have hone : eventCount (busPattern (decodeDefinedPrimary 0xcb)) (laneBranch row lane) = 1 := rfl
    omega
  exact ⟨⟨.opcodeFetch, (cpuAt row lane).pc⟩, rfl, eventAddress_zero hrow hlane hactive⟩

theorem addressesBound_iff_of_carries :
    AddressesBound row lane ↔ HlOperandBound row lane ∧ StackBranchTrue row lane := by
  have hsame : ∀ other, decodeAddress (laneAddress row lane) = some other → other = instruction :=
    fun other hother => Option.some.inj (hother.symm.trans hcarries.decode)
  have hlength := laneEvents_length hrow.toBlockSlices hlane hcarries
  rw [eventCount_eq] at hlength
  by_cases hbare : laneAddress row lane = 0xcb
  · obtain ⟨hbound, hoperation⟩ := addressesBound_prefix hrow hlane hactive hcarries hbare
    refine ⟨fun _ => ⟨?_, ?_⟩, fun _ => hbound⟩
    · intro other hother hunbound
      rw [hsame other hother, hoperation] at hunbound
      exact absurd hunbound (by decide)
    · intro other hother _
      rw [hsame other hother, hoperation]
      rfl
  rcases Nat.lt_or_ge (laneAddress row lane) 256 with hprimary | hprefixed
  · rw [(fetchesBound_primary hrow hlane hactive hcarries hprimary hbare).bounds_iff
      hlength]
    constructor
    · intro hdata
      refine ⟨?_, ?_⟩
      · intro other hother hunbound
        obtain rfl := hsame other hother
        exact (dataBound_hlOperand_iff hrow hlane hcarries hprimary hunbound).mp hdata
      · intro other hother hbranch
        obtain rfl := hsame other hother
        exact takes_of_dataBound hdata hbranch
    · rintro ⟨hoperand, htrue⟩
      cases hunbound : hlOperandUnbound instruction.operation with
      | true =>
        exact (dataBound_hlOperand_iff hrow hlane hcarries hprimary hunbound).mpr
          (hoperand instruction hcarries.decode hunbound)
      | false =>
        exact dataBound_primary hrow hlane hactive hcarries hprimary hunbound
          (htrue instruction hcarries.decode)
  · rw [(fetchesBound_cb hrow hlane hactive hcarries hprefixed).bounds_iff hlength]
    have hdata := dataBound_cb hrow hlane hactive hcarries hprefixed
    obtain ⟨-, -, -, operation, operand, hoperation⟩ := hcarries.prefixed hprefixed
    refine ⟨fun _ => ⟨?_, ?_⟩, fun _ => hdata⟩
    · intro other hother hunbound
      rw [hsame other hother, hoperation] at hunbound
      exact absurd hunbound (by simp [hlOperandUnbound])
    · intro other hother hbranch
      obtain rfl := hsame other hother
      exact takes_of_dataBound hdata hbranch

end Lane

end Reading

open Reading

/-- Every row of `BlockCpuRelation` and every active lane with its row of the fixed table: the
events of the lane have the addresses of the core's accesses exactly if the events of `LD r,(HL)`,
of ALU operations on `(HL)`, and of `INC (HL)` and `DEC (HL)` are at HL and a conditional call or
return that the lane takes has a true condition. -/
theorem addressesBound_iff (row : Row NativeField) (hrow : Holds (BlockCpu.evaluate row))
    (lane : ℕ) (hlane : lane < basicBlockInstructionBound) (hactive : laneValue row lane = 1)
    (hisa : IsaBound row lane) :
    AddressesBound row lane ↔ HlOperandBound row lane ∧ StackBranchTrue row lane := by
  have hslices := CpuSlices.of_holds hrow
  obtain ⟨instruction, hcarries⟩ :=
    carries_of_isaBound hslices.toBlockSlices hlane hactive hisa
  exact addressesBound_iff_of_carries hslices hlane hactive hcarries

section LoadRow

open Forgery

theorem loadRow_lane : laneValue loadRow 0 = 1 := laneValue_nativeRow loadReading.lane

/-- The forged load is at the opcode of `LD A,(HL)`. -/
theorem laneAddress_loadRow : laneAddress loadRow 0 = 0x7e :=
  laneAddress_nativeRow (by norm_num) loadReading.opcode

theorem isaBound_loadRow : IsaBound loadRow 0 :=
  isaBound_nativeRow laneAddress_loadRow loadReading.outputs

/-- The forged load owns the first two slots. -/
theorem laneEvents_loadRow : laneEvents loadRow 0 = [0, 1] := by
  have hvalue : ∀ slot ∈ List.range basicBlockBusEventBound,
      decide (BlockRouting.busOwnerValue loadRow slot 0 = 1) = decide (slot < 2) := by
    intro slot hslot
    have heq : BlockRouting.busOwnerValue loadRow slot 0 =
        (((if slot < 2 then 1 else 0 : ℕ) : ℕ) : NativeField) :=
      nativeRow_eq (loadReading.owners slot (List.mem_range.mp hslot))
    rw [decide_eq_decide, heq]
    by_cases hlt : slot < 2
    · simp only [hlt, if_true, Nat.cast_one]
    · simp only [hlt, if_false, Nat.cast_zero, zero_ne_one]
  rw [laneEvents, List.filter_congr hvalue]
  rfl

/-- The second event of the forged load is at `0x1111`, and HL is `0xc000`. -/
theorem loadRow_operand :
    slotAddress loadRow 1 = 0x1111 ∧ (cpuAt loadRow 0).register16 .hl = 0xc000 := by
  constructor
  · rw [slotAddress, busPlane, columnsNat_slice, loadRow]
    exact columnsNat_nativeRow 16 0x1111 (by norm_num) (loadReading.addresses 1 (by norm_num))
  · rw [register16_hl_cpuAt, loadRow, scalar_nativeRow (by norm_num) loadReading.hl.1,
      scalar_nativeRow (by norm_num) loadReading.hl.2]

/-- The kinds of the two events of the forged load: a data read, then a fetch. -/
theorem loadRow_kinds : slotKind loadRow 0 = 4 ∧ slotKind loadRow 1 = 14 := by
  have hcolumns : ∀ slot, slotKind loadRow slot =
      columnsNat loadRow (Forgery.busStart + (slotStart slot + 1)) traceBusKindBits := by
    intro slot
    rw [← columnsNat_slice, slotKind, slotKindBits, columnsNat, busPlane]
  rw [hcolumns, hcolumns, loadRow]
  exact ⟨columnsNat_nativeRow 5 4 (by norm_num) (loadReading.kinds 0 (by norm_num)),
    columnsNat_nativeRow 5 14 (by norm_num) (loadReading.kinds 1 (by norm_num))⟩

/-- The forged load is an active lane with its row of the fixed table. -/
theorem addressesBound_iff_loadRow :
    Holds (BlockCpu.evaluate loadRow) ∧ laneValue loadRow 0 = 1 ∧ IsaBound loadRow 0 ∧
      (AddressesBound loadRow 0 ↔ HlOperandBound loadRow 0 ∧ StackBranchTrue loadRow 0) :=
  ⟨loadRow_holds, loadRow_lane, isaBound_loadRow,
    addressesBound_iff loadRow loadRow_holds 0 (by norm_num) loadRow_lane isaBound_loadRow⟩

/-- The forged load reads its operand at `0x1111` instead of HL. -/
theorem addresses_unbound_loadRow :
    ¬ ∀ (row : Row NativeField) (lane : ℕ), Holds (BlockCpu.evaluate row) →
      lane < basicBlockInstructionBound → laneValue row lane = 1 → IsaBound row lane →
      AddressesBound row lane := by
  intro hbound
  have hload := hbound loadRow 0 loadRow_holds (by norm_num) loadRow_lane isaBound_loadRow
  have hslices := CpuSlices.of_holds loadRow_holds
  obtain ⟨instruction, hcarries⟩ := carries_of_isaBound hslices.toBlockSlices (by norm_num)
    loadRow_lane isaBound_loadRow
  obtain ⟨hoperand, -⟩ := (addressesBound_iff_of_carries hslices (by norm_num) loadRow_lane
    hcarries).mp hload
  obtain ⟨haddress, hhl⟩ := loadRow_operand
  have hdecode : decodeAddress (laneAddress loadRow 0) = some (decodeDefinedPrimary 0x7e) := by
    rw [laneAddress_loadRow]
    rfl
  have hevent := hoperand _ hdecode rfl 1 (by rw [laneEvents_loadRow]; simp)
  rw [haddress, hhl] at hevent
  omega

end LoadRow

end Zksm83
