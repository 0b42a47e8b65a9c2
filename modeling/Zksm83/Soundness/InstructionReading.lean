import Zksm83.Isa.Table
import Zksm83.Core.Recording
import Zksm83.Soundness.StateReading

/-!
# Reading the instruction of a lane

A lane whose ISA outputs are the row of the fixed table at its address carries a decoded
instruction. Its operation and argument selectors decide the codes of that instruction, and its
event counts are the bus pattern of that instruction.
-/

namespace Zksm83

open Constraint BlockMetadata BlockRouting BlockFrontend BlockIsa BlockBus PackedLane
open IsaTable (bitList descriptor BusAccessPattern busPattern dataBus alignedOutputs outputs)

/-- Events of an instruction by role, with those of a taken branch. -/
def roleCount (pattern : BusAccessPattern) (branch : ℕ) : BusRole → ℕ
  | .opcodeFetch => pattern.opcodeFetches
  | .immediateRead => pattern.immediateReads
  | .dataRead => pattern.dataReads + branch * pattern.takenDataReads
  | .dataWrite => pattern.dataWrites + branch * pattern.takenDataWrites

/-- The number of events of an instruction. -/
def eventCount (pattern : BusAccessPattern) (branch : ℕ) : ℕ :=
  pattern.opcodeFetches + pattern.immediateReads + pattern.dataReads + pattern.dataWrites +
    branch * (pattern.takenDataReads + pattern.takenDataWrites)

/-- What the decoder guarantees about the operands of an operation. -/
def ordinaryOperands : Operation → Bool
  | .increment8 operand | .decrement8 operand | .load8Immediate operand | .cb _ operand =>
    operand ≠ .immediate
  | .load8 destination source =>
    destination ≠ .immediate ∧ source ≠ .immediate ∧
      ¬ (destination = .indirectHl ∧ source = .indirectHl)
  | _ => true

/-- What the fixed table guarantees about an instruction: codes within their widths, ordinary
operands, at most five events, a CB operation exactly with a CB encoding, and a length that fits
the operation. -/
def wellFormedInstruction (instruction : DecodedInstruction) : Bool :=
  let codes := descriptor instruction.operation
  codes.1 < 64 && codes.2.1 < 8 && codes.2.2 < 16 && ordinaryOperands instruction.operation &&
    eventCount (busPattern instruction) 1 ≤ basicBlockBusEventBound &&
    (match instruction.encoding, instruction.operation with
      | .cb _, .cb _ _ => true
      | .cb _, _ | .primary _, .cb _ _ => false
      | .primary _, operation => instruction.byteLen == immediateNeed operation + 1)

theorem wellFormedInstruction_table :
    (List.range 512).all (fun address => (decodeAddress address).all wellFormedInstruction) =
      true := by
  decide +kernel

theorem wellFormedInstruction_of_decode {address : ℕ} (haddress : address < 512)
    {instruction : DecodedInstruction} (hdecode : decodeAddress address = some instruction) :
    wellFormedInstruction instruction = true := by
  have h := List.all_eq_true.mp wellFormedInstruction_table address (List.mem_range.mpr haddress)
  rw [hdecode] at h
  exact h

namespace Reading

/-- The fixed-ISA address of a lane. -/
def laneAddress (row : Row NativeField) (lane : ℕ) : ℕ :=
  columnsNat (isaPlane row) (BlockIsa.laneStart lane) isaAddressBitCount

/-- The ISA outputs of the lane are the row of the fixed table at its address. -/
def IsaBound (row : Row NativeField) (lane : ℕ) : Prop :=
  ∀ output < isaOutputCount, isa row lane output =
    (((outputs (laneAddress row lane)).getD output 0 : ℕ) : NativeField)

/-- The lane carries an instruction: its address decodes to it and its outputs are its row. -/
structure Carries (row : Row NativeField) (lane : ℕ) (instruction : DecodedInstruction) :
    Prop where
  decode : decodeAddress (laneAddress row lane) = some instruction
  outputs : ∀ output < isaOutputCount, isa row lane output =
    (((alignedOutputs instruction).getD output 0 : ℕ) : NativeField)
  wellFormed : wellFormedInstruction instruction = true

section Lane

variable {row : Row NativeField} (hrow : BlockSlices row) {lane : ℕ}
  (hlane : lane < basicBlockInstructionBound)

include hrow hlane

theorem laneValue_isaPlane : laneValue (isaPlane row) lane = laneValue row lane := by
  have h := hrow.isaMetadata
  simp only [constrainSharedMetadata, holds_map, List.mem_range] at h
  exact (sub_eq_zero.mp (h (BlockMetadata.laneColumn lane) (by
    show 2 + lane < 6
    have : lane < 4 := hlane
    omega))).symm

theorem isBit_isaAddressBit {bit : ℕ} (hbit : bit < isaAddressBitCount) :
    IsBit (isaAddressBit row lane bit) := by
  have h := hrow.isaLanes
  simp only [constrainLanes, holds_flatMap, holds_append, holds_map, List.mem_range,
    boolean_eq_zero_iff] at h
  exact (h lane hlane).1.1.1 bit hbit

theorem isBit_branchTaken : IsBit (branchTaken row lane) := by
  have h := hrow.isaLanes
  simp only [constrainLanes, holds_flatMap, holds_append, holds_cons, List.mem_range,
    boolean_eq_zero_iff] at h
  exact (h lane hlane).1.1.2.1

omit hlane hrow in
theorem laneAddress_lt : laneAddress row lane < 512 := columnsNat_lt _ _ _

/-- An active lane with a bound ISA row carries an instruction. -/
theorem carries_of_isaBound (hactive : laneValue row lane = 1) (hisa : IsaBound row lane) :
    ∃ instruction, Carries row lane instruction := by
  have h := hrow.isaLanes
  simp only [constrainLanes, holds_flatMap, holds_append, holds_cons, List.mem_range] at h
  have hvalid := (h lane hlane).2.1
  rw [laneValue_isaPlane hrow hlane, hactive, one_mul, Nat.cast_one] at hvalid
  have hone : isa row lane isaValid = 1 := sub_eq_zero.mp hvalid
  rw [hisa isaValid (by norm_num)] at hone
  cases hdecode : decodeAddress (laneAddress row lane) with
  | none =>
    rw [outputs, hdecode] at hone
    exact absurd hone (by simp)
  | some instruction =>
    refine ⟨instruction, hdecode, ?_, wellFormedInstruction_of_decode laneAddress_lt hdecode⟩
    intro output houtput
    rw [hisa output houtput, IsaTable.outputs, hdecode]

end Lane

namespace Carries

variable {row : Row NativeField} {lane : ℕ} {instruction : DecodedInstruction}
  (hcarries : Carries row lane instruction)

include hcarries

theorem codes_lt : (descriptor instruction.operation).1 < 64 ∧
    (descriptor instruction.operation).2.1 < 8 ∧ (descriptor instruction.operation).2.2 < 16 := by
  have h := hcarries.wellFormed
  simp only [wellFormedInstruction, Bool.and_eq_true, decide_eq_true_eq] at h
  exact ⟨h.1.1.1.1.1, h.1.1.1.1.2, h.1.1.1.2⟩

theorem ordinaryOperands : ordinaryOperands instruction.operation = true := by
  have h := hcarries.wellFormed
  simp only [wellFormedInstruction, Bool.and_eq_true] at h
  exact h.1.1.2

theorem eventCount_le : eventCount (busPattern instruction) 1 ≤ 5 := by
  have h := hcarries.wellFormed
  simp only [wellFormedInstruction, Bool.and_eq_true, decide_eq_true_eq] at h
  exact h.1.2

/-- The bit outputs of a code are the bits of the code. -/
theorem isa_bit {start width code : ℕ} (hbound : start + width ≤ isaOutputCount)
    (houtputs : ∀ bit < width, (alignedOutputs instruction).getD (start + bit) 0 =
      code / 2 ^ bit % 2) :
    (List.range width).map (fun bit => isa row lane (start + bit)) =
      (List.range width).map (fun bit => ((code / 2 ^ bit % 2 : ℕ) : NativeField)) := by
  refine List.map_congr_left ?_
  intro bit hbit
  have hlt := List.mem_range.mp hbit
  rw [hcarries.outputs (start + bit) (by omega), houtputs bit hlt]

/-- A selector over the bits of a code decides the code. -/
theorem bitSelector_isa {start width code : ℕ} (hbound : start + width ≤ isaOutputCount)
    (hcode : code < 2 ^ width)
    (houtputs : ∀ bit < width, (alignedOutputs instruction).getD (start + bit) 0 =
      code / 2 ^ bit % 2) (target : ℕ) (htarget : target < 2 ^ width) :
    bitSelector ((List.range width).map (fun bit => isa row lane (start + bit))) target =
      if code = target then 1 else 0 := by
  rw [isa_bit hcarries hbound houtputs, bitSelector_eq, bitsNat_natBits _ _ hcode]
  · intro value hvalue
    obtain ⟨bit, -, rfl⟩ := List.mem_map.mp hvalue
    rcases Nat.mod_two_eq_zero_or_one (code / 2 ^ bit) with h | h <;> rw [h]
    · exact Or.inl Nat.cast_zero
    · exact Or.inr Nat.cast_one
  · simpa using htarget

theorem operationSelector_eq (code : ℕ) (hcode : code < 64) :
    operationSelector row lane code =
      if (descriptor instruction.operation).1 = code then 1 else 0 :=
  bitSelector_isa hcarries (by norm_num) hcarries.codes_lt.1
    (fun bit hbit => by interval_cases bit <;> rfl) code hcode

theorem argumentZero_eq (code : ℕ) (hcode : code < 8) :
    argumentZero row lane code =
      if (descriptor instruction.operation).2.1 = code then 1 else 0 :=
  bitSelector_isa hcarries (by norm_num) hcarries.codes_lt.2.1
    (fun bit hbit => by interval_cases bit <;> rfl) code hcode

theorem argumentOne_eq (code : ℕ) (hcode : code < 16) :
    argumentOne row lane code =
      if (descriptor instruction.operation).2.2 = code then 1 else 0 :=
  bitSelector_isa hcarries (by norm_num) hcarries.codes_lt.2.2
    (fun bit hbit => by interval_cases bit <;> rfl) code hcode

/-- The event counts are the bus pattern. -/
theorem busPattern_eq :
    isa row lane isaOpcodeFetches = ((busPattern instruction).opcodeFetches : NativeField) ∧
    isa row lane isaImmediateReads = ((busPattern instruction).immediateReads : NativeField) ∧
    isa row lane isaDataReads = ((busPattern instruction).dataReads : NativeField) ∧
    isa row lane isaDataWrites = ((busPattern instruction).dataWrites : NativeField) ∧
    isa row lane isaTakenDataReads = ((busPattern instruction).takenDataReads : NativeField) ∧
    isa row lane isaTakenDataWrites =
      ((busPattern instruction).takenDataWrites : NativeField) :=
  ⟨hcarries.outputs _ (by norm_num), hcarries.outputs _ (by norm_num),
    hcarries.outputs _ (by norm_num), hcarries.outputs _ (by norm_num),
    hcarries.outputs _ (by norm_num), hcarries.outputs _ (by norm_num)⟩

end Carries

end Reading

end Zksm83
