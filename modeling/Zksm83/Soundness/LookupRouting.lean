import Zksm83.Cpu.LookupTable
import Zksm83.Soundness.WrittenRows

/-!
# Routing of the execution lookups

The well-formedness constraints derive the table of a query from the operation and argument bits of
the fixed ISA, independently of the proof plan. A lane that carries an instruction selects the
tables of its plan, and a selected table fixes the high bits of the address, which puts the query
into the packed range of that table. After `constrain_execution_lookup_well_formed` of
`execution_lookup.rs`.
-/

namespace Zksm83

open Constraint BlockMetadata BlockIsa BlockFrontend PackedLane ExecutionLookup Reading Decode
open IsaTable (descriptor)

/-- The table of a query under a proof plan. -/
def ExecutionProofPlan.queryTable (plan : ExecutionProofPlan) (query : ℕ) :
    Option ExecutionLookupTable :=
  if query < plan.lookupCount then plan.lookupTable else none

/-- The selectors of the tables where one table or none is chosen. -/
def chosenTables (chosen : Option ExecutionLookupTable) : List NativeField :=
  ExecutionLookupTable.all.map (fun table => if chosen = some table then 1 else 0)

/-- The selectors that the well-formedness constraints give a query. -/
def queryTables (row : Row NativeField) (lane query : ℕ) : List NativeField :=
  if query = 0 then tableSelectors row lane else secondTableSelectors row lane

/-- The address of a query in the packed table. -/
def lookupAddress (row : Row NativeField) (lane query : ℕ) : ℕ :=
  columnsNat row (queryStart lane query + addressBitsOffset) addressBitCount

section Selectors

variable {row : Row NativeField} {lane : ℕ} {instruction : DecodedInstruction}
  (hcarries : Carries row lane instruction) (hactive : laneValue row lane = 1)

include hcarries hactive

/-- The first query of a lane selects the table of the proof plan. -/
theorem tableSelectors_eq : tableSelectors row lane =
    chosenTables ((executionProofPlan instruction.operation).queryTable 0) := by
  have hinstruction : PackedLane.instruction row lane = 1 := hactive
  simp only [tableSelectors, hinstruction, hcarries.operationSelector_eq, hcarries.argumentZero_eq,
    Nat.reduceLT, one_mul]
  generalize instruction.operation = operation
  simp only [chosenTables, ExecutionLookupTable.all, List.map_cons, List.map_nil,
    ExecutionProofPlan.queryTable]
  cases operation with
  | alu8 alu operand =>
    cases alu <;> simp [descriptor, IsaTable.aluCode, executionProofPlan, aluLookupTable,
      ExecutionProofPlan.lookupCount, ExecutionProofPlan.lookupTable]
  | relativeJump branch | jump branch | call branch | «return» branch =>
    rcases branch with _ | branch
    · simp [descriptor, IsaTable.conditionCode, executionProofPlan, ExecutionProofPlan.lookupCount]
    · cases branch <;> simp [descriptor, IsaTable.conditionCode, executionProofPlan,
        ExecutionProofPlan.lookupCount, ExecutionProofPlan.lookupTable]
  | cb operation operand =>
    cases operation <;> simp [descriptor, executionProofPlan, cbLookupTable,
      ExecutionProofPlan.lookupCount, ExecutionProofPlan.lookupTable]
  | _ =>
    simp [descriptor, executionProofPlan, ExecutionProofPlan.lookupCount,
      ExecutionProofPlan.lookupTable]

/-- The second query of a lane selects a table exactly where the proof plan has two queries. -/
theorem secondTableSelectors_eq : secondTableSelectors row lane =
    chosenTables ((executionProofPlan instruction.operation).queryTable 1) := by
  have hinstruction : PackedLane.instruction row lane = 1 := hactive
  simp only [secondTableSelectors, hinstruction, hcarries.operationSelector_eq, Nat.reduceLT,
    one_mul]
  generalize instruction.operation = operation
  simp only [chosenTables, ExecutionLookupTable.all, List.map_cons, List.map_nil,
    ExecutionProofPlan.queryTable, List.replicate_succ, List.replicate_zero, Nat.cast_zero]
  cases operation with
  | relativeJump branch | jump branch | call branch | «return» branch =>
    rcases branch with _ | branch
    · simp [descriptor, executionProofPlan, ExecutionProofPlan.lookupCount]
    · simp [descriptor, executionProofPlan, ExecutionProofPlan.lookupCount]
  | cb operation operand =>
    cases operation <;> simp [descriptor, executionProofPlan, ExecutionProofPlan.lookupCount]
  | _ =>
    simp [descriptor, executionProofPlan, ExecutionProofPlan.lookupCount,
      ExecutionProofPlan.lookupTable]

end Selectors

section Sums

/-- A sum over the tables picks the chosen one. -/
theorem total_chosen (chosen : Option ExecutionLookupTable)
    (term : ExecutionLookupTable → NativeField) (keep : ExecutionLookupTable → Bool) :
    total ((ExecutionLookupTable.all.zip (chosenTables chosen)).flatMap (fun entry =>
      if keep entry.1 then [entry.2 * term entry.1] else [])) =
    (chosen.map (fun table => if keep table then term table else 0)).getD 0 := by
  have hsum : ∀ tables : List ExecutionLookupTable, tables.Nodup →
      ((tables.zip (tables.map (fun table => if chosen = some table then (1 : NativeField)
        else 0))).flatMap (fun entry =>
          if keep entry.1 then [entry.2 * term entry.1] else [])).sum =
      ((chosen.filter (fun table => decide (table ∈ tables))).map
        (fun table => if keep table then term table else 0)).getD 0 := by
    intro tables hnodup
    induction tables with
    | nil => cases chosen <;> simp
    | cons head rest ih =>
      obtain ⟨hhead, hrest⟩ := List.nodup_cons.mp hnodup
      rw [List.map_cons, List.zip_cons_cons, List.flatMap_cons, List.sum_append, ih hrest]
      cases chosen with
      | none => cases keep head <;> simp
      | some table =>
        by_cases heq : table = head
        · subst heq
          cases hkeep : keep table <;> simp [hhead, hkeep, Option.filter_some]
        · cases hkeep : keep head <;> simp [heq, Option.filter_some]
  rw [total_eq_sum, chosenTables, hsum _ (by decide)]
  cases chosen with
  | none => rfl
  | some table =>
    rw [Option.filter_some, if_pos (by simpa using ExecutionLookupTable.mem_all table)]

theorem total_chosenTables (chosen : Option ExecutionLookupTable) :
    total (chosenTables chosen) = if chosen.isSome then 1 else 0 := by
  rw [total_eq_sum, chosenTables]
  cases chosen with
  | none => simp
  | some table => cases table <;> simp [ExecutionLookupTable.all]

theorem allowedSum_chosenTables (chosen : Option ExecutionLookupTable) (bit : ℕ) :
    allowedSum (chosenTables chosen) bit =
      (chosen.map (fun table => if bit < table.inputBitCount then 1 else 0)).getD 0 := by
  have h := total_chosen chosen (fun _ => 1) (fun table => decide (bit < table.inputBitCount))
  simp only [mul_one, decide_eq_true_eq] at h
  exact h

theorem fixedSum_chosenTables (chosen : Option ExecutionLookupTable) (bit : ℕ) :
    fixedSum (chosenTables chosen) bit =
      (chosen.map (fun table => if bit < table.inputBitCount then 0
        else ((table.packedOffset / 2 ^ bit % 2 : ℕ) : NativeField))).getD 0 := by
  have h := total_chosen chosen (fun table => ((table.packedOffset / 2 ^ bit % 2 : ℕ) : NativeField))
    (fun table => !decide (bit < table.inputBitCount))
  simp only [Bool.not_eq_true', decide_eq_false_iff_not, ite_not] at h
  exact h

end Sums

section Slot

variable {row : Row NativeField} {lane query : ℕ} {chosen : Option ExecutionLookupTable}
  (hslot : Holds (constrainLookupSlot row lane query (chosenTables chosen)))

include hslot

/-- A query is selected exactly where a table is chosen. -/
theorem lookupSelector_eq : lookupSelector row lane query = if chosen.isSome then 1 else 0 := by
  simp only [constrainLookupSlot, holds_append, holds_cons] at hslot
  rw [← total_chosenTables]
  exact sub_eq_zero.mp hslot.1.1.1.2.1

theorem isBit_lookupAddressBit {bit : ℕ} (hbit : bit < addressBitCount) :
    IsBit (lookupAddressBit row lane query bit) := by
  simp only [constrainLookupSlot, holds_append, holds_booleans_iff] at hslot
  exact hslot.1.1.2 _ (List.mem_map.mpr ⟨bit, List.mem_range.mpr hbit, rfl⟩)

/-- An address bit that is no input of the chosen table is a bit of the base of that table. -/
theorem lookupAddressBit_fixed {bit : ℕ} (hbit : bit < addressBitCount)
    (hinput : ∀ table, chosen = some table → table.inputBitCount ≤ bit) :
    lookupAddressBit row lane query bit =
      (chosen.map (fun table => ((table.packedOffset / 2 ^ bit % 2 : ℕ) : NativeField))).getD 0 := by
  simp only [constrainLookupSlot, holds_append, holds_map, List.mem_range] at hslot
  have hfixed := sub_eq_zero.mp (hslot.1.2 bit hbit)
  rw [allowedSum_chosenTables, fixedSum_chosenTables, Nat.cast_one] at hfixed
  cases chosen with
  | none =>
    rw [Option.map_none, Option.map_none, Option.getD_none, sub_zero, one_mul] at hfixed
    exact hfixed
  | some table =>
    have hge := Nat.not_lt.mpr (hinput table rfl)
    rw [Option.map_some, Option.map_some, Option.getD_some, Option.getD_some, if_neg hge,
      if_neg hge, sub_zero, one_mul] at hfixed
    exact hfixed

/-- A query that is not selected is zero. -/
theorem lookupSlot_zero (hnone : chosen = none) :
    (∀ bit < addressBitCount, lookupAddressBit row lane query bit = 0) ∧
      ∀ bit < outputBitCount, lookupOutputBit row lane query bit = 0 := by
  refine ⟨?_, ?_⟩
  · intro bit hbit
    rw [lookupAddressBit_fixed hslot hbit (fun table htable => by rw [hnone] at htable; cases htable),
      hnone]
    rfl
  · intro bit hbit
    have hselector := lookupSelector_eq hslot
    simp only [constrainLookupSlot, holds_append, holds_flatMap, holds_cons, List.mem_range] at hslot
    have houtput := (hslot.2 bit hbit).2.1
    rw [hselector, hnone, Option.isSome_none, if_neg Bool.false_ne_true, sub_zero, Nat.cast_one,
      one_mul] at houtput
    exact houtput

/-- A selected query lies in the packed range of its table. -/
theorem lookupAddress_range {table : ExecutionLookupTable} (hsome : chosen = some table) :
    table.packedOffset ≤ lookupAddress row lane query ∧
      lookupAddress row lane query < table.packedOffset + table.rowCount := by
  obtain ⟨haligned, hfits⟩ := ExecutionLookupTable.packedRange_aligned table
  have hpos : 0 < table.rowCount := Nat.two_pow_pos _
  -- The high bits of the address are those of the base.
  have hhigh : lookupAddress row lane query / table.rowCount =
      table.packedOffset / table.rowCount := by
    refine Nat.eq_of_testBit_eq ?_
    intro bit
    rw [ExecutionLookupTable.rowCount, Nat.testBit_div_two_pow, Nat.testBit_div_two_pow]
    rcases Nat.lt_or_ge (bit + table.inputBitCount) addressBitCount with hlt | hge
    · have hbit := lookupAddressBit_fixed hslot hlt (fun other hother => by
        rw [hsome] at hother
        cases hother
        exact Nat.le_add_left _ _)
      rw [hsome, Option.map_some, Option.getD_some] at hbit
      rw [lookupAddress, testBit_columnsNat _ _ hlt]
      change decide (lookupAddressBit row lane query (bit + table.inputBitCount) = 1) = _
      rw [hbit, Nat.testBit_eq_decide_div_mod_eq]
      rcases Nat.mod_two_eq_zero_or_one (table.packedOffset / 2 ^ (bit + table.inputBitCount)) with
        hzero | hone
      · rw [hzero, Nat.cast_zero]
        simp
      · rw [hone, Nat.cast_one]
        simp
    · have hpow : (2 : ℕ) ^ 19 ≤ 2 ^ (bit + table.inputBitCount) :=
        Nat.pow_le_pow_right (by norm_num) hge
      have haddress : lookupAddress row lane query < 2 ^ 19 := columnsNat_lt _ _ _
      rw [Nat.testBit_lt_two_pow (haddress.trans_le hpow),
        Nat.testBit_lt_two_pow (show table.packedOffset < _ by omega)]
  have haddress := Nat.div_add_mod (lookupAddress row lane query) table.rowCount
  have hbase := Nat.div_add_mod table.packedOffset table.rowCount
  have hmod := Nat.mod_lt (lookupAddress row lane query) hpos
  rw [hhigh] at haddress
  omega

end Slot

/-- A query of a lane is routed as the proof plan of its instruction says. -/
structure LookupRouted (row : Row NativeField) (lane query : ℕ) (plan : ExecutionProofPlan) :
    Prop where
  selected_iff : lookupSelector row lane query = 1 ↔ query < plan.lookupCount
  addressBits : ∀ bit < addressBitCount, IsBit (lookupAddressBit row lane query bit)
  routed : query < plan.lookupCount → ∃ table, plan.lookupTable = some table ∧
    (table.packedOffset ≤ lookupAddress row lane query ∧
      lookupAddress row lane query < table.packedOffset + table.rowCount) ∧
    ∃ value, evaluateExecutionTableEntry table
        (lookupAddress row lane query - table.packedOffset) = .ok value ∧
      evaluatePackedExecutionTableEntry (lookupAddress row lane query) = value
  unselected : plan.lookupCount ≤ query → lookupSelector row lane query = 0 ∧
    (∀ bit < addressBitCount, lookupAddressBit row lane query bit = 0) ∧
      ∀ bit < outputBitCount, lookupOutputBit row lane query bit = 0

/-- A slot with the selectors of a proof plan is routed as the plan says. -/
theorem lookupRouted_of_slot {row : Row NativeField} {lane query : ℕ} {plan : ExecutionProofPlan}
    (hslot : Holds (constrainLookupSlot row lane query (chosenTables (plan.queryTable query)))) :
    LookupRouted row lane query plan := by
  have hselector := lookupSelector_eq hslot
  -- A plan with queries names a table.
  have htable : query < plan.lookupCount → ∃ table, plan.lookupTable = some table := by
    intro hlt
    cases plan with
    | glueOnly => exact absurd hlt (Nat.not_lt_zero _)
    | lookup table | doubleLookup table => exact ⟨table, rfl⟩
  have hchosen : (plan.queryTable query).isSome = true ↔ query < plan.lookupCount := by
    rw [ExecutionProofPlan.queryTable]
    split
    case isTrue hlt =>
      obtain ⟨table, heq⟩ := htable hlt
      simp [heq, hlt]
    case isFalse hge => simp [hge]
  refine ⟨?_, fun bit hbit => isBit_lookupAddressBit hslot hbit, ?_, ?_⟩
  · rw [hselector, ← hchosen]
    split <;> simp_all
  · intro hlt
    obtain ⟨table, heq⟩ := htable hlt
    have hrange := lookupAddress_range hslot (show plan.queryTable query = some table by
      rw [ExecutionProofPlan.queryTable, if_pos hlt, heq])
    exact ⟨table, heq, hrange, evaluatePackedExecutionTableEntry_eq hrange.1 hrange.2⟩
  · intro hge
    have hnone : plan.queryTable query = none := if_neg (Nat.not_lt.mpr hge)
    refine ⟨?_, lookupSlot_zero hslot hnone⟩
    rw [hselector, hnone]
    rfl

/-- The execution lookups of a lane with a row of the fixed ISA are well routed, and the packed
ranges of the tables are aligned and disjoint. -/
theorem lookups_routed {row : Row NativeField} {lane : ℕ}
    (hholds : Holds (constrainExecutionLookupWellFormed row))
    (hlane : lane < basicBlockInstructionBound) (hactive : laneValue row lane = 1)
    (hisa : IsaBound row lane) {instruction : DecodedInstruction}
    (hdecode : decodeAddress (laneAddress row lane) = some instruction) :
    (∀ query < lookupsPerInstruction,
      LookupRouted row lane query (executionProofPlan instruction.operation)) ∧
    (∀ table : ExecutionLookupTable, table.packedOffset % table.rowCount = 0) ∧
    ∀ table other : ExecutionLookupTable, table ≠ other →
      table.packedOffset + table.rowCount ≤ other.packedOffset ∨
        other.packedOffset + other.rowCount ≤ table.packedOffset := by
  have hcarries : Carries row lane instruction :=
    { decode := hdecode
      outputs := fun output houtput => by rw [hisa output houtput, IsaTable.outputs, hdecode]
      wellFormed := wellFormedInstruction_of_decode laneAddress_lt hdecode }
  simp only [constrainExecutionLookupWellFormed, holds_flatMap, holds_append, List.mem_range]
    at hholds
  obtain ⟨hfirst, hsecond⟩ := hholds lane hlane
  rw [tableSelectors_eq hcarries hactive] at hfirst
  rw [secondTableSelectors_eq hcarries hactive] at hsecond
  refine ⟨?_, fun table => (ExecutionLookupTable.packedRange_aligned table).1,
    fun table other hne => ExecutionLookupTable.packedRange_disjoint hne⟩
  intro query hquery
  have hbound : query < 2 := hquery
  interval_cases query
  · exact lookupRouted_of_slot hfirst
  · exact lookupRouted_of_slot hsecond

namespace Forgery

/-- A lane that executes `ADD A,B` and asks for 5 + 6 without carry. -/
def addCells : Assignment :=
  metadataCells [1, 1, 1, 0, 0, 0] ++
    isaCells [0x80, isaPaddingAddress, isaPaddingAddress, isaPaddingAddress] ++
    [(queryStart 0 0, [1] ++ IsaTable.bitList 0x605 19 ++ IsaTable.bitList 11 12)]

def addNumber : ℕ := Assignment.packed 128 addCells

/-- The lookups of an addition. -/
def addRow : Row NativeField := nativeRow addNumber

/-- What is read off the columns of the addition. -/
structure AddReading : Prop where
  lane : (laneValue (Assignment.residueRow fieldModulus 128 addNumber) 0).val = 1
  opcode : ∀ bit < 9, (isaAddressBit (Assignment.residueRow fieldModulus 128 addNumber) 0 bit).val =
    0x80 / 2 ^ bit % 2
  outputs : ∀ output < isaOutputCount,
    (isa (Assignment.residueRow fieldModulus 128 addNumber) 0 output).val =
      (IsaTable.outputs 0x80).getD output 0
  holds : Residue.allZero (constrainExecutionLookupWellFormed
    (Assignment.residueRow fieldModulus 128 addNumber)) = true

theorem addReading : AddReading :=
  ⟨by decide +kernel, by decide +kernel, by decide +kernel, by decide +kernel⟩

/-- The addition has one query, into the table of additions, and a disabled one. -/
theorem lookups_routed_addRow : LookupRouted addRow 0 0 (.lookup .add8) ∧
    LookupRouted addRow 0 1 (.lookup .add8) := by
  have haddress : laneAddress addRow 0 = 0x80 := laneAddress_nativeRow (by norm_num) addReading.opcode
  have hholds : Holds (constrainExecutionLookupWellFormed addRow) := by
    rw [addRow, nativeRow, ← map_constrainExecutionLookupWellFormed]
    exact Residue.holds_of_allZero addReading.holds
  have hrouted := (lookups_routed hholds (by decide) (laneValue_nativeRow addReading.lane)
    (isaBound_nativeRow haddress addReading.outputs)
    (show decodeAddress (laneAddress addRow 0) = some (decodeDefinedPrimary 0x80) by
      rw [haddress]
      rfl)).1
  exact ⟨hrouted 0 (by decide), hrouted 1 (by decide)⟩

end Forgery

end Zksm83
