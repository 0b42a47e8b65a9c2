import Zksm83.Argument.Relations
import Zksm83.Memory.Commitment
import Zksm83.Sumcheck.Projection

/-!
# Projections of the trace arguments

The trace arguments are proved on compact rows of the trace columns that they list. The lists are
written apart from the constraints, so a column that is missing in a list would be read as zero.
`projection_faithful` shows that no column is missing, whatever the thread evaluated before. After
`trace_columns` of `memory/block_event.rs` and `continuity.rs`, and `relation_trace_columns` of
`logs/packed_trace_relation.rs`.
-/

namespace Zksm83

open Constraint Zksm83.Uniform BlockMetadata BlockBoundary BlockFrontend BlockBus

/-! ## Column lists -/

/-- `sort_unstable` and then `dedup`. -/
def sortDedup (columns : List ℕ) : List ℕ := (columns.insertionSort (· ≤ ·)).dedup

@[simp] theorem mem_sortDedup {columns : List ℕ} {column : ℕ} :
    column ∈ sortDedup columns ↔ column ∈ columns := by
  rw [sortDedup, List.mem_dedup, List.mem_insertionSort]

theorem pairwise_sortDedup (columns : List ℕ) : (sortDedup columns).Pairwise (· < ·) := by
  have hsorted : (sortDedup columns).Pairwise (· ≤ ·) :=
    (List.pairwise_insertionSort (· ≤ ·) columns).sublist (List.dedup_sublist _)
  have hnodup : (sortDedup columns).Nodup := List.nodup_dedup _
  exact (hsorted.and hnodup).imp fun hle => lt_of_le_of_ne hle.1 hle.2

/-- The sorted list of distinct columns, which all have to be trace columns. -/
def listedColumns {ε : Type} (columns : List ℕ) (shape : ε) : Except ε (List ℕ) := do
  let columns := sortDedup columns
  rejectIf (∃ column ∈ columns, BlockCpu.columnCount ≤ column) shape
  return columns

theorem listedColumns_eq {ε : Type} {columns : List ℕ} {shape : ε}
    (hcolumns : ∀ column ∈ columns, column < BlockCpu.columnCount) :
    listedColumns columns shape = .ok (sortDedup columns) := by
  refine Except.check_eq_ok.mpr ⟨rejectIf_eq_ok.mpr fun hlisted => ?_, rfl⟩
  obtain ⟨column, hcolumn, houtside⟩ := hlisted
  exact Nat.not_lt.mpr houtside (hcolumns column (mem_sortDedup.mp hcolumn))

/-- A column of the memory plane of a slot. -/
def memoryColumnIndex (slot offset : ℕ) : ℕ :=
  BlockMemory.blockMemoryAuxStart + (BlockMemory.slotStart slot + offset)

/-- The columns of the row index. -/
def rowBitColumns : List ℕ :=
  (List.range uniformNumVariables).map (fun bit =>
    BlockMemory.blockMemoryAuxStart + BlockMemory.rowBitsStart + bit)

namespace MemoryArgument

def pushedColumns : List ℕ :=
  rowBitColumns ++ (List.range busSlots).flatMap (fun slot =>
    [memoryColumnIndex slot BlockMemory.slotSelectorOffset,
      memoryColumnIndex slot BlockMemory.slotWriteSelectorOffset] ++
    (List.range traceMemoryTimestampBits).map (fun bit =>
      memoryColumnIndex slot (BlockMemory.slotPredecessorBitsOffset + bit)) ++
    [busPhysicalOffset, busBeforeOffset, busValueOffset].map (fun offset =>
      packedBusColumn (slotStart slot + offset)))

def traceColumns : Except MutableMemoryError (List ℕ) := listedColumns pushedColumns .shape

def domain : List Byte := asciiBytes "zksm83/native-block-memory-event-inverses/v2"

def statementBytes (challenges : MemoryChallenges) : List Byte :=
  leBytes 16 challenges.alpha.val ++ leBytes 16 challenges.beta.val ++
    [BlockCpu.columnCount, busSlots, traceMemoryTimestampBits, 7].flatMap (leBytes 8)

end MemoryArgument

namespace Continuity

/-- The column of a state scalar before or after the block of a row. -/
def stateColumn (after : Bool) (scalar : ℕ) : ℕ :=
  BlockRouting.columnCount +
    if scalar < localStateScalarCount then
      localStateColumn (if after then basicBlockInstructionBound else 0) scalar
    else deviceStateColumn after scalar

def pushedColumns : List ℕ :=
  [blockActive, instructionBlock] ++
    (List.range basicBlockInstructionBound).map laneColumn ++ rowBitColumns ++
    [false, true].flatMap (fun after => (List.range stateScalarCount).map (stateColumn after))

def traceColumns : Except UniformError (List ℕ) := listedColumns pushedColumns .shape

def domain : List Byte := asciiBytes "zksm83/native-block-continuity-inverses/v2"

def statementBytes (challenges : ContinuityChallenges) : List Byte :=
  leBytes 16 challenges.stateMix.val ++ leBytes 16 challenges.inversePoint.val ++
    [BlockCpu.columnCount, stateScalarCount, uniformNumVariables, packedInverseColumnCount,
      7].flatMap (leBytes 8)

end Continuity

namespace Logs

/-- A column of the bus plane. -/
def packedBusTraceColumn (relative : ℕ) : ℕ := BlockIsaControl.columnCount + relative

/-- The column of a fixed-ISA output of a lane. -/
def laneIsaOutputColumn (lane output : ℕ) : ℕ :=
  BlockControl.columnCount + (BlockIsa.laneStart lane + isaAddressBitCount + output)

def pushedColumns : List ℕ :=
  rowBitColumns ++ (List.range basicBlockBusEventBound).flatMap (fun slot =>
    [packedBusTraceColumn (slotStart slot)] ++
    (List.range traceBusKindBits).map (fun bit =>
      packedBusTraceColumn (slotStart slot + 1 + bit)) ++
    [busAddressOffset, busPhysicalOffset, busBeforeOffset, busAuxiliaryOffset, busValueOffset,
      busIndexOffset].map (fun offset => packedBusTraceColumn (slotStart slot + offset))) ++
  (List.range basicBlockInstructionBound).flatMap (fun lane =>
    [laneColumn lane, laneIsaOutputColumn lane isaPackedLow,
      laneIsaOutputColumn lane isaPackedHigh])

def relationTraceColumns : Except ProtocolLogError (List ℕ) := listedColumns pushedColumns .shape

def domain : List Byte := asciiBytes "zksm83/native-block-protocol-log-trace-inverses/v2"

def statementBytes (challenges : LogChallenges NativeField) : List Byte :=
  ([LogKind.bus, .input, .output, .isa].map challenges.tupleMix ++
    [LogKind.bus, .input, .output, .isa].map challenges.inversePoint).flatMap
      (fun challenge => leBytes 16 challenge.val) ++
    [BlockCpu.columnCount, basicBlockBusEventBound, basicBlockInstructionBound,
      packedTraceInverseEntryCount, 6].flatMap (leBytes 8)

end Logs

/-! ## Faithful projections -/

/-- Membership alone decides which columns are listed. -/
theorem unlisted_sortDedup (traceColumnCount : ℕ) (columns : List ℕ) :
    unlisted traceColumnCount (sortDedup columns) = unlisted traceColumnCount columns := by
  funext column
  have helem : (sortDedup columns).elem column = columns.elem column := by
    rw [Bool.eq_iff_iff, List.elem_iff, List.elem_iff, mem_sortDedup]
  rw [unlisted, unlisted, helem]

abbrev traceUnlisted (columns : List ℕ) : ℕ → ℕ := unlisted BlockCpu.columnCount columns

/-- The run of the memory constraints over `Reads`, with the unlisted columns marked. -/
theorem MemoryArgument.evaluate_listed :
    ((evaluate ((0 : ℕ) : Reads) ((0 : ℕ) : Reads)
        (Reads.row (traceUnlisted pushedColumns))).length == busSlots * 2 &&
      Reads.within 0 (evaluate ((0 : ℕ) : Reads) ((0 : ℕ) : Reads)
        (Reads.row (traceUnlisted pushedColumns)))) = true := by
  decide +kernel

theorem Continuity.evaluate_listed :
    ((evaluate ((0 : ℕ) : Reads) ((0 : ℕ) : Reads)
        (Reads.row (traceUnlisted pushedColumns))).length == packedInverseColumnCount - 2 &&
      Reads.within 0 (evaluate ((0 : ℕ) : Reads) ((0 : ℕ) : Reads)
        (Reads.row (traceUnlisted pushedColumns)))) = true := by
  decide +kernel

theorem Logs.evaluate_listed :
    ((evaluate constantReads (Reads.row (traceUnlisted pushedColumns))).length ==
        packedTraceInverseEntryCount &&
      Reads.within 0
        (evaluate constantReads (Reads.row (traceUnlisted pushedColumns)))) = true := by
  decide +kernel

/-- No list leaves the trace. -/
theorem listed_fit :
    ((MemoryArgument.pushedColumns ++ Continuity.pushedColumns ++ Logs.pushedColumns).all
      (fun column => Nat.blt column BlockCpu.columnCount)) = true := by
  decide +kernel

/-- The three relations that are proved on projections. -/
inductive TraceArgument where
  | memoryEvent (challenges : MemoryArgument.MemoryChallenges)
  | continuity (challenges : Continuity.ContinuityChallenges)
  | packedTraceLog (challenges : Logs.LogChallenges NativeField)

namespace TraceArgument

def domain : TraceArgument → List Byte
  | memoryEvent _ => MemoryArgument.domain
  | continuity _ => Continuity.domain
  | packedTraceLog _ => Logs.domain

def statementBytes : TraceArgument → List Byte
  | memoryEvent challenges => MemoryArgument.statementBytes challenges
  | continuity challenges => Continuity.statementBytes challenges
  | packedTraceLog challenges => Logs.statementBytes challenges

def relation : TraceArgument → UniformRelation NativeField
  | memoryEvent challenges => MemoryArgument.blockMemoryEventRelation challenges
  | continuity challenges => Continuity.continuityRelation challenges
  | packedTraceLog challenges => Logs.packedTraceLogRelation challenges

def pushedColumns : TraceArgument → List ℕ
  | memoryEvent _ => MemoryArgument.pushedColumns
  | continuity _ => Continuity.pushedColumns
  | packedTraceLog _ => Logs.pushedColumns

def traceColumns : TraceArgument → Option (List ℕ)
  | memoryEvent _ => MemoryArgument.traceColumns.toOption
  | continuity _ => Continuity.traceColumns.toOption
  | packedTraceLog _ => Logs.relationTraceColumns.toOption

/-- The constraints of an argument, which read its listed columns and its inverse columns only. -/
theorem evaluates (argument : TraceArgument) : ∃ constraints count,
    Evaluates argument.relation constraints ∧
      Reading (unlisted BlockCpu.columnCount (sortDedup argument.pushedColumns)) 0 count
        constraints := by
  simp only [unlisted_sortDedup]
  cases argument with
  | memoryEvent challenges =>
    exact ⟨_, _, MemoryArgument.blockMemoryEventRelation_evaluates challenges,
      MemoryArgument.reading_of_fits _ _ MemoryArgument.evaluate_listed⟩
  | continuity challenges =>
    exact ⟨_, _, Continuity.continuityRelation_evaluates challenges,
      Continuity.reading_of_fits _ _ Continuity.evaluate_listed⟩
  | packedTraceLog challenges =>
    exact ⟨_, _, Logs.packedTraceLogRelation_evaluates challenges,
      Logs.reading_of_fits challenges Logs.evaluate_listed⟩

/-- All listed columns are trace columns. -/
theorem pushedColumns_lt (argument : TraceArgument) :
    ∀ column ∈ argument.pushedColumns, column < BlockCpu.columnCount := by
  intro column hcolumn
  refine Nat.blt_eq.mp (List.all_eq_true.mp listed_fit column ?_)
  cases argument with
  | memoryEvent => exact List.mem_append_left _ (List.mem_append_left _ hcolumn)
  | continuity => exact List.mem_append_left _ (List.mem_append_right _ hcolumn)
  | packedTraceLog => exact List.mem_append_right _ hcolumn

theorem traceColumns_eq (argument : TraceArgument) :
    argument.traceColumns = some (sortDedup argument.pushedColumns) := by
  cases argument with
  | memoryEvent challenges =>
    have hcolumns : ∀ column ∈ MemoryArgument.pushedColumns, column < BlockCpu.columnCount :=
      (memoryEvent challenges).pushedColumns_lt
    rw [traceColumns, MemoryArgument.traceColumns, listedColumns_eq hcolumns, pushedColumns]
    rfl
  | continuity challenges =>
    have hcolumns : ∀ column ∈ Continuity.pushedColumns, column < BlockCpu.columnCount :=
      (continuity challenges).pushedColumns_lt
    rw [traceColumns, Continuity.traceColumns, listedColumns_eq hcolumns, pushedColumns]
    rfl
  | packedTraceLog challenges =>
    have hcolumns : ∀ column ∈ Logs.pushedColumns, column < BlockCpu.columnCount :=
      (packedTraceLog challenges).pushedColumns_lt
    rw [traceColumns, Logs.relationTraceColumns, listedColumns_eq hcolumns, pushedColumns]
    rfl

/-- The relations have a name, a statement, columns, constraints and a degree. -/
theorem validateRelation_eq (argument : TraceArgument) :
    validateRelation argument.domain argument.statementBytes argument.relation = .ok () := by
  cases argument <;> rfl

theorem columnCount_lt (argument : TraceArgument) :
    BlockCpu.columnCount < argument.relation.columnCount := by
  cases argument <;> exact Nat.lt_add_of_pos_right (by decide)

/-- The projection of an argument is accepted. -/
theorem new_eq (argument : TraceArgument) :
    ProjectedRelation.new argument.domain argument.statementBytes argument.relation
        BlockCpu.columnCount (sortDedup argument.pushedColumns) =
      .ok ⟨argument.relation, BlockCpu.columnCount,
        argument.relation.columnCount - BlockCpu.columnCount,
        sortDedup argument.pushedColumns⟩ := by
  have hnonempty : sortDedup argument.pushedColumns ≠ [] := by
    have hbit : BlockMemory.blockMemoryAuxStart ∈ rowBitColumns :=
      List.mem_map.mpr ⟨0, List.mem_range.mpr (by decide), rfl⟩
    have hmem : BlockMemory.blockMemoryAuxStart ∈ argument.pushedColumns := by
      cases argument with
      | memoryEvent => exact List.mem_append_left _ hbit
      | continuity => exact List.mem_append_left _ (List.mem_append_right _ hbit)
      | packedTraceLog => exact List.mem_append_left _ (List.mem_append_left _ hbit)
    exact List.ne_nil_of_mem (mem_sortDedup.mpr hmem)
  exact ProjectedRelation.new_eq argument.validateRelation_eq (by decide) argument.columnCount_lt
    hnonempty
    (fun column hcolumn => argument.pushedColumns_lt column (mem_sortDedup.mp hcolumn))
    (pairwise_sortDedup _)

/-- The projection of an argument has the constraints of the full row, whatever the thread evaluated
before, and they do not depend on the trace columns that are not listed. -/
theorem projection_faithful (argument : TraceArgument)
    (history : List (ProjectedEvaluation NativeField)) (row buffer : List NativeField)
    (hrow : row.length = argument.relation.columnCount) :
    ∃ traceColumns projected, argument.traceColumns = some traceColumns ∧
      ProjectedRelation.new argument.domain argument.statementBytes argument.relation
        BlockCpu.columnCount traceColumns = .ok projected ∧
      (projected.evaluate (scratchAfter history) (compactRow BlockCpu.columnCount traceColumns row)
        buffer).1 = argument.relation.evaluate row buffer ∧
      ∀ row' : List NativeField, row'.length = row.length →
        (∀ column, BlockCpu.columnCount ≤ column ∨ column ∈ traceColumns →
          row'[column]? = row[column]?) →
        argument.relation.evaluate row' buffer = argument.relation.evaluate row buffer := by
  obtain ⟨constraints, count, hevaluates, hreading⟩ := argument.evaluates
  refine ⟨_, _, argument.traceColumns_eq, argument.new_eq, ?_, fun row' hlength hagree => ?_⟩
  · exact ProjectedRelation.projected_eq hevaluates hreading argument.columnCount_lt.le
      (fun column hcolumn => argument.pushedColumns_lt column (mem_sortDedup.mp hcolumn)) history
      row buffer hrow
  · rw [hevaluates.evaluate_eq, hevaluates.evaluate_eq, hlength,
      hreading.congr (listRow row') (listRow row) fun column hcolumn => ?_]
    have hread : BlockCpu.columnCount ≤ column ∨ column ∈ sortDedup argument.pushedColumns := by
      by_cases hlt : column < BlockCpu.columnCount
      · exact .inr (unlisted_eq_zero hcolumn hlt)
      · exact .inl (Nat.le_of_not_lt hlt)
    simp only [listRow, List.getD_eq_getElem?_getD, hagree column hread]

/-- A row of ones, after an evaluation of another relation that fails. -/
theorem projection_faithful_ones :
    let argument := memoryEvent ⟨2, 3⟩
    let failed : ProjectedEvaluation NativeField :=
      ⟨⟨Continuity.continuityRelation ⟨5, 7⟩, BlockCpu.columnCount, 5, [0, 1]⟩, [1], []⟩
    let row := List.replicate argument.relation.columnCount (1 : NativeField)
    let buffer := List.replicate argument.relation.constraintCount (0 : NativeField)
    ∃ traceColumns projected, argument.traceColumns = some traceColumns ∧
      ProjectedRelation.new argument.domain argument.statementBytes argument.relation
        BlockCpu.columnCount traceColumns = .ok projected ∧
      (projected.evaluate (scratchAfter [failed])
        (compactRow BlockCpu.columnCount traceColumns row) buffer).1 =
          argument.relation.evaluate row buffer := by
  intro argument failed row buffer
  obtain ⟨traceColumns, projected, hcolumns, hnew, hequal, -⟩ :=
    projection_faithful argument [failed] row buffer List.length_replicate
  exact ⟨traceColumns, projected, hcolumns, hnew, hequal⟩

end TraceArgument

end Zksm83
