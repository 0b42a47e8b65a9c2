import Zksm83.Argument.ContinuityChain

/-!
# Protocol logs of packed blocks

The bus events, the input and output bytes and the instructions of a trace are listed in four
tables. An entry of the trace is a selected tuple of a bus slot or of a lane; an entry of a table is
a selected row. Bus and instruction entries carry the position of their slot or lane, input and
output entries the index of their byte. After `logs.rs`, `logs/packed.rs`,
`logs/packed_trace_relation.rs`, and the selector constraints of `logs/table_relation.rs`.
-/

namespace Zksm83

open Constraint BlockMetadata BlockFrontend BlockBus BlockIsa

abbrev isaPackedLow : ℕ := 1
abbrev isaPackedHigh : ℕ := 2

namespace Logs

open Continuity

abbrev protocolLogNumVariables : ℕ := 17
abbrev protocolLogRowCount : ℕ := 2 ^ protocolLogNumVariables

inductive LogKind where
  | bus | input | output | isa
  deriving DecidableEq, Repr

namespace LogKind

/-- The selector column of a table. -/
def start : LogKind → ℕ
  | bus => 0
  | input => 9
  | output => 12
  | isa => 15

/-- The columns of a table, the selector included. -/
def width : LogKind → ℕ
  | bus => 9
  | input | output => 3
  | isa => 4

/-- The places of a row that may carry an entry: bus slots, or lanes. -/
def places : LogKind → ℕ
  | bus | input | output => basicBlockBusEventBound
  | isa => basicBlockInstructionBound

end LogKind

section Entries

variable {R : Type*} [Add R] [Sub R] [Mul R] [NatCast R]

/-- The position of a bus slot or a lane of a row. -/
def entryPosition (row : Row R) (kind : LogKind) (place : ℕ) : R :=
  BlockMemory.memoryRowIndexValue row * ((kind.places : ℕ) : R) + ((place : ℕ) : R)

/-- Whether a place of a row carries an entry of a table. -/
def entrySelector (row : Row R) (kind : LogKind) (place : ℕ) : R :=
  match kind with
  | .bus => slotActiveValue (busPlane row) place
  | .input => slotKindSelector (busPlane row) place 6 + slotKindSelector (busPlane row) place 13
  | .output => slotKindSelector (busPlane row) place 7
  | .isa => laneValue row place

/-- The byte of an input event: the value of an input port, the buttons of a joypad read. -/
def inputValue (row : Row R) (slot : ℕ) : R :=
  slotKindSelector (busPlane row) slot 6 * slotValueValue (busPlane row) slot +
    slotKindSelector (busPlane row) slot 13 * slotAuxiliaryValue (busPlane row) slot

/-- The tuple of a place of a row. -/
def entryValues (row : Row R) (kind : LogKind) (place : ℕ) : List R :=
  let bus := busPlane row
  match kind with
  | .bus => [entryPosition row .bus place, packed (slotKindBits bus place),
      slotAddressValue bus place, slotPhysicalAddressValue bus place, slotBeforeValue bus place,
      slotAuxiliaryValue bus place, slotValueValue bus place, slotIndexValue bus place]
  | .input => [slotIndexValue bus place, inputValue row place]
  | .output => [slotIndexValue bus place, slotValueValue bus place]
  | .isa => [entryPosition row .isa place, laneOutputValue (isaPlane row) place isaPackedLow,
      laneOutputValue (isaPlane row) place isaPackedHigh]

/-- A table row is selected or not, and the data of a row that is not selected is zero. -/
def constrainLogRow (row : Row R) (kind : LogKind) : List R :=
  let one : R := ((1 : ℕ) : R)
  let selector := row kind.start
  selector * (selector - one) :: (List.range (kind.width - 1)).map (fun offset =>
    row (kind.start + 1 + offset) * (one - selector))

/-- The tuple of a table row. -/
def rowValues (row : Row R) (kind : LogKind) : List R :=
  (List.range (kind.width - 1)).map (fun offset => row (kind.start + 1 + offset))

end Entries

/-- The four committed tables, side by side. -/
abbrev LogTable : Type := Fin protocolLogRowCount → Row NativeField

/-- A place of a trace: the position of its row, and the bus slot or lane. -/
abbrev Place : Type := Fin uniformRowCount × ℕ

section Selection

variable {α : Type*} [Fintype α] (places : ℕ) (selected : α → ℕ → Prop)

open Classical in
/-- The selected pairs of a row and one of its first `places` places. -/
@[irreducible]
noncomputable def selectedPairs : Finset (α × ℕ) :=
  (Finset.univ ×ˢ Finset.range places).filter (fun pair => selected pair.1 pair.2)

theorem mem_selectedPairs {pair : α × ℕ} :
    pair ∈ selectedPairs places selected ↔ pair.2 < places ∧ selected pair.1 pair.2 := by
  simp [selectedPairs]

theorem card_selectedPairs_le :
    (selectedPairs places selected).card ≤ Fintype.card α * places := by
  classical
  rw [selectedPairs]
  refine (Finset.card_filter_le _ _).trans ?_
  rw [Finset.card_product, Finset.card_univ, Finset.card_range]

end Selection

/-- The places of a trace that carry an entry. -/
noncomputable def selectedPlaces (table : Table) (kind : LogKind) : Finset Place :=
  selectedPairs kind.places (fun position place => entrySelector (table position) kind place = 1)

theorem mem_selectedPlaces {table : Table} {kind : LogKind} {place : Place} :
    place ∈ selectedPlaces table kind ↔
      place.2 < kind.places ∧ entrySelector (table place.1) kind place.2 = 1 :=
  mem_selectedPairs _ _

theorem card_selectedPlaces_le (table : Table) (kind : LogKind) :
    (selectedPlaces table kind).card ≤ uniformRowCount * 5 := by
  refine (card_selectedPairs_le _ _).trans ?_
  rw [Fintype.card_fin]
  refine Nat.mul_le_mul_left _ ?_
  cases kind <;> decide

/-- The tuple of a place of a trace. -/
def placeValues (table : Table) (kind : LogKind) (place : Place) : List NativeField :=
  entryValues (table place.1) kind place.2

/-- The entries of a trace. -/
noncomputable def traceEntries (table : Table) (kind : LogKind) : Multiset (List NativeField) :=
  (selectedPlaces table kind).val.map (placeValues table kind)

/-- The selected rows of a table. -/
noncomputable def selectedRows (logs : LogTable) (kind : LogKind) :
    Finset (Fin protocolLogRowCount) :=
  Finset.univ.filter (fun row => logs row kind.start = 1)

/-- The entries of a table. -/
noncomputable def tableEntries (logs : LogTable) (kind : LogKind) : Multiset (List NativeField) :=
  (selectedRows logs kind).val.map (fun row => rowValues (logs row) kind)

inductive ProtocolLogError where
  | shape
  | capacity
  deriving DecidableEq, Repr

/-- The public counts of bus events and instructions. -/
structure PackedProtocolLogClaim where
  busEventCount : UInt64
  instructionCount : UInt64

/-- The growth of a cursor between two public states. -/
def scalarDelta (before after : NativeStateBoundary) (index : ℕ) : Except ProtocolLogError ℕ :=
  if h : index < stateScalarCount then
    if (before.scalars ⟨index, h⟩).toNat ≤ (after.scalars ⟨index, h⟩).toNat then
      .ok ((after.scalars ⟨index, h⟩).toNat - (before.scalars ⟨index, h⟩).toNat)
    else .error .shape
  else .error .shape

namespace PackedProtocolLogClaim

/-- The bounds that a claim of counts has to meet. -/
def validate (claim : PackedProtocolLogClaim) (execution : NativeExecutionClaim) :
    Except ProtocolLogError Unit := do
  (Continuity.validate execution).mapError (fun _ => .shape)
  let blockCount := execution.activeRowCount.toNat
  if blockCount * basicBlockBusEventBound < claim.busEventCount.toNat ∨
      blockCount * 4 < claim.instructionCount.toNat then .error .shape
  else
    let input ← scalarDelta execution.initialState execution.finalState stateInputNext
    let output ← scalarDelta execution.initialState execution.finalState stateOutputNext
    let busCursor ← scalarDelta execution.initialState execution.finalState stateBusNext
    let isaCursor ← scalarDelta execution.initialState execution.finalState stateIsaNext
    if 2 ^ 64 ≤ input + output ∨ claim.busEventCount.toNat < input + output ∨ busCursor ≠ 0 ∨
        isaCursor ≠ 0 then .error .shape
    else .ok ()

/-- The claimed number of entries of each table. -/
def counts (claim : PackedProtocolLogClaim) (execution : NativeExecutionClaim) :
    Except ProtocolLogError (LogKind → ℕ) := do
  claim.validate execution
  let input ← scalarDelta execution.initialState execution.finalState stateInputNext
  let output ← scalarDelta execution.initialState execution.finalState stateOutputNext
  .ok (fun kind => match kind with
    | .bus => claim.busEventCount.toNat
    | .input => input
    | .output => output
    | .isa => claim.instructionCount.toNat)

end PackedProtocolLogClaim

/-- The columns of an honest prover with its counts. -/
structure BlockCpuWitness where
  columns : TraceColumns
  activeBlockCount : ℕ
  busEventCount : ℕ
  instructionCount : ℕ

/-- The claim of an honest prover: its counts, checked against the execution. -/
def PackedProtocolLogClaim.fromTrace (witness : BlockCpuWitness) (execution : NativeExecutionClaim) :
    Except ProtocolLogError PackedProtocolLogClaim :=
  if execution.activeRowCount.toNat ≠ witness.activeBlockCount ∨
      2 ^ 64 ≤ witness.busEventCount ∨ 2 ^ 64 ≤ witness.instructionCount then .error .shape
  else do
    let claim : PackedProtocolLogClaim :=
      ⟨.ofNat witness.busEventCount, .ofNat witness.instructionCount⟩
    claim.validate execution
    .ok claim

/-- The entries of the four tables, as numbers. -/
abbrev LogEntries : Type := LogKind → List (List ℕ)

section Columns

variable {R : Type*} [NatCast R]

/-- A table cell: the selector, then the tuple; rows past the entries are zero. -/
def tableCell (entries : List (List R)) (row offset : ℕ) : R :=
  match entries[row]? with
  | some entry => if offset = 0 then ((1 : ℕ) : R) else entry.getD (offset - 1) ((0 : ℕ) : R)
  | none => ((0 : ℕ) : R)

/-- A row of the four tables side by side. -/
def tableColumns (entries : LogKind → List (List R)) (row column : ℕ) : R :=
  if column < LogKind.start .input then tableCell (entries .bus) row column
  else if column < LogKind.start .output then
    tableCell (entries .input) row (column - LogKind.start .input)
  else if column < LogKind.start .isa then
    tableCell (entries .output) row (column - LogKind.start .output)
  else tableCell (entries .isa) row (column - LogKind.start .isa)

end Columns

namespace BlockCpuWitness

variable (witness : BlockCpuWitness)

/-- A bus column of a row. -/
def packedBusValue (relative row : ℕ) : ℕ := witness.columns (BlockIsaControl.columnCount + relative) row

/-- The kind of a slot from its kind bits. -/
def packedBusKind (slot row : ℕ) : ℕ :=
  (List.range traceBusKindBits).foldl
    (fun kind bit => kind ||| witness.packedBusValue (slotStart slot + 1 + bit) row <<< bit) 0

/-- A field of a slot's tuple. -/
def packedBusField (slot row offset : ℕ) : ℕ := witness.packedBusValue (slotStart slot + offset) row

def packedBusEntry (row slot : ℕ) : List ℕ :=
  [row * basicBlockBusEventBound + slot, witness.packedBusKind slot row,
    witness.packedBusField slot row busAddressOffset,
    witness.packedBusField slot row busPhysicalOffset,
    witness.packedBusField slot row busBeforeOffset,
    witness.packedBusField slot row busAuxiliaryOffset,
    witness.packedBusField slot row busValueOffset,
    witness.packedBusField slot row busIndexOffset]

def packedIsaEntry (row lane : ℕ) : List ℕ :=
  let output := fun index =>
    witness.columns (BlockControl.columnCount + (laneStart lane + isaAddressBitCount + index)) row
  [row * basicBlockInstructionBound + lane, output isaPackedLow, output isaPackedHigh]

/-- The entries of one row of a table, in the order of its places. -/
def rowEntries (row : ℕ) : LogKind → List (List ℕ)
  | .bus => ((List.range basicBlockBusEventBound).filter (fun slot =>
      witness.packedBusValue (slotStart slot) row ≠ 0)).map (witness.packedBusEntry row)
  | .input => ((List.range basicBlockBusEventBound).filter (fun slot =>
      witness.packedBusValue (slotStart slot) row ≠ 0 ∧
        (witness.packedBusKind slot row = 6 ∨ witness.packedBusKind slot row = 13))).map
      (fun slot => [witness.packedBusField slot row busIndexOffset,
        witness.packedBusField slot row (if witness.packedBusKind slot row = 13
          then busAuxiliaryOffset else busValueOffset)])
  | .output => ((List.range basicBlockBusEventBound).filter (fun slot =>
      witness.packedBusValue (slotStart slot) row ≠ 0 ∧ witness.packedBusKind slot row = 7)).map
      (fun slot => [witness.packedBusField slot row busIndexOffset,
        witness.packedBusField slot row busValueOffset])
  | .isa => ((List.range basicBlockInstructionBound).filter (fun lane =>
      witness.columns (laneColumn lane) row ≠ 0)).map (witness.packedIsaEntry row)

/-- The entries of the active rows; the counts of the witness have to agree with them. -/
def extractEntries : Except ProtocolLogError LogEntries :=
  let entries : LogEntries := fun kind =>
    (List.range witness.activeBlockCount).flatMap (fun row => witness.rowEntries row kind)
  if (entries .bus).length ≠ witness.busEventCount ∨
      (entries .isa).length ≠ witness.instructionCount then .error .shape
  else .ok entries

/-- The columns of the four tables. -/
def logColumns : Except ProtocolLogError (Fin protocolLogRowCount → ℕ → ℕ) := do
  let entries ← witness.extractEntries
  if protocolLogRowCount < (entries .bus).length ∨ protocolLogRowCount < (entries .input).length ∨
      protocolLogRowCount < (entries .output).length ∨
      protocolLogRowCount < (entries .isa).length then .error .capacity
  else .ok (fun row column => tableColumns entries row column)

end BlockCpuWitness

/-- The tables that an honest prover commits to. -/
def logTableOf (columns : Fin protocolLogRowCount → ℕ → ℕ) : LogTable :=
  fun row column => ((columns row column : ℕ) : NativeField)

end Logs

end Zksm83
