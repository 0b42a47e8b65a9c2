import Zksm83.Argument.ContinuityChain
import Zksm83.Library.OfflineMemory

/-!
# The offline memory argument

Every memory event of a trace consumes the token that its address had and produces the next one. The
tokens are compressed with two challenges and inverted, and the inverse columns of the trace, of the
initial and of the final memory are compared at the point whose coordinates are all one half. After
`memory/block_event.rs`, `memory/boundary.rs` and `memory/sum.rs`.
-/

namespace Zksm83

open Constraint BlockFrontend BlockBus

namespace MemoryArgument

open Continuity

abbrev memoryTableNumVariables : ℕ := traceMemoryTimestampBits
abbrev memoryImageBytes : ℕ := 2 ^ memoryTableNumVariables
abbrev busSlots : ℕ := basicBlockBusEventBound
abbrev inverseEntryCount : ℕ := busSlots * 2

instance neZeroInverseEntryCount : NeZero inverseEntryCount := ⟨by decide⟩
abbrev inverseColumnCount : ℕ := busSlots * 4

inductive MutableMemoryError where
  | shape
  | zeroDenominator
  | unsatisfied
  deriving DecidableEq, Repr

structure MemoryChallenges where
  alpha : NativeField
  beta : NativeField

section Relation

variable {R : Type*} [Add R] [Sub R] [Mul R] [NatCast R]

/-- The token that a slot consumes: its address, the value it finds, and the time of that value. A
write finds the byte before, a read the byte that it returns. -/
def slotConsumed (row : Row R) (slot : ℕ) : R × R × R :=
  let bus := busPlane row
  let selected := BlockMemory.memorySelectorValue row slot
  let write := BlockMemory.memoryWriteSelectorValue row slot
  (slotPhysicalAddressValue bus slot,
    write * slotBeforeValue bus slot + (selected - write) * slotValueValue bus slot,
    BlockMemory.memoryPredecessorValue row slot)

/-- The token that a slot produces at its own time. -/
def slotProduced (row : Row R) (slot : ℕ) : R × R × R :=
  let bus := busPlane row
  (slotPhysicalAddressValue bus slot, slotValueValue bus slot,
    BlockMemory.currentTimestamp (BlockMemory.memoryRowIndexValue row) slot)

/-- A token under the first challenge. -/
def compress (alpha : R) (token : R × R × R) : R :=
  token.1 + alpha * token.2.1 + alpha * alpha * token.2.2

/-- An inverse of a row, from its two limbs. -/
def inverseValue (row : Row R) (lowColumn : ℕ) : R :=
  joinLimbs (row (BlockCpu.columnCount + lowColumn))
    (row (BlockCpu.columnCount + lowColumn + busSlots))

/-- The constraints of `BlockMemoryEventRelation` on a trace row followed by its inverse columns. -/
def evaluate (alpha beta : R) (row : Row R) : List R :=
  (List.range busSlots).map (fun slot =>
    (beta - compress alpha (slotConsumed row slot)) * inverseValue row slot -
      BlockMemory.memorySelectorValue row slot) ++
  (List.range busSlots).map (fun slot =>
    (beta - compress alpha (slotProduced row slot)) * inverseValue row (busSlots * 2 + slot) -
      BlockMemory.memorySelectorValue row slot)

end Relation

section Prover

variable (trace : TraceColumns) (challenges : MemoryChallenges)

/-- A 64-bit result that rejects an overflow. -/
def checked (value : ℕ) : Except MutableMemoryError ℕ :=
  if value < 2 ^ 64 then .ok value else .error .shape

/-- Columns of a row that are read into a 64-bit number, the lowest bit first. -/
def packedTraceBits (start width row : ℕ) : ℕ :=
  (List.range width).foldl (fun packed bit => packed ||| trace (start + bit) row <<< bit % 2 ^ 64) 0

/-- A column of the bus plane. -/
def packedBusColumn (relative : ℕ) : ℕ := BlockIsaControl.columnCount + relative

/-- A column of the memory plane. -/
def packedMemoryColumn (relative : ℕ) : ℕ := BlockMemory.blockMemoryAuxStart + relative

/-- The value that a slot of an honest prover finds. -/
def inputValue (selected write before after : ℕ) : Except MutableMemoryError ℕ := do
  let written ← checked (write * before)
  if write ≤ selected then
    let read ← checked ((selected - write) * after)
    checked (written + read)
  else .error .shape

/-- The two inverse requests of a slot: for the token that it consumes and the one it produces. -/
def slotRequests (row slot : ℕ) :
    Except MutableMemoryError (SelectedDenominator NativeField × SelectedDenominator NativeField) :=
  do
  let start := BlockMemory.slotStart slot
  let selected := trace (packedMemoryColumn (start + BlockMemory.slotSelectorOffset)) row
  let write := trace (packedMemoryColumn (start + BlockMemory.slotWriteSelectorOffset)) row
  let address := trace (packedBusColumn (slotStart slot + busPhysicalOffset)) row
  let before := trace (packedBusColumn (slotStart slot + busBeforeOffset)) row
  let after := trace (packedBusColumn (slotStart slot + busValueOffset)) row
  let predecessor := packedTraceBits trace
    (packedMemoryColumn (start + BlockMemory.slotPredecessorBitsOffset)) traceMemoryTimestampBits row
  let rowIndex := packedTraceBits trace (packedMemoryColumn BlockMemory.rowBitsStart)
    uniformNumVariables row
  let scaled ← checked (rowIndex * busSlots)
  let current ← checked (scaled + (slot + 1))
  let found ← inputValue selected write before after
  let scale : NativeField := ((selected : ℕ) : NativeField)
  pure (⟨scale, challenges.beta - compress challenges.alpha (((address : ℕ) : NativeField),
      ((found : ℕ) : NativeField), ((predecessor : ℕ) : NativeField))⟩,
    ⟨scale, challenges.beta - compress challenges.alpha (((address : ℕ) : NativeField),
      ((after : ℕ) : NativeField), ((current : ℕ) : NativeField))⟩)

/-- The requests of a row: those of the consumed tokens, then those of the produced ones. -/
def inverseRow (row : ℕ) :
    Except MutableMemoryError ((Fin inverseEntryCount → SelectedDenominator NativeField) × Unit) :=
  do
  let slots ← (List.range busSlots).mapM (slotRequests trace challenges row)
  pure (fun entry =>
    if (entry : ℕ) < busSlots then ((slots.map Prod.fst).getD entry ⟨0, 0⟩)
    else ((slots.map Prod.snd).getD (entry - busSlots) ⟨0, 0⟩), ())

/-- The limbs of the inverses of a row: low and high limbs of the first five inverses, then of the
others. -/
def inverseLimbRow (inverses : Fin inverseEntryCount → SelectedDenominator NativeField) (_ : Unit) :
    Except MutableMemoryError (Fin inverseColumnCount → ℕ) :=
  let limbs := fun entry : ℕ => splitField (inverses (Fin.ofNat _ entry)).denominator
  .ok (fun column =>
    if (column : ℕ) < busSlots then (limbs column).1
    else if (column : ℕ) < busSlots * 2 then (limbs (column - busSlots)).2
    else if (column : ℕ) < busSlots * 3 then (limbs (column - busSlots)).1
    else (limbs (column - busSlots * 2)).2)

def mapBatchError : FieldBatchError → MutableMemoryError
  | .shape => .shape
  | .zeroDenominator => .zeroDenominator

/-- The inverse columns of the trace. -/
def inverseColumns : Except MutableMemoryError (Fin inverseColumnCount → List ℕ) :=
  FieldBatch.selectedInverseColumns FieldBatch.fieldBatchRowChunk uniformRowCount
    (inverseRow trace challenges) inverseLimbRow mapBatchError

end Prover

/-- A table of the memory image. -/
abbrev MemoryTable : Type := Fin memoryImageBytes → ℕ

namespace Boundary

/-- The committed tables of a proof. -/
structure Tables where
  initial : MemoryTable
  final : MemoryTable
  timestamps : MemoryTable

variable (tables : Tables) (challenges : MemoryChallenges)

/-- The compressed token of an initial cell. -/
def initialToken (address : Fin memoryImageBytes) : NativeField :=
  (((address : ℕ) : ℕ) : NativeField) +
    challenges.alpha * ((tables.initial address : ℕ) : NativeField)

/-- The compressed token of a final cell. -/
def finalToken (address : Fin memoryImageBytes) : NativeField :=
  (((address : ℕ) : ℕ) : NativeField) +
    challenges.alpha * ((tables.final address : ℕ) : NativeField) +
    challenges.alpha * challenges.alpha * ((tables.timestamps address : ℕ) : NativeField)

/-- The requests of an address. -/
def requests (address : ℕ) :
    Except MutableMemoryError ((Fin 2 → SelectedDenominator NativeField) × Unit) :=
  if h : address < memoryImageBytes then
    .ok (![⟨1, challenges.beta - initialToken tables challenges ⟨address, h⟩⟩,
      ⟨1, challenges.beta - finalToken tables challenges ⟨address, h⟩⟩], ())
  else .error .shape

/-- The limbs of the two inverses of an address. -/
def limbRow (inverses : Fin 2 → SelectedDenominator NativeField) (_ : Unit) :
    Except MutableMemoryError (Fin 4 → ℕ) :=
  let initial := splitField (inverses 0).denominator
  let final := splitField (inverses 1).denominator
  .ok ![initial.1, initial.2, final.1, final.2]

/-- The inverse columns of the initial and of the final memory. -/
def inverseColumns : Except MutableMemoryError ((Fin 2 → List ℕ) × (Fin 2 → List ℕ)) := do
  let columns ← FieldBatch.selectedInverseColumns FieldBatch.fieldBatchRowChunk memoryImageBytes
    (requests tables challenges) limbRow mapBatchError
  pure (![columns 0, columns 1], ![columns 2, columns 3])

/-- The four products whose weighted sum over all addresses the boundary sumcheck claims to be
zero. -/
def relationTerms (mix weight : NativeField) (address : Fin memoryImageBytes)
    (initialInverse finalInverse : NativeField) : List (NativeField × NativeField × NativeField) :=
  [(weight, challenges.beta - initialToken tables challenges address, initialInverse),
    (weight, -1, 1),
    (weight, mix * challenges.beta - mix * finalToken tables challenges address, finalInverse),
    (weight, -mix, 1)]

end Boundary

section Sum

/-- A committed column at the point whose coordinates are all one half. -/
def evaluateFieldColumn (count : ℕ) (values : List NativeField) :
    Except MutableMemoryError NativeField :=
  (FieldFold.evaluateMle values (List.replicate count ((2 : ℕ) : NativeField)⁻¹)).mapError
    (fun _ => .shape)

/-- The evaluation of a trace inverse, from its two limbs. -/
def joinedTrace (values : List NativeField) (low : ℕ) : Except MutableMemoryError NativeField :=
  match values[low]?, values[low + busSlots]? with
  | some lowValue, some highValue => .ok (joinLimbs lowValue highValue)
  | _, _ => .error .shape

/-- The equation between the evaluated inverse columns. -/
def checkEquality (trace initial final : List NativeField) : Except MutableMemoryError Unit :=
  if trace.length ≠ inverseColumnCount ∨ initial.length ≠ 2 ∨ final.length ≠ 2 then .error .shape
  else do
    let traceDelta ← (List.range busSlots).foldlM (fun sum slot => do
      let input ← joinedTrace trace slot
      let output ← joinedTrace trace (busSlots * 2 + slot)
      pure (sum + output - input)) 0
    let initial := joinLimbs (initial.getD 0 0) (initial.getD 1 0)
    let final := joinLimbs (final.getD 0 0) (final.getD 1 0)
    let memoryRows : NativeField := ((memoryImageBytes : ℕ) : NativeField)
    let traceRows : NativeField := ((uniformRowCount : ℕ) : NativeField)
    if memoryRows * (initial - final) + traceRows * traceDelta ≠ 0 then .error .unsatisfied
    else .ok ()

/-- Evaluation of all inverse columns at one half, followed by the check. -/
def evaluateAndCheck (trace initial final : List (List NativeField)) :
    Except MutableMemoryError Unit := do
  let traceValues ← trace.mapM (evaluateFieldColumn uniformNumVariables)
  let initialValues ← initial.mapM (evaluateFieldColumn memoryTableNumVariables)
  let finalValues ← final.mapM (evaluateFieldColumn memoryTableNumVariables)
  checkEquality traceValues initialValues finalValues

end Sum

end MemoryArgument

end Zksm83
