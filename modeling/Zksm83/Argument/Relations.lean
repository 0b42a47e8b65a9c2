import Zksm83.Argument.Logs
import Zksm83.Argument.MemoryEvents
import Zksm83.Cpu.BlockRelation

/-!
# The relations of the trace arguments

The memory, the continuity and the log argument each have a relation on a row of the trace followed
by inverse columns. It writes its constraints at given places of its buffer, and these are all
places. After the `UniformRelation` instances of `memory/block_event.rs`, `continuity.rs` and
`logs/packed_trace_relation.rs`.
-/

namespace Zksm83

open Constraint Zksm83.Uniform Continuity

namespace Logs

abbrev packedTraceInverseEntryCount : ℕ := basicBlockBusEventBound * 3 + basicBlockInstructionBound
abbrev packedTraceInverseColumnCount : ℕ := packedTraceInverseEntryCount * 2

/-- The mixing challenge and the inverse point of every table. -/
structure LogChallenges (R : Type*) where
  tupleMix : LogKind → R
  inversePoint : LogKind → R

/-- The first inverse of a table. -/
def LogKind.entryStart : LogKind → ℕ
  | .bus => 0
  | .input => 5
  | .output => 10
  | .isa => 15

section Relation

variable {R : Type*} [Add R] [Sub R] [Mul R] [NatCast R]

/-- A tuple under the mixing challenge of its table. -/
def compress (values : List R) (mix : R) : R :=
  (values.foldl (fun (state : R × R) value => (state.1 + state.2 * value, state.2 * mix))
    (((0 : ℕ) : R), ((1 : ℕ) : R))).1

/-- An inverse of a row, from its two limbs. -/
def inverseAt (row : Row R) (entry : ℕ) : R :=
  joinLimbs (row (BlockCpu.columnCount + entry * 2)) (row (BlockCpu.columnCount + entry * 2 + 1))

/-- The constraint of an entry of a table. -/
def constrainEntry (challenges : LogChallenges R) (row : Row R) (kind : LogKind) (place : ℕ) : R :=
  (challenges.inversePoint kind -
      compress (entryValues row kind place) (challenges.tupleMix kind)) *
    inverseAt row (kind.entryStart + place) - entrySelector row kind place

/-- The constraints of `PackedTraceLogRelation`, in the order of the inverses. -/
def evaluate (challenges : LogChallenges R) (row : Row R) : List R :=
  [LogKind.bus, .input, .output, .isa].flatMap (fun kind =>
    (List.range kind.places).map (constrainEntry challenges row kind))

end Relation

end Logs

section Map

variable {R S : Type*} [Add R] [Sub R] [Mul R] [NatCast R] [Add S] [Sub S] [Mul S] [NatCast S]
  (φ : ArithHom R S)

@[simp] theorem Continuity.map_joinLimbs (low high : R) :
    φ (joinLimbs low high) = joinLimbs (φ low) (φ high) := by
  simp only [joinLimbs, φ.map_add, φ.map_mul, φ.map_natCast]

@[simp] theorem MemoryArgument.map_inverseValue (row : Row R) (lowColumn : ℕ) :
    φ (inverseValue row lowColumn) = inverseValue (φ.row row) lowColumn := by
  simp [inverseValue]

theorem MemoryArgument.map_evaluate (alpha beta : R) (row : Row R) :
    (evaluate alpha beta row).map φ = evaluate (φ alpha) (φ beta) (φ.row row) := by
  simp [evaluate, compress, slotConsumed, slotProduced, inverseValue, Function.comp_def]

@[simp] theorem Continuity.map_stateMixPower (mix : R) (scalar : ℕ) :
    φ (stateMixPower mix scalar) = stateMixPower (φ mix) scalar := by
  induction scalar with
  | zero => simp [stateMixPower]
  | succ scalar ih => simp [stateMixPower, ih]

@[simp] theorem Continuity.map_rowState (row : Row R) (after : Bool) (scalar : ℕ) :
    φ (rowState row after scalar) = rowState (φ.row row) after scalar := by
  unfold rowState
  split <;> rfl

@[simp] theorem Continuity.map_stateTokenFromLayoutRow (row : Row R) (after : Bool) (tag mix : R) :
    φ (stateTokenFromLayoutRow row after tag mix) =
      stateTokenFromLayoutRow (φ.row row) after (φ tag) (φ mix) := by
  unfold stateTokenFromLayoutRow
  rw [ArithHom.map_foldl _ (fun token scalar => token + stateMixPower (φ mix) scalar *
    rowState (φ.row row) after scalar) φ id (fun _ _ => by simp), List.map_id]

@[simp] theorem Continuity.map_transitionValue (row : Row R) :
    φ (transitionValue row) = transitionValue (φ.row row) := by
  unfold transitionValue
  rw [ArithHom.map_foldl _ (fun expected lane => expected +
    BlockMetadata.laneValue (φ.row row) lane) φ id (fun _ _ => by simp), List.map_id]
  simp

theorem Continuity.map_evaluate (stateMix inversePoint : R) (row : Row R) :
    (evaluate stateMix inversePoint row).map φ =
      evaluate (φ stateMix) (φ inversePoint) (φ.row row) := by
  simp [evaluate, inverseFromRow]

namespace Logs

@[simp] theorem map_compress (values : List R) (mix : R) :
    φ (compress values mix) = compress (values.map φ) (φ mix) := by
  unfold compress
  have hfold := ArithHom.map_foldl
    (fun (state : R × R) value => (state.1 + state.2 * value, state.2 * mix))
    (fun (state : S × S) value => (state.1 + state.2 * value, state.2 * φ mix))
    (fun state => (φ state.1, φ state.2)) φ (fun _ _ => by simp) values
    (((0 : ℕ) : R), ((1 : ℕ) : R))
  simpa using congrArg Prod.fst hfold

@[simp] theorem map_entryPosition (row : Row R) (kind : LogKind) (place : ℕ) :
    φ (entryPosition row kind place) = entryPosition (φ.row row) kind place := by
  simp [entryPosition]

@[simp] theorem map_entrySelector (row : Row R) (kind : LogKind) (place : ℕ) :
    φ (entrySelector row kind place) = entrySelector (φ.row row) kind place := by
  cases kind <;> simp [entrySelector]

@[simp] theorem map_entryValues (row : Row R) (kind : LogKind) (place : ℕ) :
    (entryValues row kind place).map φ = entryValues (φ.row row) kind place := by
  cases kind <;> simp [entryValues, inputValue]

/-- The images of the challenges. -/
def LogChallenges.map (challenges : LogChallenges R) : LogChallenges S :=
  ⟨fun kind => φ (challenges.tupleMix kind), fun kind => φ (challenges.inversePoint kind)⟩

@[simp] theorem map_constrainEntry (challenges : LogChallenges R) (row : Row R) (kind : LogKind)
    (place : ℕ) :
    φ (constrainEntry challenges row kind place) =
      constrainEntry (challenges.map φ) (φ.row row) kind place := by
  simp [constrainEntry, inverseAt, LogChallenges.map]

theorem map_evaluate (challenges : LogChallenges R) (row : Row R) :
    (evaluate challenges row).map φ = evaluate (challenges.map φ) (φ.row row) := by
  simp only [evaluate, List.map_flatMap, List.map_map, Function.comp_def, map_constrainEntry]

end Logs

end Map

/-! ## The relations -/

namespace MemoryArgument

/-- The writes of `BlockMemoryEventRelation`, slot by slot. -/
def entries {R : Type*} [Add R] [Sub R] [Mul R] [NatCast R] (alpha beta : R) (row : Row R) :
    List (ℕ × R) :=
  (List.range busSlots).flatMap (fun slot =>
    let selected := BlockMemory.memorySelectorValue row slot
    [(slot, (beta - compress alpha (slotConsumed row slot)) * inverseValue row slot - selected),
      (busSlots + slot, (beta - compress alpha (slotProduced row slot)) *
        inverseValue row (busSlots * 2 + slot) - selected)])

def blockMemoryEventRelation (challenges : MemoryChallenges) : UniformRelation NativeField :=
  overwriting (BlockCpu.columnCount + inverseColumnCount) (busSlots * 2) 3 fun row constraints =>
    writeEntries (entries challenges.alpha challenges.beta (listRow row)) constraints

/-- The run of the constraint code over `Reads`. -/
theorem evaluate_fits :
    ((evaluate ((0 : ℕ) : Reads) ((0 : ℕ) : Reads) (Reads.row Nat.succ)).length == busSlots * 2 &&
      Reads.within (BlockCpu.columnCount + inverseColumnCount)
        (evaluate ((0 : ℕ) : Reads) ((0 : ℕ) : Reads) (Reads.row Nat.succ))) = true := by
  decide +kernel

/-- What is read under two challenges, from a run over `Reads`. -/
theorem reading_of_fits {weight : ℕ → ℕ} {limit count : ℕ} (alpha beta : NativeField)
    (hfits : ((evaluate ((0 : ℕ) : Reads) ((0 : ℕ) : Reads) (Reads.row weight)).length == count &&
      Reads.within limit
        (evaluate ((0 : ℕ) : Reads) ((0 : ℕ) : Reads) (Reads.row weight))) = true) :
    Reading weight limit count (evaluate alpha beta) := by
  rw [Bool.and_eq_true, beq_iff_eq] at hfits
  exact .of_reads (evaluate (.constant alpha) (.constant beta) Reader.row)
    (evaluate ((0 : ℕ) : Reads) ((0 : ℕ) : Reads) (Reads.row weight))
    (fun row => map_evaluate (Reader.readHom row) _ _ _) (map_evaluate Reader.readsHom _ _ _)
    hfits.1 hfits.2

/-- Two written places for every slot are all places of the buffer. -/
theorem pairedEntries_eq {R : Type*} (consumed produced : ℕ → R) :
    (∀ entry ∈ (List.range busSlots).flatMap (fun slot =>
        [(slot, consumed slot), (busSlots + slot, produced slot)]),
      ((List.range busSlots).map consumed ++ (List.range busSlots).map produced)[entry.1]? =
        some entry.2) ∧
    ∀ index < busSlots * 2, index ∈ ((List.range busSlots).flatMap (fun slot =>
      [(slot, consumed slot), (busSlots + slot, produced slot)])).map Prod.fst := by
  refine ⟨by simp [List.range_succ], fun index hindex => ?_⟩
  interval_cases index <;> simp [List.range_succ]

theorem blockMemoryEventRelation_evaluates (challenges : MemoryChallenges) :
    Evaluates (blockMemoryEventRelation challenges)
      (evaluate challenges.alpha challenges.beta) := by
  have hreading := reading_of_fits challenges.alpha challenges.beta evaluate_fits
  refine overwriting_evaluates hreading fun row buffer _ hbuffer => ?_
  have hentries := pairedEntries_eq
    (fun slot => (challenges.beta - compress challenges.alpha (slotConsumed (listRow row) slot)) *
      inverseValue (listRow row) slot - BlockMemory.memorySelectorValue (listRow row) slot)
    (fun slot => (challenges.beta - compress challenges.alpha (slotProduced (listRow row) slot)) *
      inverseValue (listRow row) (busSlots * 2 + slot) -
        BlockMemory.memorySelectorValue (listRow row) slot)
  exact writeEntries_eq (hbuffer.trans (hreading.length_eq _).symm) hentries.1
    fun index hindex => hentries.2 index (hreading.length_eq _ ▸ hindex)

end MemoryArgument

namespace Continuity

def continuityRelation (challenges : ContinuityChallenges) : UniformRelation NativeField :=
  overwriting (BlockCpu.columnCount + packedInverseColumnCount) (packedInverseColumnCount - 2) 2
    fun row constraints =>
      writeEntries ((List.range 3).zip (evaluate challenges.stateMix challenges.inversePoint
        (listRow row))) constraints

/-- The run of the constraint code over `Reads`. -/
theorem evaluate_fits :
    ((evaluate ((0 : ℕ) : Reads) ((0 : ℕ) : Reads) (Reads.row Nat.succ)).length ==
        packedInverseColumnCount - 2 &&
      Reads.within (BlockCpu.columnCount + packedInverseColumnCount)
        (evaluate ((0 : ℕ) : Reads) ((0 : ℕ) : Reads) (Reads.row Nat.succ))) = true := by
  decide +kernel

/-- The constraints of the reader of all columns, under constant challenges. -/
theorem reading_of_fits {weight : ℕ → ℕ} {limit count : ℕ} (stateMix inversePoint : NativeField)
    (hfits : ((evaluate ((0 : ℕ) : Reads) ((0 : ℕ) : Reads) (Reads.row weight)).length == count &&
      Reads.within limit
        (evaluate ((0 : ℕ) : Reads) ((0 : ℕ) : Reads) (Reads.row weight))) = true) :
    Reading weight limit count (evaluate stateMix inversePoint) := by
  rw [Bool.and_eq_true, beq_iff_eq] at hfits
  exact .of_reads (evaluate (.constant stateMix) (.constant inversePoint) Reader.row)
    (evaluate ((0 : ℕ) : Reads) ((0 : ℕ) : Reads) (Reads.row weight))
    (fun row => map_evaluate (Reader.readHom row) _ _ _) (map_evaluate Reader.readsHom _ _ _)
    hfits.1 hfits.2

theorem continuityRelation_evaluates (challenges : ContinuityChallenges) :
    Evaluates (continuityRelation challenges)
      (evaluate challenges.stateMix challenges.inversePoint) := by
  have hreading := reading_of_fits challenges.stateMix challenges.inversePoint evaluate_fits
  refine overwriting_evaluates hreading fun row buffer _ hbuffer => ?_
  refine writeEntries_eq (hbuffer.trans (hreading.length_eq _).symm) ?_ fun index hindex => ?_
  · simp [evaluate, List.range_succ]
  · rw [hreading.length_eq] at hindex
    simp only [evaluate]
    interval_cases index <;> simp [List.range_succ]

end Continuity

namespace Logs

section Relation

variable {R : Type*} [Add R] [Sub R] [Mul R] [NatCast R] (challenges : LogChallenges R)
  (row : Row R)

def evaluateBusSlot (slot : ℕ) : List (ℕ × R) :=
  [LogKind.bus, .input, .output].map (fun kind =>
    (kind.entryStart + slot, constrainEntry challenges row kind slot))

def evaluateIsaLane (lane : ℕ) : ℕ × R :=
  (LogKind.entryStart .isa + lane, constrainEntry challenges row .isa lane)

/-- The writes of `PackedTraceLogRelation`, slot by slot and then lane by lane. -/
def entries : List (ℕ × R) :=
  (List.range basicBlockBusEventBound).flatMap (evaluateBusSlot challenges row) ++
    (List.range basicBlockInstructionBound).map (evaluateIsaLane challenges row)

end Relation

def packedTraceLogRelation (challenges : LogChallenges NativeField) :
    UniformRelation NativeField :=
  overwriting (BlockCpu.columnCount + packedTraceInverseColumnCount) packedTraceInverseEntryCount 7
    fun row constraints => writeEntries (entries challenges (listRow row)) constraints

/-- Challenges that do not depend on the row. -/
def constantReads : LogChallenges Reads := ⟨fun _ => ((0 : ℕ) : Reads), fun _ => ((0 : ℕ) : Reads)⟩

/-- The run of the constraint code over `Reads`. -/
theorem evaluate_fits :
    ((evaluate constantReads (Reads.row Nat.succ)).length == packedTraceInverseEntryCount &&
      Reads.within (BlockCpu.columnCount + packedTraceInverseColumnCount)
        (evaluate constantReads (Reads.row Nat.succ))) = true := by
  decide +kernel

/-- What is read under given challenges, from a run over `Reads`. -/
theorem reading_of_fits {weight : ℕ → ℕ} {limit count : ℕ}
    (challenges : LogChallenges NativeField)
    (hfits : ((evaluate constantReads (Reads.row weight)).length == count &&
      Reads.within limit (evaluate constantReads (Reads.row weight))) = true) :
    Reading weight limit count (evaluate challenges) := by
  rw [Bool.and_eq_true, beq_iff_eq] at hfits
  exact .of_reads
    (evaluate ⟨fun kind => .constant (challenges.tupleMix kind),
      fun kind => .constant (challenges.inversePoint kind)⟩ Reader.row)
    (evaluate constantReads (Reads.row weight))
    (fun row => map_evaluate (Reader.readHom row) _ _) (map_evaluate Reader.readsHom _ _)
    hfits.1 hfits.2

/-- The written places are all places of the buffer, in the order of the inverses. -/
theorem kindEntries_eq {R : Type*} (entry : LogKind → ℕ → R) :
    (∀ written ∈ (List.range basicBlockBusEventBound).flatMap (fun slot =>
        [LogKind.bus, .input, .output].map (fun kind =>
          (kind.entryStart + slot, entry kind slot))) ++
        (List.range basicBlockInstructionBound).map (fun lane =>
          (LogKind.entryStart .isa + lane, entry .isa lane)),
      ([LogKind.bus, .input, .output, .isa].flatMap (fun kind =>
        (List.range kind.places).map (entry kind)))[written.1]? = some written.2) ∧
    ∀ index < packedTraceInverseEntryCount, index ∈
      ((List.range basicBlockBusEventBound).flatMap (fun slot =>
        [LogKind.bus, .input, .output].map (fun kind =>
          (kind.entryStart + slot, entry kind slot))) ++
        (List.range basicBlockInstructionBound).map (fun lane =>
          (LogKind.entryStart .isa + lane, entry .isa lane))).map Prod.fst := by
  refine ⟨by simp [List.range_succ, LogKind.entryStart, LogKind.places], fun index hindex => ?_⟩
  interval_cases index <;> simp [List.range_succ, LogKind.entryStart]

theorem packedTraceLogRelation_evaluates (challenges : LogChallenges NativeField) :
    Evaluates (packedTraceLogRelation challenges) (evaluate challenges) := by
  have hreading := reading_of_fits challenges evaluate_fits
  refine overwriting_evaluates hreading fun row buffer _ hbuffer => ?_
  have hentries := kindEntries_eq (constrainEntry challenges (listRow row))
  exact writeEntries_eq (hbuffer.trans (hreading.length_eq _).symm) hentries.1
    fun index hindex => hentries.2 index (hreading.length_eq _ ▸ hindex)

end Logs

end Zksm83
