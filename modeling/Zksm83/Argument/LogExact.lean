import Zksm83.Argument.LogRows
import Zksm83.Library.Failure

/-!
# Exact protocol logs

Given a satisfied and continuous trace whose log entries are those of the tables, the byte tables
hold one entry for each index between the cursors of the public states, and the instruction table
holds the active lanes. The bus table holds the events of the active rows if and only if no padding row
uses a bus slot. Read `logsExact_iff_padding` first.
-/

namespace Zksm83

open Constraint BlockMetadata BlockBoundary BlockFrontend BlockBus Reading

namespace Logs

open Continuity

theorem byteCursor_lt (kind : LogKind) : byteCursor kind < stateScalarCount := by
  cases kind <;> decide

/-- The selected places of active rows. -/
noncomputable def activePlaces (table : Table) (kind : LogKind) : Finset Place :=
  (selectedPlaces table kind).filter (fun place => place.1 ∈ activeRows table)

/-- The index of a byte event. -/
def placeIndex (table : Table) (place : Place) : NativeField :=
  slotIndexValue (busPlane (table place.1)) place.2

/-- The byte that an event consumes or produces: the buttons of a joypad read, the value of an
input or output event. -/
def placeByte (table : Table) (place : Place) : NativeField :=
  if slotKind (table place.1) place.2 = 13 then
    slotAuxiliaryValue (busPlane (table place.1)) place.2
  else slotValueValue (busPlane (table place.1)) place.2

/-- The table holds exactly one entry for each index from `initial` to `final`, with the byte of
the event with that index. -/
structure ByteLogExact (table : Table) (logs : LogTable) (kind : LogKind) (initial final : ℕ) :
    Prop where
  entries : tableEntries logs kind = (activePlaces table kind).val.map (fun place =>
    [placeIndex table place, placeByte table place])
  covers : ∀ index, initial ≤ index → index < final →
    ∃! place, place ∈ activePlaces table kind ∧ placeIndex table place = (index : NativeField)
  within : ∀ place ∈ activePlaces table kind,
    ∃ index, initial ≤ index ∧ index < final ∧ placeIndex table place = (index : NativeField)

/-- The table holds exactly the selected places of the active rows, under distinct positions. -/
structure PositionLogExact (table : Table) (logs : LogTable) (kind : LogKind) : Prop where
  entries : tableEntries logs kind = (activePlaces table kind).val.map (placeValues table kind)
  distinct : Set.InjOn (fun place : Place => entryPosition (table place.1) kind place.2)
    (activePlaces table kind)

/-- The cursor of a byte log in a public state. -/
def boundaryCursor (boundary : NativeStateBoundary) (kind : LogKind) : ℕ :=
  (boundary.scalars ⟨byteCursor kind, byteCursor_lt kind⟩).toNat

/-- The four tables are exact. -/
structure LogsExact (table : Table) (execution : NativeExecutionClaim) (logs : LogTable) :
    Prop where
  input : ByteLogExact table logs .input (boundaryCursor execution.initialState .input)
    (boundaryCursor execution.finalState .input)
  output : ByteLogExact table logs .output (boundaryCursor execution.initialState .output)
    (boundaryCursor execution.finalState .output)
  bus : PositionLogExact table logs .bus
  isa : PositionLogExact table logs .isa

/-- No padding row uses a bus slot. -/
def PaddingSlotsUnused (table : Table) : Prop :=
  ∀ position, blockActiveValue (table position) = 0 → ∀ slot < basicBlockBusEventBound,
    slotActiveValue (busPlane (table position)) slot = 0

section Places

variable {table : Table} (hrelation : ∀ position, Holds (BlockCpu.evaluate (table position)))

include hrelation

theorem memorySlices (position : Fin uniformRowCount) : MemorySlices (table position) :=
  (CpuSlices.of_holds (hrelation position)).toMemorySlices

theorem binaryTable : BinaryTable table where
  active position := (isBit_metadata (memorySlices hrelation position).toMachineSlices).1
  rowBits position bit hbit := by
    have h := (memorySlices hrelation position).memory
    simp only [BlockMemory.constrainMemory, holds_append, holds_map, List.mem_range,
      boolean_eq_zero_iff] at h
    exact h.1 bit hbit

/-- A position, as a number. -/
theorem entryPosition_eq (position : Fin uniformRowCount) (kind : LogKind) (place : ℕ) :
    entryPosition (table position) kind place =
      ((rowIndex (table position) * kind.places + place : ℕ) : NativeField) := by
  rw [entryPosition, Continuity.memoryRowIndexValue_eq (binaryTable hrelation), Nat.cast_add,
    Nat.cast_mul]

/-- A byte event is selected by its kind. -/
theorem entrySelector_byte {kind : LogKind} (hkind : IsByteLog kind)
    (position : Fin uniformRowCount) {slot : ℕ} (hslot : slot < basicBlockBusEventBound) :
    entrySelector (table position) kind slot =
      if slotKind (table position) slot ∈ byteCodes kind then 1 else 0 := by
  have hrow := memorySlices hrelation position
  rcases hkind with rfl | rfl
  · have h := kindSelectorSum_eq hrow.toMachineSlices hslot BlockMemory.inputKindCodes (by decide) (by decide)
    rw [kindSelectorSum, total_eq_sum, List.map_cons, List.map_cons, List.map_nil, List.sum_cons,
      List.sum_cons, List.sum_nil, add_zero] at h
    exact h
  · rw [entrySelector, slotKindSelector_eq hrow.toMachineSlices hslot 7 (by norm_num)]
    simp [byteCodes]

theorem mem_activePlaces_byte {kind : LogKind} (hkind : IsByteLog kind) {place : Place} :
    place ∈ activePlaces table kind ↔
      place.1 ∈ activeRows table ∧ place.2 ∈ rowEvents (table place.1) (byteCodes kind) := by
  have hplaces : kind.places = basicBlockBusEventBound := by
    rcases hkind with rfl | rfl <;> rfl
  rw [activePlaces, Finset.mem_filter, mem_selectedPlaces, hplaces, mem_rowEvents]
  constructor
  · rintro ⟨⟨hslot, hone⟩, hactive⟩
    rw [entrySelector_byte hrelation hkind _ hslot] at hone
    refine ⟨hactive, hslot, ?_⟩
    by_contra hnot
    rw [if_neg hnot] at hone
    exact zero_ne_one hone
  · rintro ⟨hactive, hslot, hmem⟩
    exact ⟨⟨hslot, by rw [entrySelector_byte hrelation hkind _ hslot, if_pos hmem]⟩, hactive⟩

/-- The tuple of a byte event is its index and its byte. -/
theorem placeValues_byte {kind : LogKind} (hkind : IsByteLog kind) {place : Place}
    (hslot : place.2 < basicBlockBusEventBound)
    (hmem : slotKind (table place.1) place.2 ∈ byteCodes kind) :
    placeValues table kind place = [placeIndex table place, placeByte table place] := by
  have hrow := memorySlices hrelation place.1
  rcases hkind with rfl | rfl
  · have hcases : slotKind (table place.1) place.2 = 6 ∨ slotKind (table place.1) place.2 = 13 := by
      simpa [byteCodes] using hmem
    simp only [placeValues, entryValues, inputValue, placeIndex, placeByte,
      slotKindSelector_eq hrow.toMachineSlices hslot 6 (by norm_num),
      slotKindSelector_eq hrow.toMachineSlices hslot 13 (by norm_num)]
    rcases hcases with hsix | hjoypad
    · rw [if_pos hsix, if_neg (by rw [hsix]; norm_num), if_neg (by rw [hsix]; norm_num), one_mul,
        zero_mul, add_zero]
    · rw [if_pos hjoypad, if_neg (by rw [hjoypad]; norm_num), if_pos hjoypad, one_mul, zero_mul,
        zero_add]
  · have hseven : slotKind (table place.1) place.2 = 7 := by simpa [byteCodes] using hmem
    rw [placeByte, if_neg (by rw [hseven]; norm_num)]
    rfl

end Places

theorem card_activePlaces_le (table : Table) (kind : LogKind) :
    (activePlaces table kind).card ≤ uniformRowCount * 5 :=
  (Finset.card_filter_le _ _).trans (card_selectedPlaces_le table kind)

section Chain

variable {table : Table} (hrelation : ∀ position, Holds (BlockCpu.evaluate (table position)))
  {execution : NativeExecutionClaim} (hpositive : 0 < execution.activeRowCount.toNat)
  {order : ℕ → Fin uniformRowCount}
  (horder : TaggedChain.IsChain (activeRows table) (fun position => rowIndex (table position))
    (fun position => stateOf (table position) false)
    (fun position => stateOf (table position) true) (boundaryState execution.initialState)
    (boundaryState execution.finalState) execution.activeRowCount.toNat order)
  {kind : LogKind} (hkind : IsByteLog kind)

/-- The byte events of the row with number `turn`. -/
def turnEvents (table : Table) (order : ℕ → Fin uniformRowCount) (kind : LogKind) (turn : ℕ) :
    List Place :=
  (rowEvents (table (order turn)) (byteCodes kind)).map (fun slot => (order turn, slot))

/-- The byte events of a trace, in the order of the chain. -/
def byteEvents (table : Table) (order : ℕ → Fin uniformRowCount) (kind : LogKind) (count : ℕ) :
    List Place := Ledger.written (turnEvents table order kind) count

/-- The cursor before the row with number `turn`, and behind the last row. -/
def turnCursor (table : Table) (order : ℕ → Fin uniformRowCount) (execution : NativeExecutionClaim)
    (kind : LogKind) (turn : ℕ) : NativeField :=
  if turn < execution.activeRowCount.toNat then
    rowState (table (order turn)) false (byteCursor kind)
  else (boundaryCursor execution.finalState kind : NativeField)

include horder hpositive in
theorem turnCursor_zero : turnCursor table order execution kind 0 =
    (boundaryCursor execution.initialState kind : NativeField) := by
  rw [turnCursor, if_pos hpositive]
  exact congrFun horder.first ⟨byteCursor kind, byteCursor_lt kind⟩

theorem turnCursor_last : turnCursor table order execution kind execution.activeRowCount.toNat =
    (boundaryCursor execution.finalState kind : NativeField) := by
  rw [turnCursor, if_neg (lt_irrefl _)]

include horder

theorem blockActiveValue_order {turn : ℕ} (hturn : turn < execution.activeRowCount.toNat) :
    blockActiveValue (table (order turn)) = 1 :=
  (Finset.mem_filter.mp (horder.mem turn hturn)).2

include hrelation hkind

theorem turnCursor_succ {turn : ℕ} (hturn : turn < execution.activeRowCount.toNat) :
    turnCursor table order execution kind (turn + 1) = turnCursor table order execution kind turn +
      ((turnEvents table order kind turn).length : NativeField) := by
  have hafter := rowState_after (memorySlices hrelation (order turn)) hkind
    (blockActiveValue_order horder hturn)
  rw [turnEvents, List.length_map]
  nth_rewrite 2 [turnCursor]
  rw [if_pos hturn, ← hafter, turnCursor]
  split
  case isTrue hnext =>
    exact (congrFun (horder.step turn hnext) ⟨byteCursor kind, byteCursor_lt kind⟩).symm
  case isFalse hlast =>
    have heq : turn = execution.activeRowCount.toNat - 1 := by omega
    rw [heq]
    exact (congrFun horder.last ⟨byteCursor kind, byteCursor_lt kind⟩).symm

omit horder in
theorem placeIndex_turnEvents {turn : ℕ} (hturn : turn < execution.activeRowCount.toNat)
    (place : ℕ) (h : place < (turnEvents table order kind turn).length) :
    placeIndex table ((turnEvents table order kind turn)[place]) =
      turnCursor table order execution kind turn + (place : NativeField) := by
  have hlength : place < (rowEvents (table (order turn)) (byteCodes kind)).length := by
    simpa [turnEvents] using h
  rw [turnCursor, if_pos hturn,
    ← slotIndexValue_getElem (memorySlices hrelation (order turn)) hkind place hlength]
  simp [turnEvents, placeIndex]

/-- The byte events of a trace stand under consecutive indices. -/
theorem placeIndex_byteEvents (place : ℕ)
    (h : place < (byteEvents table order kind execution.activeRowCount.toNat).length) :
    placeIndex table ((byteEvents table order kind execution.activeRowCount.toNat)[place]) =
      turnCursor table order execution kind 0 + (place : NativeField) :=
  Ledger.getElem_written
    (fun _ hturn => placeIndex_turnEvents hrelation hkind hturn)
    (fun _ hturn => turnCursor_succ hrelation horder hkind hturn) place h

/-- The byte events of the chain are those of the active rows. -/
theorem mem_byteEvents {place : Place} :
    place ∈ byteEvents table order kind execution.activeRowCount.toNat ↔
      place ∈ activePlaces table kind := by
  rw [byteEvents, Ledger.mem_written, mem_activePlaces_byte hrelation hkind]
  constructor
  · rintro ⟨turn, hturn, hmem⟩
    obtain ⟨slot, hslot, rfl⟩ := List.mem_map.mp hmem
    exact ⟨horder.mem turn hturn, hslot⟩
  · rintro ⟨hactive, hslot⟩
    obtain ⟨turn, hturn, heq⟩ := horder.covers place.1 hactive
    refine ⟨turn, hturn, List.mem_map.mpr ⟨place.2, ?_, ?_⟩⟩
    · rw [heq]
      exact hslot
    · rw [heq]

omit hrelation hkind in
theorem nodup_byteEvents : (byteEvents table order kind execution.activeRowCount.toNat).Nodup := by
  refine Ledger.nodup_written (fun place => rowIndex (table place.1)) ?_ ?_
  · intro turn _
    refine (List.Nodup.filter _ List.nodup_range).map ?_
    intro left right heq
    exact (Prod.mk.inj heq).2
  · intro turn hturn place hplace
    obtain ⟨slot, -, rfl⟩ := List.mem_map.mp hplace
    exact horder.index turn hturn

theorem activePlaces_val : (activePlaces table kind).val =
    (byteEvents table order kind execution.activeRowCount.toNat : Multiset Place) := by
  have heq : activePlaces table kind =
      (byteEvents table order kind execution.activeRowCount.toNat).toFinset := by
    ext place
    rw [List.mem_toFinset, mem_byteEvents hrelation horder hkind]
  rw [heq, List.toFinset_val, (nodup_byteEvents horder).dedup]

theorem card_activePlaces : (activePlaces table kind).card =
    (byteEvents table order kind execution.activeRowCount.toNat).length := by
  rw [Finset.card_def, activePlaces_val hrelation horder hkind, Multiset.coe_card]

include hpositive

/-- The final cursor is behind the byte events of the trace. -/
theorem boundaryCursor_final : boundaryCursor execution.finalState kind =
    boundaryCursor execution.initialState kind + (activePlaces table kind).card := by
  have hcursor := Ledger.cursor_eq
    (fun _ hturn => turnCursor_succ hrelation horder hkind hturn)
  rw [turnCursor_last, turnCursor_zero hpositive horder, ← Nat.cast_add] at hcursor
  rw [card_activePlaces hrelation horder hkind]
  have hfinal : boundaryCursor execution.finalState kind < 2 ^ 64 := UInt64.toNat_lt _
  have hinitial : boundaryCursor execution.initialState kind < 2 ^ 64 := UInt64.toNat_lt _
  have hlength := card_activePlaces_le table kind
  rw [card_activePlaces hrelation horder hkind] at hlength
  refine (natCast_inj (hfinal.trans (by norm_num)) ?_).mp hcursor
  show boundaryCursor execution.initialState kind +
    (byteEvents table order kind execution.activeRowCount.toNat).length < fieldModulus
  have hsmall : 2 ^ 64 + uniformRowCount * 5 < fieldModulus := by norm_num
  omega

/-- The byte event in a place of the ledger. -/
theorem placeIndex_getElem (place : ℕ)
    (h : place < (byteEvents table order kind execution.activeRowCount.toNat).length) :
    placeIndex table ((byteEvents table order kind execution.activeRowCount.toNat)[place]) =
      ((boundaryCursor execution.initialState kind + place : ℕ) : NativeField) := by
  rw [placeIndex_byteEvents hrelation horder hkind, turnCursor_zero hpositive horder, Nat.cast_add]

/-- Every byte event stands under an index between the cursors. -/
theorem exists_index {place : Place} (hplace : place ∈ activePlaces table kind) :
    ∃ index, boundaryCursor execution.initialState kind ≤ index ∧
      index < boundaryCursor execution.finalState kind ∧
      placeIndex table place = (index : NativeField) := by
  have hfinal := boundaryCursor_final hrelation hpositive horder hkind
  rw [card_activePlaces hrelation horder hkind] at hfinal
  have hmem : place ∈ byteEvents table order kind execution.activeRowCount.toNat := by
    rwa [mem_byteEvents hrelation horder hkind]
  obtain ⟨number, hnumber, rfl⟩ := List.getElem_of_mem hmem
  exact ⟨boundaryCursor execution.initialState kind + number, Nat.le_add_right _ _, by omega,
    placeIndex_getElem hrelation hpositive horder hkind number hnumber⟩

/-- Every index between the cursors is that of one byte event. -/
theorem existsUnique_place {index : ℕ}
    (hlower : boundaryCursor execution.initialState kind ≤ index)
    (hupper : index < boundaryCursor execution.finalState kind) :
    ∃! place, place ∈ activePlaces table kind ∧ placeIndex table place = (index : NativeField) := by
  have hfinal := boundaryCursor_final hrelation hpositive horder hkind
  rw [card_activePlaces hrelation horder hkind] at hfinal
  have hbound : boundaryCursor execution.finalState kind < fieldModulus :=
    (UInt64.toNat_lt _).trans (by norm_num)
  have hlength : index - boundaryCursor execution.initialState kind <
      (byteEvents table order kind execution.activeRowCount.toNat).length := by omega
  refine ⟨(byteEvents table order kind execution.activeRowCount.toNat)[index -
    boundaryCursor execution.initialState kind], ⟨?_, ?_⟩, ?_⟩
  · rw [← mem_byteEvents hrelation horder hkind]
    exact List.getElem_mem hlength
  · rw [placeIndex_getElem hrelation hpositive horder hkind _ hlength, Nat.add_sub_cancel' hlower]
  · rintro other ⟨hother, heq⟩
    rw [← mem_byteEvents hrelation horder hkind] at hother
    obtain ⟨number, hnumber, rfl⟩ := List.getElem_of_mem hother
    rw [placeIndex_getElem hrelation hpositive horder hkind _ hnumber,
      natCast_inj (by omega) (by omega)] at heq
    have hsame : number = index - boundaryCursor execution.initialState kind := by omega
    subst hsame
    rfl

end Chain

/-- An active lane sits in an active row. -/
theorem blockActiveValue_of_lane {row : Row NativeField} (hrow : MemorySlices row) {lane : ℕ}
    (hlane : lane < basicBlockInstructionBound) (hone : laneValue row lane = 1) :
    blockActiveValue row = 1 := by
  have h := hrow.metadata
  simp only [BlockMetadata.evaluate, holds_append, holds_cons] at h
  have hinstruction := h.1.1.1.2.2.1
  rw [instructionValue_eq_one hrow.toBlockSlices hlane hone, one_mul, Nat.cast_one] at hinstruction
  exact (sub_eq_zero.mp hinstruction).symm

/-- What is given about a trace, its public claims and its log tables. -/
structure LogArgument (table : Table) (execution : NativeExecutionClaim)
    (claim : PackedProtocolLogClaim) (logs : LogTable) : Prop where
  relation : ∀ position, Holds (BlockCpu.evaluate (table position))
  continuity : producedStates table execution = consumedStates table execution
  tableRelation : ∀ row kind, Holds (constrainLogRow (logs row) kind)
  entries : ∀ kind, traceEntries table kind = tableEntries logs kind
  counts : ∃ counts, claim.counts execution = .ok counts ∧
    ∀ kind, ∑ row, logs row kind.start = ((counts kind : ℕ) : NativeField)

/-- A cursor that does not fall grows by its delta. -/
theorem scalarDelta_ok {before after : NativeStateBoundary} {index delta : ℕ}
    (hindex : index < stateScalarCount) (h : scalarDelta before after index = .ok delta) :
    (before.scalars ⟨index, hindex⟩).toNat + delta = (after.scalars ⟨index, hindex⟩).toNat := by
  rw [scalarDelta, dif_pos hindex] at h
  split at h
  case isTrue hle =>
    have hdelta := Except.ok.inj h
    omega
  case isFalse => cases h

theorem positive_of_validate {execution : NativeExecutionClaim}
    (h : Continuity.validate execution = .ok ()) : 0 < execution.activeRowCount.toNat := by
  simp only [Continuity.validate] at h
  split at h
  · cases h
  · split at h
    · cases h
    case isFalse hbounds => omega

theorem validate_ok {claim : PackedProtocolLogClaim} {execution : NativeExecutionClaim}
    (h : claim.validate execution = .ok ()) : 0 < execution.activeRowCount.toNat := by
  rw [PackedProtocolLogClaim.validate] at h
  obtain ⟨_, hvalid, -⟩ := Except.of_bind_eq_ok h
  refine positive_of_validate ?_
  cases hcase : Continuity.validate execution with
  | error _ => rw [hcase] at hvalid; cases hvalid
  | ok _ => rfl
/-- The counts of a valid claim. -/
theorem counts_ok {claim : PackedProtocolLogClaim} {execution : NativeExecutionClaim}
    {counts : LogKind → ℕ} (h : claim.counts execution = .ok counts) :
    0 < execution.activeRowCount.toNat ∧ ∀ kind, IsByteLog kind →
      boundaryCursor execution.initialState kind + counts kind =
        boundaryCursor execution.finalState kind := by
  rw [PackedProtocolLogClaim.counts] at h
  obtain ⟨_, hvalid, h⟩ := Except.of_bind_eq_ok h
  obtain ⟨input, hinput, h⟩ := Except.of_bind_eq_ok h
  obtain ⟨output, houtput, h⟩ := Except.of_bind_eq_ok h
  have hcounts := Except.ok.inj h
  refine ⟨validate_ok hvalid, ?_⟩
  rintro kind (rfl | rfl)
  · rw [← hcounts]
    exact scalarDelta_ok (by decide) hinput
  · rw [← hcounts]
    exact scalarDelta_ok (by decide) houtput

theorem map_val_congr {α β : Type*} {s : Finset α} {f g : α → β} (h : ∀ a ∈ s, f a = g a) :
    s.val.map f = s.val.map g :=
  Multiset.map_congr rfl h

section Tables

variable {logs : LogTable} {kind : LogKind}

theorem isBit_selector (htable : ∀ row kind, Holds (constrainLogRow (logs row) kind))
    (kind : LogKind) (row : Fin protocolLogRowCount) : IsBit (logs row kind.start) := by
  have h := htable row kind
  rw [constrainLogRow, holds_cons] at h
  exact (boolean_eq_zero_iff _).mp h.1

/-- The selectors of a table count its entries. -/
theorem sum_selectors (htable : ∀ row kind, Holds (constrainLogRow (logs row) kind)) :
    ∑ row, logs row kind.start = ((Multiset.card (tableEntries logs kind) : ℕ) : NativeField) := by
  rw [tableEntries, Multiset.card_map, ← Finset.card_def, selectedRows, Finset.card_filter,
    Nat.cast_sum]
  refine Finset.sum_congr rfl (fun row _ => ?_)
  rcases isBit_selector htable kind row with hzero | hone
  · rw [hzero, if_neg zero_ne_one, Nat.cast_zero]
  · rw [hone, if_pos rfl, Nat.cast_one]

/-- A table has as many entries as its selectors claim. -/
theorem card_tableEntries (htable : ∀ row kind, Holds (constrainLogRow (logs row) kind)) {count : ℕ}
    (hcount : count < 2 ^ 64) (hsum : ∑ row, logs row kind.start = ((count : ℕ) : NativeField)) :
    Multiset.card (tableEntries logs kind) = count := by
  have hbound : Multiset.card (tableEntries logs kind) ≤ protocolLogRowCount := by
    rw [tableEntries, Multiset.card_map, ← Finset.card_def]
    refine (Finset.card_filter_le _ _).trans ?_
    rw [Finset.card_univ, Fintype.card_fin]
  rw [sum_selectors htable] at hsum
  exact (natCast_inj (hbound.trans_lt (by norm_num)) (hcount.trans (by norm_num))).mp hsum

end Tables

section Exact

variable {table : Table} {execution : NativeExecutionClaim} {claim : PackedProtocolLogClaim}
  {logs : LogTable} (hlogs : LogArgument table execution claim logs)

include hlogs

theorem exists_order : ∃ order, TaggedChain.IsChain (activeRows table)
    (fun position => rowIndex (table position)) (fun position => stateOf (table position) false)
    (fun position => stateOf (table position) true) (boundaryState execution.initialState)
    (boundaryState execution.finalState) execution.activeRowCount.toNat order := by
  obtain ⟨counts, hcounts, -⟩ := hlogs.counts
  exact TaggedChain.exists_chain (produced_eq_consumed (binaryTable hlogs.relation)
    hlogs.continuity) (counts_ok hcounts).1

theorem card_selectedPlaces (kind : LogKind) :
    (selectedPlaces table kind).card = Multiset.card (tableEntries logs kind) := by
  rw [← hlogs.entries kind, traceEntries, Multiset.card_map, Finset.card_def]

/-- No byte event stands outside the active rows. -/
theorem selectedPlaces_byte {kind : LogKind} (hkind : IsByteLog kind) :
    selectedPlaces table kind = activePlaces table kind := by
  obtain ⟨counts, hcounts, hsums⟩ := hlogs.counts
  obtain ⟨hpositive, hcursors⟩ := counts_ok hcounts
  obtain ⟨order, horder⟩ := exists_order hlogs
  have hfinal := boundaryCursor_final hlogs.relation hpositive horder hkind
  have hcursor := hcursors kind hkind
  have hbound : boundaryCursor execution.finalState kind < 2 ^ 64 := UInt64.toNat_lt _
  have htable := card_tableEntries hlogs.tableRelation (by omega : counts kind < 2 ^ 64)
    (hsums kind)
  have hcard := card_selectedPlaces hlogs kind
  refine (Finset.eq_of_subset_of_card_le (Finset.filter_subset _ _) ?_).symm
  show (selectedPlaces table kind).card ≤ (activePlaces table kind).card
  omega

theorem byteLogExact {kind : LogKind} (hkind : IsByteLog kind) :
    ByteLogExact table logs kind (boundaryCursor execution.initialState kind)
      (boundaryCursor execution.finalState kind) := by
  obtain ⟨counts, hcounts, -⟩ := hlogs.counts
  obtain ⟨hpositive, -⟩ := counts_ok hcounts
  obtain ⟨order, horder⟩ := exists_order hlogs
  refine ⟨?_, ?_, ?_⟩
  · rw [← hlogs.entries kind, traceEntries, selectedPlaces_byte hlogs hkind]
    refine map_val_congr ?_
    intro place hplace
    obtain ⟨-, hslot⟩ := (mem_activePlaces_byte hlogs.relation hkind).mp hplace
    exact placeValues_byte hlogs.relation hkind (mem_rowEvents.mp hslot).1
      (mem_rowEvents.mp hslot).2
  · exact fun index hlower hupper =>
      existsUnique_place hlogs.relation hpositive horder hkind hlower hupper
  · exact fun place hplace => exists_index hlogs.relation hpositive horder hkind hplace

/-- Active rows stand under different indices. -/
theorem eq_of_rowIndex_eq {left right : Fin uniformRowCount} (hleft : left ∈ activeRows table)
    (hright : right ∈ activeRows table) (heq : rowIndex (table left) = rowIndex (table right)) :
    left = right := by
  obtain ⟨order, horder⟩ := exists_order hlogs
  obtain ⟨leftTurn, hleftTurn, rfl⟩ := horder.covers left hleft
  obtain ⟨rightTurn, hrightTurn, rfl⟩ := horder.covers right hright
  have hleftIndex : rowIndex (table (order leftTurn)) = leftTurn := horder.index leftTurn hleftTurn
  have hrightIndex : rowIndex (table (order rightTurn)) = rightTurn :=
    horder.index rightTurn hrightTurn
  rw [hleftIndex, hrightIndex] at heq
  rw [heq]

/-- The positions of the places of active rows differ. -/
theorem injOn_position (kind : LogKind) :
    Set.InjOn (fun place : Place => entryPosition (table place.1) kind place.2)
      (activePlaces table kind) := by
  intro left hleft right hright heq
  obtain ⟨hleftPlace, hleftRow⟩ := Finset.mem_filter.mp hleft
  obtain ⟨hrightPlace, hrightRow⟩ := Finset.mem_filter.mp hright
  have hleftSlot := (mem_selectedPlaces.mp hleftPlace).1
  have hrightSlot := (mem_selectedPlaces.mp hrightPlace).1
  have hbound : ∀ place : Place, place.2 < kind.places →
      rowIndex (table place.1) * kind.places + place.2 < fieldModulus := by
    intro place hplace
    have hplaces : kind.places ≤ 5 := by cases kind <;> decide
    have hindex : rowIndex (table place.1) < 2 ^ 14 := rowIndex_lt _
    have hproduct : rowIndex (table place.1) * kind.places ≤ 2 ^ 14 * 5 :=
      Nat.mul_le_mul hindex.le hplaces
    have hsmall : 2 ^ 14 * 5 + 5 < fieldModulus := by norm_num
    omega
  simp only [entryPosition_eq hlogs.relation] at heq
  have hnumbers := (natCast_inj (hbound left hleftSlot) (hbound right hrightSlot)).mp heq
  have hrows : rowIndex (table left.1) = rowIndex (table right.1) := by
    have hdiv := congrArg (· / kind.places) hnumbers
    have hpositive : 0 < kind.places := by omega
    simpa only [Nat.add_div_of_dvd_right (Dvd.intro_left _ rfl), Nat.mul_div_cancel _ hpositive,
      Nat.div_eq_of_lt hleftSlot, Nat.div_eq_of_lt hrightSlot, add_zero] using hdiv
  have hsame := eq_of_rowIndex_eq hlogs hleftRow hrightRow hrows
  rw [hrows] at hnumbers
  exact Prod.ext hsame (Nat.add_left_cancel hnumbers)

/-- A lane is active in active rows only. -/
theorem selectedPlaces_isa : selectedPlaces table .isa = activePlaces table .isa := by
  refine (Finset.filter_true_of_mem ?_).symm
  intro place hplace
  obtain ⟨hlane, hone⟩ := mem_selectedPlaces.mp hplace
  have hrow := memorySlices hlogs.relation place.1
  have hactive := blockActiveValue_of_lane hrow hlane hone
  rw [activeRows, Finset.mem_filter]
  exact ⟨Finset.mem_univ _, hactive⟩

/-- The instruction table holds the instruction lanes under different positions. -/
theorem isaLogExact : PositionLogExact table logs .isa where
  entries := by rw [← hlogs.entries .isa, traceEntries, selectedPlaces_isa hlogs]
  distinct := injOn_position hlogs .isa

/-- Without events on padding rows, the used slots are those of active rows. -/
theorem selectedPlaces_bus (hunused : PaddingSlotsUnused table) :
    selectedPlaces table .bus = activePlaces table .bus := by
  refine (Finset.filter_true_of_mem ?_).symm
  intro place hplace
  obtain ⟨hslot, hone⟩ := mem_selectedPlaces.mp hplace
  have hrow := memorySlices hlogs.relation place.1
  rw [activeRows, Finset.mem_filter]
  refine ⟨Finset.mem_univ _, ?_⟩
  rcases (isBit_metadata hrow.toMachineSlices).1 with hzero | hactive
  · have hnone := hunused place.1 hzero place.2 hslot
    exact absurd (hone.symm.trans hnone) one_ne_zero
  · exact hactive

/-- Tables that hold the events of active rows leave none for padding rows. -/
theorem paddingSlotsUnused (hexact : PositionLogExact table logs .bus) :
    PaddingSlotsUnused table := by
  intro position hpadding slot hslot
  have hrow := memorySlices hlogs.relation position
  by_contra hused
  have hone : entrySelector (table position) .bus slot = 1 := by
    rw [entrySelector]
    rw [slotActiveValue_eq hrow.toMachineSlices hslot] at hused ⊢
    by_cases hkind : slotKind (table position) slot = 0
    · rw [if_pos hkind] at hused
      exact absurd rfl hused
    · rw [if_neg hkind]
  have hmem : (position, slot) ∈ selectedPlaces table .bus := mem_selectedPlaces.mpr ⟨hslot, hone⟩
  have hcards : (selectedPlaces table .bus).card = (activePlaces table .bus).card := by
    rw [card_selectedPlaces hlogs, hexact.entries, Multiset.card_map, Finset.card_def]
  have hall : activePlaces table .bus = selectedPlaces table .bus :=
    Finset.eq_of_subset_of_card_le (Finset.filter_subset _ _) hcards.le
  rw [← hall, activePlaces, Finset.mem_filter, activeRows, Finset.mem_filter] at hmem
  exact zero_ne_one (hpadding.symm.trans hmem.2.2)

/-- The logs are exact if and only if no padding row uses a bus slot. -/
theorem logsExact_iff_padding : LogsExact table execution logs ↔ PaddingSlotsUnused table := by
  constructor
  · exact fun hexact => paddingSlotsUnused hlogs hexact.bus
  · intro hunused
    refine ⟨byteLogExact hlogs (.inl rfl), byteLogExact hlogs (.inr rfl), ⟨?_, ?_⟩,
      isaLogExact hlogs⟩
    · rw [← hlogs.entries .bus, traceEntries, selectedPlaces_bus hlogs hunused]
    · exact injOn_position hlogs .bus

end Exact

end Logs

end Zksm83
