import Zksm83.Argument.LogExact

/-!
# Protocol logs of an honest prover

The entries that are extracted from an honest trace are those of its selected slots and lanes, and
the tables that are filled with them meet every condition of the log argument.
-/

namespace Zksm83

open Constraint BlockMetadata BlockBoundary BlockFrontend BlockBus Reading

namespace Logs

open Continuity

/-- The rows of a table that hold the entries of a list, in order. -/
theorem map_val_filter_lt {α : Type*} (count : ℕ) (entries : List α) (f : Fin count → α)
    (hlength : entries.length ≤ count)
    (hentry : ∀ (row : Fin count) (h : (row : ℕ) < entries.length), f row = entries[(row : ℕ)]) :
    (Finset.univ.filter (fun row : Fin count => (row : ℕ) < entries.length)).val.map f =
      (entries : Multiset α) := by
  have hrows : Finset.univ.filter (fun row : Fin count => (row : ℕ) < entries.length) =
      Finset.univ.map (Fin.castLEEmb hlength) := by
    ext row
    rw [Finset.mem_filter, Finset.mem_map]
    constructor
    · rintro ⟨-, hlt⟩
      exact ⟨⟨row, hlt⟩, Finset.mem_univ _, rfl⟩
    · rintro ⟨place, -, rfl⟩
      exact ⟨Finset.mem_univ _, place.isLt⟩
  rw [hrows, Finset.map_val, Multiset.map_map, Fin.univ_val_map]
  refine congrArg _ (List.ext_getElem (by simp) ?_)
  intro place hleft hright
  rw [List.getElem_ofFn]
  exact hentry _ hright

/-- What an honest prover's columns satisfy: the relation and continuity, active rows first and
under their own index, and padding rows without bus events. -/
structure HonestWitness (witness : BlockCpuWitness) (execution : NativeExecutionClaim) : Prop where
  bounded : ∀ column row, witness.columns column row < 2 ^ 64
  relation : ∀ position, Holds (BlockCpu.evaluate (tableOf witness.columns position))
  continuity : producedStates (tableOf witness.columns) execution =
    consumedStates (tableOf witness.columns) execution
  active : ∀ position : Fin uniformRowCount,
    witness.columns blockActive position =
      if (position : ℕ) < witness.activeBlockCount then 1 else 0
  rowBits : ∀ position : Fin uniformRowCount, (position : ℕ) < witness.activeBlockCount →
    rowIndex (tableOf witness.columns position) = position
  padding : ∀ position : Fin uniformRowCount, witness.activeBlockCount ≤ (position : ℕ) →
    ∀ slot < basicBlockBusEventBound, witness.packedBusValue (slotStart slot) position = 0
  busEvents : witness.busEventCount = ((List.range witness.activeBlockCount).flatMap
    (fun row => witness.rowEntries row .bus)).length
  instructions : witness.instructionCount = ((List.range witness.activeBlockCount).flatMap
    (fun row => witness.rowEntries row .isa)).length

/-- Two listings of the selected members of a list. -/
theorem map_filter_congr {α β : Type*} {list : List α} {p q : α → Bool} {f g : α → β}
    (hselected : ∀ a ∈ list, p a = q a) (hvalues : ∀ a ∈ list, q a = true → f a = g a) :
    (list.filter p).map f = (list.filter q).map g := by
  rw [List.filter_congr hselected]
  refine List.map_congr_left ?_
  intro a ha
  obtain ⟨hmem, hq⟩ := List.mem_filter.mp ha
  exact hvalues a hmem hq

section Bits

/-- Bits that are read into a number one after the other. -/
theorem foldl_or_shiftLeft (bits : ℕ → ℕ) (hbits : ∀ bit < traceBusKindBits, bits bit ≤ 1) :
    (List.range traceBusKindBits).foldl (fun kind bit => kind ||| bits bit <<< bit) 0 =
      bits 0 + 2 * (bits 1 + 2 * (bits 2 + 2 * (bits 3 + 2 * bits 4))) := by
  have hcases : ∀ a ≤ 1, ∀ b ≤ 1, ∀ c ≤ 1, ∀ d ≤ 1, ∀ e ≤ 1,
      (((((0 ||| a <<< 0) ||| b <<< 1) ||| c <<< 2) ||| d <<< 3) ||| e <<< 4) =
        a + 2 * (b + 2 * (c + 2 * (d + 2 * e))) := by decide
  exact hcases _ (hbits 0 (by decide)) _ (hbits 1 (by decide)) _ (hbits 2 (by decide)) _
    (hbits 3 (by decide)) _ (hbits 4 (by decide))

end Bits

section Witness

variable {witness : BlockCpuWitness} {execution : NativeExecutionClaim}
  (hwitness : HonestWitness witness execution) (position : Fin uniformRowCount)

/-- A column of the table is the number of the witness. -/
theorem busPlane_tableOf (relative : ℕ) : busPlane (tableOf witness.columns position) relative =
    ((witness.packedBusValue relative position : ℕ) : NativeField) := rfl

include hwitness

theorem natCast_packedBusValue_eq_zero (relative : ℕ) :
    busPlane (tableOf witness.columns position) relative = 0 ↔
      witness.packedBusValue relative position = 0 := by
  have hbound : witness.packedBusValue relative position < fieldModulus :=
    (hwitness.bounded _ _).trans (by norm_num)
  rw [busPlane_tableOf, ← Nat.cast_zero, natCast_inj hbound (by norm_num)]

/-- A column that is a bit of the field is a bit. -/
theorem packedBusValue_of_isBit {relative : ℕ}
    (hbit : IsBit (busPlane (tableOf witness.columns position) relative)) :
    witness.packedBusValue relative position =
      bitNat (busPlane (tableOf witness.columns position) relative) := by
  have hbound : witness.packedBusValue relative position < fieldModulus :=
    (hwitness.bounded _ _).trans (by norm_num)
  have hsmall : bitNat (busPlane (tableOf witness.columns position) relative) < fieldModulus :=
    (bitNat_le_one _).trans_lt (by norm_num)
  rw [← natCast_inj hbound hsmall, natCast_bitNat hbit]
  rfl

/-- The kind that is read off the columns of a slot. -/
theorem packedBusKind_eq {slot : ℕ} (hslot : slot < basicBlockBusEventBound) :
    witness.packedBusKind slot position = slotKind (tableOf witness.columns position) slot := by
  have hbits := isBit_slotKindBits (memorySlices hwitness.relation position).toMachineSlices hslot
  have hbit : ∀ bit < traceBusKindBits, witness.packedBusValue (slotStart slot + 1 + bit) position =
      bitNat (busPlane (tableOf witness.columns position) (slotStart slot + 1 + bit)) := by
    intro bit hlt
    refine packedBusValue_of_isBit hwitness position (hbits _ ?_)
    exact List.mem_map.mpr ⟨bit, List.mem_range.mpr hlt, rfl⟩
  rw [BlockCpuWitness.packedBusKind, foldl_or_shiftLeft
    (fun bit => witness.packedBusValue (slotStart slot + 1 + bit) position)]
  · rw [hbit 0 (by decide), hbit 1 (by decide), hbit 2 (by decide), hbit 3 (by decide),
      hbit 4 (by decide)]
    rfl
  · intro bit hlt
    show witness.packedBusValue (slotStart slot + 1 + bit) position ≤ 1
    rw [hbit bit hlt]
    exact bitNat_le_one _

/-- The selected places of a row, in order. -/
def rowPlaces (table : Table) (kind : LogKind) (position : Fin uniformRowCount) : List Place :=
  ((List.range kind.places).filter (fun place =>
    entrySelector (table position) kind place = 1)).map (fun place => (position, place))

/-- A slot is used if its activity column is not zero. -/
theorem packedBusValue_ne_zero {slot : ℕ} (hslot : slot < basicBlockBusEventBound) :
    witness.packedBusValue (slotStart slot) position ≠ 0 ↔
      slotKind (tableOf witness.columns position) slot ≠ 0 := by
  have hactive : slotActiveValue (busPlane (tableOf witness.columns position)) slot = 0 ↔
      witness.packedBusValue (slotStart slot) position = 0 :=
    natCast_packedBusValue_eq_zero hwitness position (slotStart slot)
  rw [not_iff_not, ← hactive,
    slotActiveValue_eq (memorySlices hwitness.relation position).toMachineSlices hslot]
  simp

theorem entrySelector_bus {slot : ℕ} (hslot : slot < basicBlockBusEventBound) :
    entrySelector (tableOf witness.columns position) .bus slot = 1 ↔
      witness.packedBusValue (slotStart slot) position ≠ 0 := by
  rw [packedBusValue_ne_zero hwitness position hslot, entrySelector,
    slotActiveValue_eq (memorySlices hwitness.relation position).toMachineSlices hslot]
  simp

theorem entrySelector_isa {lane : ℕ} (hlane : lane < basicBlockInstructionBound) :
    entrySelector (tableOf witness.columns position) .isa lane = 1 ↔
      witness.columns (laneColumn lane) position ≠ 0 := by
  have hbound : witness.columns (laneColumn lane) position < fieldModulus :=
    (hwitness.bounded _ _).trans (by norm_num)
  have hzero : laneValue (tableOf witness.columns position) lane = 0 ↔
      witness.columns (laneColumn lane) position = 0 := by
    rw [← natCast_inj hbound (by norm_num), Nat.cast_zero]
    rfl
  rw [ne_eq, ← hzero, entrySelector]
  rcases isBit_laneValue (memorySlices hwitness.relation position).toBlockSlices hlane with h | h
  · simp [h]
  · simp [h]

theorem entrySelector_byte_iff {kind : LogKind} (hkind : IsByteLog kind) {slot : ℕ}
    (hslot : slot < basicBlockBusEventBound) :
    entrySelector (tableOf witness.columns position) kind slot = 1 ↔
      witness.packedBusValue (slotStart slot) position ≠ 0 ∧
        witness.packedBusKind slot position ∈ byteCodes kind := by
  rw [entrySelector_byte hwitness.relation hkind position hslot,
    packedBusValue_ne_zero hwitness position hslot, packedBusKind_eq hwitness position hslot]
  have hcodes := (byteCodes_bounds kind).2
  constructor
  · intro h
    have hmem : slotKind (tableOf witness.columns position) slot ∈ byteCodes kind := by
      by_contra hnot
      rw [if_neg hnot] at h
      exact zero_ne_one h
    exact ⟨(hcodes _ hmem).1, hmem⟩
  · rintro ⟨-, hmem⟩
    rw [if_pos hmem]

/-- The entries of an active row are those of its selected places. -/
theorem rowEntries_eq (hactive : (position : ℕ) < witness.activeBlockCount) (kind : LogKind) :
    (witness.rowEntries position kind).map (List.map (Nat.cast : ℕ → NativeField)) =
      (rowPlaces (tableOf witness.columns) kind position).map
        (placeValues (tableOf witness.columns) kind) := by
  have hindex := hwitness.rowBits position hactive
  have hposition := fun place => entryPosition_eq hwitness.relation position kind place
  rw [hindex] at hposition
  cases kind with
  | bus =>
    rw [BlockCpuWitness.rowEntries, rowPlaces, List.map_map, List.map_map]
    refine map_filter_congr ?_ ?_
    · intro slot hslot
      rw [decide_eq_decide, entrySelector_bus hwitness position (List.mem_range.mp hslot)]
    · intro slot hslot _
      have hkind := packedBusKind_eq hwitness position (List.mem_range.mp hslot)
      have hbits := isBit_slotKindBits (memorySlices hwitness.relation position).toMachineSlices
        (List.mem_range.mp hslot)
      show (witness.packedBusEntry position slot).map (Nat.cast : ℕ → NativeField) =
        entryValues (tableOf witness.columns position) .bus slot
      rw [entryValues, hposition slot, packed_eq_natCast hbits, BlockCpuWitness.packedBusEntry,
        hkind]
      rfl
  | input =>
    rw [BlockCpuWitness.rowEntries, rowPlaces, List.map_map, List.map_map]
    refine map_filter_congr ?_ ?_
    · intro slot hslot
      rw [decide_eq_decide,
        entrySelector_byte_iff hwitness position (.inl rfl) (List.mem_range.mp hslot)]
      simp [byteCodes]
    · intro slot hslot hselected
      have hlt := List.mem_range.mp hslot
      rw [decide_eq_true_iff, entrySelector_byte_iff hwitness position (.inl rfl) hlt,
        packedBusKind_eq hwitness position hlt] at hselected
      refine Eq.trans ?_ (placeValues_byte hwitness.relation (.inl rfl)
        (show (position, slot).2 < _ from hlt) hselected.2).symm
      rw [placeByte, ← packedBusKind_eq hwitness position hlt]
      show [_, _] = _
      split <;> rfl
  | output =>
    rw [BlockCpuWitness.rowEntries, rowPlaces, List.map_map, List.map_map]
    refine map_filter_congr ?_ ?_
    · intro slot hslot
      rw [decide_eq_decide,
        entrySelector_byte_iff hwitness position (.inr rfl) (List.mem_range.mp hslot)]
      simp [byteCodes]
    · intro slot _ _
      rfl
  | isa =>
    rw [BlockCpuWitness.rowEntries, rowPlaces, List.map_map, List.map_map]
    refine map_filter_congr ?_ ?_
    · intro lane hlane
      rw [decide_eq_decide, entrySelector_isa hwitness position (List.mem_range.mp hlane)]
    · intro lane _ _
      show (witness.packedIsaEntry position lane).map (Nat.cast : ℕ → NativeField) =
        entryValues (tableOf witness.columns position) .isa lane
      rw [entryValues, hposition lane]
      rfl

/-- No place of a padding row is selected. -/
theorem lt_of_selected {place : Place} {kind : LogKind}
    (hselected : place ∈ selectedPlaces (tableOf witness.columns) kind) :
    (place.1 : ℕ) < witness.activeBlockCount := by
  obtain ⟨hplace, hone⟩ := mem_selectedPlaces.mp hselected
  by_contra hge
  have hbus : ∀ slot < basicBlockBusEventBound,
      witness.packedBusValue (slotStart slot) place.1 = 0 :=
    hwitness.padding place.1 (Nat.le_of_not_lt hge)
  have hbyte : ∀ kind, IsByteLog kind → place.2 < basicBlockBusEventBound →
      entrySelector (tableOf witness.columns place.1) kind place.2 ≠ 1 := by
    intro kind hkind hlt
    rw [Ne, entrySelector_byte_iff hwitness place.1 hkind hlt]
    exact fun h => h.1 (hbus place.2 hlt)
  cases kind with
  | bus => exact (entrySelector_bus hwitness place.1 hplace).mp hone (hbus place.2 hplace)
  | input => exact hbyte .input (.inl rfl) hplace hone
  | output => exact hbyte .output (.inr rfl) hplace hone
  | isa =>
    have hactive := blockActiveValue_of_lane (memorySlices hwitness.relation place.1) hplace hone
    have hcolumn : blockActiveValue (tableOf witness.columns place.1) =
        ((witness.columns blockActive place.1 : ℕ) : NativeField) := rfl
    rw [hcolumn, hwitness.active place.1, if_neg hge, Nat.cast_zero] at hactive
    exact zero_ne_one hactive

omit hwitness in
/-- The selected places of the first rows, in order. -/
def tracePlaces (witness : BlockCpuWitness) (kind : LogKind) : List Place :=
  Ledger.written (fun row => rowPlaces (tableOf witness.columns) kind (Fin.ofNat _ row))
    witness.activeBlockCount

omit hwitness in
theorem mem_rowPlaces {table : Table} {kind : LogKind} {position : Fin uniformRowCount}
    {place : Place} : place ∈ rowPlaces table kind position ↔
      place.1 = position ∧ place ∈ selectedPlaces table kind := by
  rw [rowPlaces, List.mem_map, mem_selectedPlaces]
  constructor
  · rintro ⟨number, hnumber, rfl⟩
    rw [List.mem_filter, List.mem_range, decide_eq_true_iff] at hnumber
    exact ⟨rfl, hnumber⟩
  · rintro ⟨rfl, hlt, hone⟩
    refine ⟨place.2, ?_, rfl⟩
    rw [List.mem_filter, List.mem_range, decide_eq_true_iff]
    exact ⟨hlt, hone⟩

variable (hcapacity : witness.activeBlockCount ≤ uniformRowCount)

include hcapacity

theorem selectedPlaces_val (kind : LogKind) :
    (selectedPlaces (tableOf witness.columns) kind).val =
      (tracePlaces witness kind : Multiset Place) := by
  have hnumber : ∀ row < witness.activeBlockCount,
      ((Fin.ofNat uniformRowCount row : Fin uniformRowCount) : ℕ) = row :=
    fun row hrow => Nat.mod_eq_of_lt (hrow.trans_le hcapacity)
  have hnodup : (tracePlaces witness kind).Nodup := by
    refine Ledger.nodup_written (fun place => (place.1 : ℕ)) ?_ ?_
    · intro row _
      refine (List.Nodup.filter _ List.nodup_range).map ?_
      intro left right heq
      exact (Prod.mk.inj heq).2
    · intro row hrow place hplace
      rw [(mem_rowPlaces.mp hplace).1, hnumber row hrow]
  have heq : selectedPlaces (tableOf witness.columns) kind =
      (tracePlaces witness kind).toFinset := by
    ext place
    rw [List.mem_toFinset, tracePlaces, Ledger.mem_written]
    constructor
    · intro hselected
      have hlt := lt_of_selected hwitness hselected
      refine ⟨place.1, hlt, mem_rowPlaces.mpr ⟨?_, hselected⟩⟩
      exact Fin.ext (hnumber _ hlt).symm
    · rintro ⟨row, -, hplace⟩
      exact (mem_rowPlaces.mp hplace).2
  rw [heq, List.toFinset_val, hnodup.dedup]

omit hwitness hcapacity in
/-- The entries of the active rows. -/
def activeEntries (witness : BlockCpuWitness) (kind : LogKind) : List (List ℕ) :=
  Ledger.written (fun row => witness.rowEntries row kind) witness.activeBlockCount

/-- The entries of the trace are those that are listed. -/
theorem traceEntries_eq (kind : LogKind) : traceEntries (tableOf witness.columns) kind =
    ((activeEntries witness kind).map (List.map (Nat.cast : ℕ → NativeField)) :
      Multiset (List NativeField)) := by
  rw [traceEntries, selectedPlaces_val hwitness hcapacity, Multiset.map_coe, tracePlaces,
    activeEntries, Ledger.written, Ledger.written, List.map_flatMap, List.map_flatMap]
  refine congrArg _ (List.flatMap_congr ?_)
  intro row hrow
  have hlt := List.mem_range.mp hrow
  have hnumber : ((Fin.ofNat uniformRowCount row : Fin uniformRowCount) : ℕ) = row :=
    Nat.mod_eq_of_lt (hlt.trans_le hcapacity)
  have h := rowEntries_eq hwitness (Fin.ofNat uniformRowCount row) (by rwa [hnumber]) kind
  rw [hnumber] at h
  exact h.symm

end Witness

section Columns

/-- Tables that are filled with the entries of four lists. -/
def listedTable (entries : LogKind → List (List NativeField)) : LogTable :=
  fun row => tableColumns entries row

/-- The four lists fit into the tables. -/
structure FitsTable (entries : LogKind → List (List NativeField)) : Prop where
  length : ∀ kind, (entries kind).length ≤ protocolLogRowCount
  width : ∀ kind, ∀ entry ∈ entries kind, entry.length = kind.width - 1

/-- A column of the table of a kind. -/
theorem tableColumns_eq {R : Type*} [NatCast R] (entries : LogKind → List (List R)) (kind : LogKind)
    (row : ℕ) {offset : ℕ} (hoffset : offset < kind.width) :
    tableColumns entries row (kind.start + offset) = tableCell (entries kind) row offset := by
  have hinputStart : LogKind.start .input = 9 := rfl
  have houtputStart : LogKind.start .output = 12 := rfl
  have hisaStart : LogKind.start .isa = 15 := rfl
  cases kind with
  | bus =>
    have hcolumn : LogKind.start .bus + offset = offset := Nat.zero_add offset
    rw [hcolumn]
    exact if_pos (show offset < LogKind.start .input from hoffset)
  | input =>
    have hlt : offset < 3 := hoffset
    refine (if_neg (by omega)).trans ((if_pos (by omega)).trans ?_)
    rw [Nat.add_sub_cancel_left]
  | output =>
    have hlt : offset < 3 := hoffset
    refine (if_neg (by omega)).trans ((if_neg (by omega)).trans ((if_pos (by omega)).trans ?_))
    rw [Nat.add_sub_cancel_left]
  | isa =>
    refine (if_neg (by omega)).trans ((if_neg (by omega)).trans ((if_neg (by omega)).trans ?_))
    rw [Nat.add_sub_cancel_left]

/-- A row that holds an entry. -/
theorem tableCell_some {R : Type*} [NatCast R] {entries : List (List R)} {row : ℕ}
    (h : row < entries.length) (offset : ℕ) : tableCell entries row 0 = ((1 : ℕ) : R) ∧
      tableCell entries row (offset + 1) = entries[row].getD offset ((0 : ℕ) : R) := by
  simp [tableCell, List.getElem?_eq_getElem h]

/-- A row past the entries. -/
theorem tableCell_none {R : Type*} [NatCast R] {entries : List (List R)} {row : ℕ}
    (h : entries.length ≤ row) (offset : ℕ) : tableCell entries row offset = ((0 : ℕ) : R) := by
  simp [tableCell, List.getElem?_eq_none h]

theorem width_pos (kind : LogKind) : 0 < kind.width := by cases kind <;> decide

section Listed

variable (entries : LogKind → List (List NativeField)) (kind : LogKind)

/-- The selectors mark the entries. -/
theorem selector_listedTable (row : Fin protocolLogRowCount) :
    listedTable entries row kind.start = if (row : ℕ) < (entries kind).length then 1 else 0 := by
  have hcell := tableColumns_eq entries kind row (width_pos kind)
  rw [Nat.add_zero] at hcell
  rw [listedTable, hcell]
  split
  case isTrue hlt => rw [(tableCell_some hlt 0).1, Nat.cast_one]
  case isFalse hge => rw [tableCell_none (Nat.le_of_not_lt hge), Nat.cast_zero]

/-- The rows satisfy their constraints. -/
theorem holds_listedTable (row : Fin protocolLogRowCount) :
    Holds (constrainLogRow (listedTable entries row) kind) := by
  rw [constrainLogRow, holds_cons, holds_map, selector_listedTable entries kind row]
  by_cases hlt : (row : ℕ) < (entries kind).length
  · rw [if_pos hlt]
    exact ⟨by simp, fun offset _ => by simp⟩
  · rw [if_neg hlt]
    refine ⟨by simp, fun offset hoffset => ?_⟩
    have hlt' := List.mem_range.mp hoffset
    have hcell := tableColumns_eq entries kind row (show 1 + offset < kind.width by omega)
    rw [tableCell_none (Nat.le_of_not_lt hlt), ← Nat.add_assoc, Nat.cast_zero] at hcell
    rw [listedTable, hcell, zero_mul]

variable {entries} in
/-- The entries of the tables are those of the lists. -/
theorem tableEntries_listedTable (hfits : FitsTable entries) :
    tableEntries (listedTable entries) kind = (entries kind : Multiset (List NativeField)) := by
  have hselected : selectedRows (listedTable entries) kind = Finset.univ.filter
      (fun row : Fin protocolLogRowCount => (row : ℕ) < (entries kind).length) := by
    refine Finset.filter_congr (fun row _ => ?_)
    rw [selector_listedTable entries kind row]
    split <;> simp_all
  rw [tableEntries, hselected]
  refine map_val_filter_lt _ (entries kind) _ (hfits.length kind) ?_
  intro row hlt
  have hentry := hfits.width kind _ (List.getElem_mem hlt)
  refine List.ext_getElem (by simp [rowValues, hentry]) ?_
  intro offset hleft hright
  have hcell := tableColumns_eq entries kind row (show 1 + offset < kind.width by omega)
  rw [Nat.add_comm 1 offset, (tableCell_some hlt offset).2, List.getD_eq_getElem _ _ hright]
    at hcell
  simp only [rowValues, List.getElem_map, List.getElem_range, listedTable]
  rw [Nat.add_assoc, Nat.add_comm 1 offset, hcell]

end Listed

/-- Numbers in a table, read in the field. -/
theorem natCast_tableCell (entries : List (List ℕ)) (row offset : ℕ) :
    ((tableCell entries row offset : ℕ) : NativeField) =
      tableCell (entries.map (List.map (Nat.cast : ℕ → NativeField))) row offset := by
  rw [tableCell, tableCell, List.getElem?_map]
  cases entries[row]? with
  | none => rfl
  | some entry =>
    simp only [Option.map_some]
    split
    · rfl
    · rw [List.getD_eq_getElem?_getD, List.getD_eq_getElem?_getD, List.getElem?_map]
      cases entry[offset - 1]? <;> rfl

theorem logTableOf_tableColumns (entries : LogEntries) :
    logTableOf (fun row column => tableColumns entries row column) =
      listedTable (fun kind => (entries kind).map (List.map (Nat.cast : ℕ → NativeField))) := by
  funext row column
  simp only [logTableOf, listedTable, tableColumns]
  split
  · exact natCast_tableCell _ _ _
  · split
    · exact natCast_tableCell _ _ _
    · split
      · exact natCast_tableCell _ _ _
      · exact natCast_tableCell _ _ _

end Columns

section Honest

open BlockCpuWitness

/-- Every entry of a table fills the columns behind the selector. -/
theorem length_entry {witness : BlockCpuWitness} {kind : LogKind} {entry : List ℕ}
    (hentry : entry ∈ activeEntries witness kind) : entry.length = kind.width - 1 := by
  obtain ⟨row, -, hmem⟩ := Ledger.mem_written.mp hentry
  cases kind <;> obtain ⟨place, -, rfl⟩ := List.mem_map.mp hmem <;> rfl

variable {witness : BlockCpuWitness}

/-- The claim that is made for a trace, and what it has checked. -/
theorem fromTrace_ok {execution : NativeExecutionClaim} {claim : PackedProtocolLogClaim}
    (h : PackedProtocolLogClaim.fromTrace witness execution = .ok claim) :
    execution.activeRowCount.toNat = witness.activeBlockCount ∧
      claim.busEventCount.toNat = witness.busEventCount ∧
      claim.instructionCount.toNat = witness.instructionCount ∧
      claim.validate execution = .ok () := by
  rw [PackedProtocolLogClaim.fromTrace] at h
  split at h
  · cases h
  case isFalse hbounds =>
    obtain ⟨_, hvalid, hclaim⟩ := Except.of_bind_eq_ok h
    have heq := Except.ok.inj hclaim
    subst heq
    have hsize : UInt64.size = 2 ^ 64 := rfl
    refine ⟨by omega, ?_, ?_, hvalid⟩
    · exact UInt64.toNat_ofNat_of_lt' (by omega)
    · exact UInt64.toNat_ofNat_of_lt' (by omega)

/-- A valid claim has counts. -/
theorem counts_of_validate {execution : NativeExecutionClaim} {claim : PackedProtocolLogClaim}
    (h : claim.validate execution = .ok ()) : ∃ counts, claim.counts execution = .ok counts ∧
      counts .bus = claim.busEventCount.toNat ∧ counts .isa = claim.instructionCount.toNat := by
  have hvalid := h
  rw [PackedProtocolLogClaim.validate] at h
  obtain ⟨_, -, h⟩ := Except.of_bind_eq_ok h
  simp only at h
  split at h
  · cases h
  obtain ⟨input, hinput, h⟩ := Except.of_bind_eq_ok h
  obtain ⟨output, houtput, -⟩ := Except.of_bind_eq_ok h
  rw [PackedProtocolLogClaim.counts, hvalid, hinput, houtput]
  exact ⟨_, rfl, rfl, rfl⟩

theorem activeRowCount_le {execution : NativeExecutionClaim} {claim : PackedProtocolLogClaim}
    (h : claim.validate execution = .ok ()) : execution.activeRowCount.toNat ≤ uniformRowCount := by
  rw [PackedProtocolLogClaim.validate] at h
  obtain ⟨_, hvalid, -⟩ := Except.of_bind_eq_ok h
  by_contra hlarge
  have herror : Continuity.validate execution = .error .shape := by
    simp only [Continuity.validate]
    split
    · rfl
    · rw [if_pos (by omega)]
  rw [herror] at hvalid
  cases hvalid

section Argument

variable {execution : NativeExecutionClaim} {claim : PackedProtocolLogClaim}
  (hwitness : HonestWitness witness execution)

include hwitness

/-- The number of entries of a table. -/
theorem length_activeEntries (hcapacity : witness.activeBlockCount ≤ uniformRowCount)
    (kind : LogKind) : (activeEntries witness kind).length =
      (selectedPlaces (tableOf witness.columns) kind).card := by
  have hcards := congrArg Multiset.card (traceEntries_eq hwitness hcapacity kind)
  rw [traceEntries, Multiset.card_map, Multiset.coe_card, List.length_map] at hcards
  exact hcards.symm

omit hwitness in
/-- The entries of the active rows, over the field. -/
def fieldEntries (witness : BlockCpuWitness) (kind : LogKind) : List (List NativeField) :=
  (activeEntries witness kind).map (List.map (Nat.cast : ℕ → NativeField))

/-- The entries of an honest trace fit into the tables. -/
theorem fitsTable_fieldEntries (hcapacity : witness.activeBlockCount ≤ uniformRowCount) :
    FitsTable (fieldEntries witness) where
  length kind := by
    rw [fieldEntries, List.length_map, length_activeEntries hwitness hcapacity]
    exact (card_selectedPlaces_le _ _).trans (by norm_num)
  width kind entry hentry := by
    obtain ⟨numbers, hnumbers, rfl⟩ := List.mem_map.mp hentry
    rw [List.length_map, length_entry hnumbers]

/-- The entries of an honest trace are extracted and committed to. -/
theorem exists_logColumns (hcapacity : witness.activeBlockCount ≤ uniformRowCount) :
    ∃ columns, witness.logColumns = .ok columns ∧
      logTableOf columns = listedTable (fieldEntries witness) := by
  have hextract : witness.extractEntries = .ok (activeEntries witness) := by
    rw [extractEntries]
    refine if_neg ?_
    rw [hwitness.busEvents, hwitness.instructions]
    simp
  have hfits : ∀ kind, ¬ protocolLogRowCount < (activeEntries witness kind).length := by
    intro kind
    have hlength := (fitsTable_fieldEntries hwitness hcapacity).length kind
    rw [fieldEntries, List.length_map] at hlength
    exact Nat.not_lt.mpr hlength
  refine ⟨_, ?_, logTableOf_tableColumns (activeEntries witness)⟩
  rw [logColumns, hextract]
  refine if_neg ?_
  rintro (h | h | h | h)
  · exact hfits .bus h
  · exact hfits .input h
  · exact hfits .output h
  · exact hfits .isa h

/-- Padding rows of an honest prover use no bus slot. -/
theorem paddingSlotsUnused_of_honest : PaddingSlotsUnused (tableOf witness.columns) := by
  intro position hpadding slot hslot
  have hinactive : ¬ (position : ℕ) < witness.activeBlockCount := by
    intro hlt
    have hcolumn : blockActiveValue (tableOf witness.columns position) =
        ((witness.columns blockActive position : ℕ) : NativeField) := rfl
    rw [hcolumn, hwitness.active position, if_pos hlt, Nat.cast_one] at hpadding
    exact one_ne_zero hpadding
  exact (natCast_packedBusValue_eq_zero hwitness position (slotStart slot)).mpr
    (hwitness.padding position (Nat.le_of_not_lt hinactive) slot hslot)

/-- Every selected place of an honest trace sits in an active row. -/
theorem activePlaces_of_honest (kind : LogKind) :
    activePlaces (tableOf witness.columns) kind =
      selectedPlaces (tableOf witness.columns) kind := by
  refine Finset.filter_true_of_mem ?_
  intro place hplace
  rw [activeRows, Finset.mem_filter]
  refine ⟨Finset.mem_univ _, ?_⟩
  show ((witness.columns blockActive place.1 : ℕ) : NativeField) = 1
  rw [hwitness.active place.1, if_pos (lt_of_selected hwitness hplace), Nat.cast_one]

/-- The tables of an honest prover exist and satisfy what is asked of them. -/
theorem logArgument_of_honest
    (hclaim : PackedProtocolLogClaim.fromTrace witness execution = .ok claim) :
    ∃ columns, witness.logColumns = .ok columns ∧
      LogArgument (tableOf witness.columns) execution claim (logTableOf columns) := by
  obtain ⟨hrows, hbus, hinstructions, hvalid⟩ := fromTrace_ok hclaim
  have hcapacity : witness.activeBlockCount ≤ uniformRowCount := by
    rw [← hrows]
    exact activeRowCount_le hvalid
  obtain ⟨columns, hcolumns, htable⟩ := exists_logColumns hwitness hcapacity
  have hfits := fitsTable_fieldEntries hwitness hcapacity
  obtain ⟨counts, hcounts, hbusCount, hisaCount⟩ := counts_of_validate hvalid
  obtain ⟨hpositive, hcursors⟩ := counts_ok hcounts
  obtain ⟨order, horder⟩ := TaggedChain.exists_chain (produced_eq_consumed
    (binaryTable hwitness.relation) hwitness.continuity) hpositive
  refine ⟨columns, hcolumns, ?_⟩
  rw [htable]
  refine ⟨hwitness.relation, hwitness.continuity, fun row kind => holds_listedTable _ kind row,
    fun kind => ?_, counts, hcounts, ?_⟩
  · rw [traceEntries_eq hwitness hcapacity, tableEntries_listedTable kind hfits, fieldEntries]
  · intro kind
    have hbyte : IsByteLog kind → (activeEntries witness kind).length = counts kind := by
      intro hkind
      have hfinal := boundaryCursor_final hwitness.relation hpositive horder hkind
      have hcursor := hcursors kind hkind
      rw [activePlaces_of_honest hwitness] at hfinal
      rw [length_activeEntries hwitness hcapacity]
      omega
    have hlength : (activeEntries witness kind).length = counts kind := by
      cases kind with
      | bus => rw [hbusCount, hbus, hwitness.busEvents]; rfl
      | input => exact hbyte (.inl rfl)
      | output => exact hbyte (.inr rfl)
      | isa => rw [hisaCount, hinstructions, hwitness.instructions]; rfl
    rw [sum_selectors (fun row kind => holds_listedTable _ kind row),
      tableEntries_listedTable kind hfits, Multiset.coe_card, fieldEntries, List.length_map,
      hlength]

end Argument

end Honest

end Logs

end Zksm83
