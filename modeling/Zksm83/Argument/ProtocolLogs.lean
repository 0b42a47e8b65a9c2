import Zksm83.Argument.HonestLogs
import Zksm83.Soundness.HaltOutcome

/-!
# Exactness of the protocol logs

The log argument makes the tables exact if and only if no padding row uses a bus slot, and the
tables of an honest prover are exact. A table of three written rows shows that the relation leaves
the slots of padding rows free.
-/

namespace Zksm83

open Constraint BlockMetadata BlockBoundary BlockFrontend BlockBus Reading

namespace Logs

open Continuity Forgery HaltOutcome

/-- The logs are exact if and only if no padding row uses a bus slot, and an honest prover's tables
exist, satisfy the equalities and are exact. -/
theorem protocolLogs_exact_iff (execution : NativeExecutionClaim) (claim : PackedProtocolLogClaim) :
    (∀ table logs, LogArgument table execution claim logs →
      (LogsExact table execution logs ↔ PaddingSlotsUnused table)) ∧
    ∀ witness, HonestWitness witness execution →
      PackedProtocolLogClaim.fromTrace witness execution = .ok claim →
      ∃ columns, witness.logColumns = .ok columns ∧
        LogArgument (tableOf witness.columns) execution claim (logTableOf columns) ∧
        LogsExact (tableOf witness.columns) execution (logTableOf columns) := by
  refine ⟨fun table logs hlogs => logsExact_iff_padding hlogs, ?_⟩
  intro witness hwitness hclaim
  obtain ⟨columns, hcolumns, hlogs⟩ := logArgument_of_honest hwitness hclaim
  exact ⟨columns, hcolumns, hlogs,
    (logsExact_iff_padding hlogs).mpr (paddingSlotsUnused_of_honest hwitness)⟩

/-- A padding row: the ISA queries of its lanes are padding queries. -/
def paddingCells : Assignment :=
  isaCells [isaPaddingAddress, isaPaddingAddress, isaPaddingAddress, isaPaddingAddress]

/-- A padding row whose first bus slot is used. -/
def strayCells : Assignment := paddingCells ++ busCells 0 8 0 0 0

def paddingNumber : ℕ := Assignment.packed 128 paddingCells

def strayNumber : ℕ := Assignment.packed 128 strayCells

/-- The kinds of entries that a written row has in its first place; it has no others. -/
def Carries (number : ℕ) (kinds : List LogKind) : Prop :=
  ∀ kind ∈ [LogKind.bus, .input, .output, .isa], ∀ place < kind.places,
    (entrySelector (Assignment.residueRow fieldModulus 128 number) kind place).val =
      if kind ∈ kinds ∧ place = 0 then 1 else 0

instance (number : ℕ) (kinds : List LogKind) : Decidable (Carries number kinds) :=
  inferInstanceAs (Decidable (∀ kind ∈ _, _))

/-- The number that is written down for a row: a HALT, then a given row, then padding. -/
def rowNumber (second position : ℕ) : ℕ :=
  if position = 0 then haltNumber else if position = 1 then second else paddingNumber

/-- A table with one active row. -/
def haltTable (second : ℕ) : Table := fun position => nativeRow (rowNumber second position)

/-- The public state before or after the HALT. -/
def haltBoundary (after : Bool) : NativeStateBoundary where
  scalars scalar := .ofNat
    (rowState haltResidues after scalar).val

def haltExecution : NativeExecutionClaim := ⟨1, 1, haltBoundary false, haltBoundary true⟩

/-- The written HALT as an honest prover's columns. -/
def haltWitness : BlockCpuWitness where
  columns column row :=
    (Assignment.residueRow fieldModulus 128 (rowNumber paddingNumber row) column).val
  activeBlockCount := 1
  busEventCount := 1
  instructionCount := 1

/-- Segments of a hundred columns of a written row with small columns. -/
def SmallColumns (number segments : ℕ) : Prop :=
  number < 2 ^ (12800 * segments) ∧
    (List.range segments).all (fun segment => (List.range 100).all (fun column =>
      (number >>> (12800 * segment) % 2 ^ 12800) >>> (128 * column) % 2 ^ 128 < 2 ^ 64)) = true

instance (number segments : ℕ) : Decidable (SmallColumns number segments) :=
  inferInstanceAs (Decidable (_ ∧ _))

/-- What is read off the columns of the three rows. -/
structure LogReading : Prop where
  boundary : ∀ (after : Bool) (scalar : Fin stateScalarCount),
    (rowState haltResidues after scalar).val < 2 ^ 64
  haltActive : (Assignment.residueRow fieldModulus 128 haltNumber 0).val = 1
  paddingActive : (Assignment.residueRow fieldModulus 128 paddingNumber 0).val = 0
  strayActive : (Assignment.residueRow fieldModulus 128 strayNumber 0).val = 0
  rowIndex : ∀ number ∈ [haltNumber, strayNumber], (BlockMemory.memoryRowIndexValue
    (Assignment.residueRow fieldModulus 128 number)).val = 0
  rowBits : ∀ bit < uniformNumVariables, (Assignment.residueRow fieldModulus 128 haltNumber
    (BlockMemory.blockMemoryAuxStart + BlockMemory.rowBitsStart + bit)).val = 0 / 2 ^ bit % 2
  halt : Carries haltNumber [.bus, .isa]
  padding : Carries paddingNumber []
  stray : Carries strayNumber [.bus]
  unused : ∀ slot < basicBlockBusEventBound, (Assignment.residueRow fieldModulus 128
    paddingNumber (BlockIsaControl.columnCount + slotStart slot)).val = 0
  haltColumns : SmallColumns haltNumber 70
  paddingColumns : SmallColumns paddingNumber 70
  strayValid : (⟨2, 1⟩ : PackedProtocolLogClaim).validate haltExecution = .ok ()
  haltValid : (⟨.ofNat 1, .ofNat 1⟩ : PackedProtocolLogClaim).validate haltExecution = .ok ()
  cursors : ∀ kind ∈ [LogKind.input, .output],
    boundaryCursor haltExecution.initialState kind = 0 ∧
      boundaryCursor haltExecution.finalState kind = 0
  busEvents : haltWitness.busEventCount = ((List.range haltWitness.activeBlockCount).flatMap
    (fun row => haltWitness.rowEntries row .bus)).length
  instructions : haltWitness.instructionCount = ((List.range haltWitness.activeBlockCount).flatMap
    (fun row => haltWitness.rowEntries row .isa)).length

/-- What is read off the three rows. The padding rows satisfy the packed CPU relation, with and
without the event. -/
theorem logRows_read : LogReading ∧ Holds (BlockCpu.evaluate (nativeRow paddingNumber)) ∧
    Holds (BlockCpu.evaluate (nativeRow strayNumber)) :=
  ⟨⟨by decide +kernel, by decide +kernel, by decide +kernel, by decide +kernel, by decide +kernel,
    by decide +kernel, by decide +kernel, by decide +kernel, by decide +kernel, by decide +kernel,
    by decide +kernel, by decide +kernel, by decide +kernel, by decide +kernel, by decide +kernel,
    by decide +kernel, by decide +kernel⟩,
    holds_pairRow (BlockCpu.all_evaluate _ _ (by decide +kernel) (by decide +kernel)
      (by decide +kernel) (by decide +kernel) (by decide +kernel) (by decide +kernel)
      (by decide +kernel))⟩

theorem logReading : LogReading := logRows_read.1

theorem paddingRows_hold : Holds (BlockCpu.evaluate (nativeRow paddingNumber)) ∧
    Holds (BlockCpu.evaluate (nativeRow strayNumber)) :=
  logRows_read.2

theorem boundaryState_halt (after : Bool) :
    boundaryState (haltBoundary after) = stateOf haltRow after := by
  funext scalar
  rw [boundaryState, haltBoundary]
  rw [show ∀ n : ℕ, n < 2 ^ 64 → (UInt64.ofNat n).toNat = n from
    fun n hn => UInt64.toNat_ofNat_of_lt' hn]
  · rw [stateOf]
    unfold rowState
    split <;> rfl
  · exact logReading.boundary after scalar

section Table

variable (second : ℕ)

theorem haltTable_zero : haltTable second 0 = haltRow := by
  have hzero : ((0 : Fin uniformRowCount) : ℕ) = 0 := rfl
  rw [haltTable, rowNumber, if_pos hzero]
  rfl

theorem blockActive_haltTable (hsecond : (Assignment.residueRow fieldModulus 128 second 0).val = 0)
    (position : Fin uniformRowCount) :
    blockActiveValue (haltTable second position) = if position = 0 then 1 else 0 := by
  by_cases hzero : position = 0
  · rw [if_pos hzero, hzero, haltTable_zero, blockActiveValue, haltRow,
      nativeRow_eq logReading.haltActive, Nat.cast_one]
  · rw [haltTable, rowNumber, blockActiveValue]
    have hval : (position : ℕ) ≠ 0 := fun h => hzero (Fin.ext h)
    rw [if_neg hzero, if_neg hval]
    split
    · rw [nativeRow_eq hsecond, Nat.cast_zero]
    · rw [nativeRow_eq logReading.paddingActive, Nat.cast_zero]


theorem haltTable_holds (hsecond : Holds (BlockCpu.evaluate (nativeRow second)))
    (position : Fin uniformRowCount) : Holds (BlockCpu.evaluate (haltTable second position)) := by
  rw [haltTable, rowNumber]
  split
  · exact haltRow_holds
  · split
    · exact hsecond
    · exact paddingRows_hold.1

theorem activeRows_haltTable (hsecond : (Assignment.residueRow fieldModulus 128 second 0).val = 0) :
    activeRows (haltTable second) = {0} := by
  ext position
  rw [activeRows, Finset.mem_filter, blockActive_haltTable second hsecond, Finset.mem_singleton]
  constructor
  · rintro ⟨-, hone⟩
    by_contra hne
    rw [if_neg hne] at hone
    exact zero_ne_one hone
  · rintro rfl
    exact ⟨Finset.mem_univ _, if_pos rfl⟩

theorem memoryRowIndexValue_haltRow : BlockMemory.memoryRowIndexValue haltRow = 0 := by
  have hzero := logReading.rowIndex haltNumber (by simp)
  rw [haltRow, nativeRow, ← BlockMemory.map_memoryRowIndexValue]
  exact (congrArg (Nat.cast : ℕ → NativeField) hzero).trans Nat.cast_zero

theorem haltTable_balances
    (hsecond : (Assignment.residueRow fieldModulus 128 second 0).val = 0) :
    producedStates (haltTable second) haltExecution =
      consumedStates (haltTable second) haltExecution := by
  simp only [producedStates, consumedStates, activeRows_haltTable second hsecond,
    Finset.singleton_val, Multiset.map_singleton, haltTable_zero, memoryRowIndexValue_haltRow,
    haltExecution, boundaryState_halt, zero_add]
  rw [add_comm]
  rfl

end Table

/-- The selectors of a written row. -/
theorem entrySelector_nativeRow {number : ℕ} {kind : LogKind} {place n : ℕ}
    (h : (entrySelector (Assignment.residueRow fieldModulus 128 number) kind place).val = n) :
    entrySelector (nativeRow number) kind place = (n : NativeField) := by
  have hmap : (Residue.toZMod fieldModulus)
      (entrySelector (Assignment.residueRow fieldModulus 128 number) kind place) =
      entrySelector (nativeRow number) kind place := by
    cases kind <;> simp [entrySelector, nativeRow]
  rw [← hmap, ← h]
  rfl

/-- The entries of a written row. -/
theorem entrySelector_of_carries {number : ℕ} {kinds : List LogKind} (h : Carries number kinds)
    {kind : LogKind} {place : ℕ} (hplace : place < kind.places) :
    entrySelector (nativeRow number) kind place = 1 ↔ kind ∈ kinds ∧ place = 0 := by
  rw [entrySelector_nativeRow (h kind (by cases kind <;> simp) place hplace)]
  split <;> simp_all

/-- The places of the HALT and of a row behind it. -/
def haltPlaces (kinds : List LogKind) (kind : LogKind) : List Place :=
  (if kind ∈ [LogKind.bus, LogKind.isa] then [(0, 0)] else []) ++
    (if kind ∈ kinds then [(1, 0)] else [])

theorem selectedPlaces_haltTable {second : ℕ} {kinds : List LogKind}
    (hsecond : Carries second kinds) (kind : LogKind) :
    selectedPlaces (haltTable second) kind = (haltPlaces kinds kind).toFinset := by
  have hpositive : 0 < kind.places := by cases kind <;> decide
  have hone : ((1 : Fin uniformRowCount) : ℕ) = 1 := rfl
  ext ⟨position, place⟩
  rw [mem_selectedPlaces, List.mem_toFinset, haltPlaces, List.mem_append]
  have hzeroIff : (position, place) ∈ (if kind ∈ [LogKind.bus, LogKind.isa] then
      [((0 : Fin uniformRowCount), 0)] else []) ↔
      kind ∈ [LogKind.bus, LogKind.isa] ∧ position = 0 ∧ place = 0 := by
    split <;> simp_all
  have honeIff : (position, place) ∈ (if kind ∈ kinds then
      [((1 : Fin uniformRowCount), 0)] else []) ↔ kind ∈ kinds ∧ position = 1 ∧ place = 0 := by
    split <;> simp_all
  rw [hzeroIff, honeIff]
  have hrows := fun number kinds (h : Carries number kinds) =>
    and_congr_right (fun hplace : place < kind.places => entrySelector_of_carries h hplace)
  show place < kind.places ∧
    entrySelector (nativeRow (rowNumber second position)) kind place = 1 ↔ _
  by_cases hzero : position = 0
  · rw [hzero, show rowNumber second ((0 : Fin uniformRowCount) : ℕ) = haltNumber from if_pos rfl,
      hrows _ _ logReading.halt]
    have hne : (0 : Fin uniformRowCount) ≠ 1 := by
      intro h
      exact absurd (congrArg Fin.val h) (by rw [hone]; exact zero_ne_one)
    constructor
    · rintro ⟨-, hkind, rfl⟩
      exact .inl ⟨hkind, rfl, rfl⟩
    · rintro (⟨hkind, -, rfl⟩ | ⟨-, habsurd, -⟩)
      · exact ⟨hpositive, hkind, rfl⟩
      · exact absurd habsurd hne
  · have hval : (position : ℕ) ≠ 0 := fun h => hzero (Fin.ext h)
    by_cases hsecondRow : position = 1
    · rw [hsecondRow, show rowNumber second ((1 : Fin uniformRowCount) : ℕ) = second from rfl,
        hrows _ _ hsecond]
      constructor
      · rintro ⟨-, hkind, rfl⟩
        exact .inr ⟨hkind, rfl, rfl⟩
      · rintro (⟨-, habsurd, -⟩ | ⟨hkind, -, rfl⟩)
        · exact absurd (hsecondRow.trans habsurd) hzero
        · exact ⟨hpositive, hkind, rfl⟩
    · have hvalOne : (position : ℕ) ≠ 1 := fun h => hsecondRow (Fin.ext (h.trans hone.symm))
      rw [show rowNumber second position = paddingNumber from
        (if_neg hval).trans (if_neg hvalOne), hrows _ _ logReading.padding]
      constructor
      · rintro ⟨-, habsurd, -⟩
        cases habsurd
      · rintro (⟨-, habsurd, -⟩ | ⟨-, habsurd, -⟩)
        · exact absurd habsurd hzero
        · exact absurd habsurd hsecondRow

theorem nodup_haltPlaces (kinds : List LogKind) (kind : LogKind) :
    (haltPlaces kinds kind).Nodup := by
  have hne : (0 : Fin uniformRowCount) ≠ 1 := by
    intro h
    exact absurd (congrArg Fin.val h) zero_ne_one
  rw [haltPlaces]
  split <;> split <;> simp [hne]

/-- The entries of a table with one HALT. -/
def haltEntries (second : ℕ) (kinds : List LogKind) (kind : LogKind) : List (List NativeField) :=
  (haltPlaces kinds kind).map (placeValues (haltTable second) kind)

theorem length_placeValues (table : Table) (kind : LogKind) (place : Place) :
    (placeValues table kind place).length = kind.width - 1 := by
  cases kind <;> rfl

theorem fitsTable_haltEntries (second : ℕ) (kinds : List LogKind) :
    FitsTable (haltEntries second kinds) where
  length kind := by
    rw [haltEntries, List.length_map, haltPlaces]
    split <;> split <;> norm_num
  width kind entry hentry := by
    obtain ⟨place, -, rfl⟩ := List.mem_map.mp hentry
    exact length_placeValues _ _ _

/-- The log argument accepts the forged trace with the stray event. -/
theorem logArgument_stray : LogArgument (haltTable strayNumber) haltExecution ⟨2, 1⟩
    (listedTable (haltEntries strayNumber [.bus])) := by
  obtain ⟨counts, hcounts, hbus, hisa⟩ := counts_of_validate logReading.strayValid
  have hfits := fitsTable_haltEntries strayNumber [.bus]
  refine ⟨haltTable_holds _ paddingRows_hold.2, haltTable_balances _ logReading.strayActive,
    fun row kind => holds_listedTable _ kind row, ?_, counts, hcounts, ?_⟩
  · intro kind
    rw [tableEntries_listedTable kind hfits, traceEntries,
      selectedPlaces_haltTable logReading.stray, List.toFinset_val, (nodup_haltPlaces _ _).dedup, Multiset.map_coe, haltEntries]
  · intro kind
    rw [sum_selectors (fun row kind => holds_listedTable _ kind row),
      tableEntries_listedTable kind hfits, Multiset.coe_card, haltEntries, List.length_map]
    have hcursors := (counts_ok hcounts).2
    have hlength : (haltPlaces [.bus] kind).length = counts kind := by
      cases kind with
      | bus => rw [hbus]; rfl
      | input =>
        have hcursor := hcursors .input (.inl rfl)
        obtain ⟨hinitial, hfinal⟩ := logReading.cursors .input (by simp)
        rw [show (haltPlaces [.bus] .input).length = 0 from rfl]
        omega
      | output =>
        have hcursor := hcursors .output (.inr rfl)
        obtain ⟨hinitial, hfinal⟩ := logReading.cursors .output (by simp)
        rw [show (haltPlaces [.bus] .output).length = 0 from rfl]
        omega
      | isa => rw [hisa]; rfl
    rw [hlength]

/-- The columns of a written row are small if those of its segments are. -/
theorem residueRow_lt {number segments : ℕ} (hsmall : SmallColumns number segments) (column : ℕ) :
    (Assignment.residueRow fieldModulus 128 number column).val < 2 ^ 64 := by
  obtain ⟨hnumber, hcolumns⟩ := hsmall
  show number >>> (128 * column) % 2 ^ 128 < 2 ^ 64
  by_cases hcolumn : column < 100 * segments
  · have hsegment := List.all_eq_true.mp hcolumns (column / 100) (List.mem_range.mpr (by omega))
    have hlt := List.all_eq_true.mp hsegment (column % 100) (List.mem_range.mpr (by omega))
    refine lt_of_eq_of_lt ?_ (of_decide_eq_true hlt)
    refine Nat.eq_of_testBit_eq (fun bit => ?_)
    rw [Nat.testBit_mod_two_pow, Nat.testBit_mod_two_pow, Nat.testBit_shiftRight,
      Nat.testBit_shiftRight, Nat.testBit_mod_two_pow, Nat.testBit_shiftRight]
    by_cases hbit : bit < 128
    · have hposition : 12800 * (column / 100) + (128 * (column % 100) + bit) =
          128 * column + bit := by omega
      have hinside : 128 * (column % 100) + bit < 12800 := by omega
      rw [hposition, decide_eq_true hinside, Bool.true_and]
    · rw [decide_eq_false hbit, Bool.false_and, Bool.false_and]
  · have hpower : 2 ^ (12800 * segments) ≤ 2 ^ (128 * column) :=
      Nat.pow_le_pow_right (by norm_num) (by omega)
    rw [Nat.shiftRight_eq_div_pow, Nat.div_eq_of_lt (hnumber.trans_le hpower)]
    norm_num

theorem haltWitness_honest : HonestWitness haltWitness haltExecution where
  bounded column row := by
    show (Assignment.residueRow fieldModulus 128 (rowNumber paddingNumber row) column).val < 2 ^ 64
    rw [rowNumber]
    split
    · exact residueRow_lt logReading.haltColumns column
    · rw [ite_self]
      exact residueRow_lt logReading.paddingColumns column
  relation position := haltTable_holds paddingNumber paddingRows_hold.1 position
  continuity := haltTable_balances paddingNumber logReading.paddingActive
  active position := by
    show (Assignment.residueRow fieldModulus 128 (rowNumber paddingNumber position) 0).val =
      if (position : ℕ) < 1 then 1 else 0
    rw [rowNumber, ite_self]
    by_cases hzero : (position : ℕ) = 0
    · rw [if_pos hzero, if_pos (by omega), logReading.haltActive]
    · rw [if_neg hzero, if_neg (by omega), logReading.paddingActive]
  rowBits position hposition := by
    have hlt : (position : ℕ) < 1 := hposition
    have hzero : (position : ℕ) = 0 := by omega
    have hrow : tableOf haltWitness.columns position = nativeRow haltNumber := by
      show nativeRow (rowNumber paddingNumber position) = nativeRow haltNumber
      rw [rowNumber, if_pos hzero]
    rw [hrow, hzero, rowIndex, BlockMemory.memoryPlane, columnsNat_slice]
    exact columnsNat_nativeRow _ 0 (by norm_num) logReading.rowBits
  padding position hposition slot hslot := by
    have hge : 1 ≤ (position : ℕ) := hposition
    show (Assignment.residueRow fieldModulus 128 (rowNumber paddingNumber position)
      (BlockIsaControl.columnCount + slotStart slot)).val = 0
    rw [rowNumber, ite_self, if_neg (by omega)]
    exact logReading.unused slot hslot
  busEvents := logReading.busEvents
  instructions := logReading.instructions

/-- The forged trace with the stray event meets the hypothesis of the first part, the written HALT
those of the second. -/
theorem protocolLogs_exact_iff_halt :
    LogArgument (haltTable strayNumber) haltExecution ⟨2, 1⟩
      (listedTable (haltEntries strayNumber [.bus])) ∧
    (LogsExact (haltTable strayNumber) haltExecution
        (listedTable (haltEntries strayNumber [.bus])) ↔
      PaddingSlotsUnused (haltTable strayNumber)) ∧
    HonestWitness haltWitness haltExecution ∧
    PackedProtocolLogClaim.fromTrace haltWitness haltExecution = .ok ⟨1, 1⟩ ∧
    ∃ columns, haltWitness.logColumns = .ok columns ∧
      LogsExact (tableOf haltWitness.columns) haltExecution (logTableOf columns) := by
  have hclaim : PackedProtocolLogClaim.fromTrace haltWitness haltExecution = .ok ⟨1, 1⟩ := by
    rw [PackedProtocolLogClaim.fromTrace, if_neg (by decide)]
    show (PackedProtocolLogClaim.validate ⟨.ofNat 1, .ofNat 1⟩ haltExecution >>= fun _ => _) = _
    rw [logReading.haltValid]
    rfl
  obtain ⟨columns, hcolumns, -, hexact⟩ :=
    (protocolLogs_exact_iff haltExecution ⟨1, 1⟩).2 haltWitness haltWitness_honest hclaim
  have hpadding := (protocolLogs_exact_iff haltExecution ⟨2, 1⟩).1 _ _ logArgument_stray
  exact ⟨logArgument_stray, hpadding, haltWitness_honest, hclaim, columns, hcolumns, hexact⟩

/-- The forged trace satisfies every equality, and its bus table is not exact: it holds an event of
a padding row, under the position of the opcode fetch of the HALT. -/
theorem protocolLogs_not_exact_stray :
    LogArgument (haltTable strayNumber) haltExecution ⟨2, 1⟩
      (listedTable (haltEntries strayNumber [.bus])) ∧
    ¬ LogsExact (haltTable strayNumber) haltExecution
      (listedTable (haltEntries strayNumber [.bus])) ∧
    ¬ Set.InjOn (fun place : Place => entryPosition (haltTable strayNumber place.1) .bus place.2)
      (selectedPlaces (haltTable strayNumber) .bus) := by
  have hmem : ∀ place ∈ haltPlaces [.bus] .bus,
      place ∈ selectedPlaces (haltTable strayNumber) .bus := by
    intro place hplace
    rw [selectedPlaces_haltTable logReading.stray, List.mem_toFinset]
    exact hplace
  have hne : (0 : Fin uniformRowCount) ≠ 1 := by
    intro h
    exact absurd (congrArg Fin.val h) zero_ne_one
  have hpadding : blockActiveValue (haltTable strayNumber 1) = 0 := by
    rw [blockActive_haltTable strayNumber logReading.strayActive, if_neg hne.symm]
  have hactive : slotActiveValue (busPlane (haltTable strayNumber 1)) 0 = 1 :=
    (mem_selectedPlaces.mp (hmem (1, 0) (by simp [haltPlaces]))).2
  refine ⟨logArgument_stray, ?_, ?_⟩
  · intro hexact
    have hunused := paddingSlotsUnused logArgument_stray hexact.bus 1 hpadding 0 (by norm_num)
    exact one_ne_zero (hactive.symm.trans hunused)
  · intro hdistinct
    have hstray : BlockMemory.memoryRowIndexValue (haltTable strayNumber 1) = 0 := by
      have hzero := logReading.rowIndex strayNumber (by simp)
      show BlockMemory.memoryRowIndexValue (nativeRow strayNumber) = 0
      rw [nativeRow, ← BlockMemory.map_memoryRowIndexValue]
      exact (congrArg (Nat.cast : ℕ → NativeField) hzero).trans Nat.cast_zero
    have heq := hdistinct (hmem (0, 0) (by simp [haltPlaces])) (hmem (1, 0) (by simp [haltPlaces]))
      (by
        simp only [entryPosition]
        rw [hstray, haltTable_zero, memoryRowIndexValue_haltRow])
    exact hne (congrArg Prod.fst heq)

end Logs

end Zksm83
