import Zksm83.Argument.MemoryEvents

/-!
# Balanced memory events form a history

If the tokens of the initial memory and of the events balance against those that the events consume
and those of the final memory, then the events in the order of their timestamps are a history of the
memory from its initial to its final bytes; and inverse columns that belong to such events pass the
check, those of the relation and those of an honest prover alike. Read `offline_memory` first.
-/

namespace Zksm83

open Constraint BlockFrontend BlockBus

namespace MemoryArgument

open Continuity OfflineMemory

/-- A memory event of a trace. -/
abbrev MemoryEvent : Type := Event (Fin memoryImageBytes) ℕ

/-- A token over the field. -/
def fieldToken (token : Token (Fin memoryImageBytes) ℕ) : NativeField × NativeField × NativeField :=
  (((token.1 : ℕ) : NativeField), ((token.2.1 : ℕ) : NativeField),
    ((token.2.2 : ℕ) : NativeField))

/-- A bus slot of a row. -/
abbrev SlotPlace : Type := Fin uniformRowCount × Fin busSlots

/-- The slots that carry a memory event. -/
noncomputable def selectedSlots (table : Table) : Finset SlotPlace :=
  Finset.univ.filter (fun place => BlockMemory.memorySelectorValue (table place.1) place.2 = 1)

/-- The selected slots of a table carry the tokens of some events. -/
structure Carries (table : Table) (events : List MemoryEvent) : Prop where
  selectors : ∀ position, ∀ slot < busSlots,
    IsBit (BlockMemory.memorySelectorValue (table position) slot)
  tokens : (selectedSlots table).val.map (fun place =>
      (slotConsumed (table place.1) place.2, slotProduced (table place.1) place.2)) =
    (events.map (fun event => (fieldToken event.consumed, fieldToken event.produced)) :
      Multiset ((NativeField × NativeField × NativeField) ×
        (NativeField × NativeField × NativeField)))

/-- The inverse of the distance between the evaluation point and a token. -/
def tokenInverse (challenges : MemoryChallenges)
    (token : NativeField × NativeField × NativeField) : NativeField :=
  (challenges.beta - compress challenges.alpha token)⁻¹

/-- The joined inverse columns of the trace: an unselected slot has no inverse. -/
structure TraceInverses (table : Table) (challenges : MemoryChallenges)
    (columns : ℕ → Fin uniformRowCount → NativeField) : Prop where
  consumed : ∀ position, ∀ slot < busSlots,
    joinLimbs (columns slot position) (columns (slot + busSlots) position) =
      if BlockMemory.memorySelectorValue (table position) slot = 1 then
        tokenInverse challenges (slotConsumed (table position) slot) else 0
  produced : ∀ position, ∀ slot < busSlots,
    joinLimbs (columns (busSlots * 2 + slot) position)
        (columns (busSlots * 2 + slot + busSlots) position) =
      if BlockMemory.memorySelectorValue (table position) slot = 1 then
        tokenInverse challenges (slotProduced (table position) slot) else 0

/-- The joined inverse columns of a memory table with the given tokens. -/
def TableInverses (challenges : MemoryChallenges) (token : Fin memoryImageBytes → NativeField)
    (columns : ℕ → Fin memoryImageBytes → NativeField) : Prop :=
  ∀ address, joinLimbs (columns 0 address) (columns 1 address) =
    (challenges.beta - token address)⁻¹

/-- Committed columns as lists. -/
def columnLists {rows : ℕ} (count : ℕ) (columns : ℕ → Fin rows → NativeField) :
    List (List NativeField) :=
  (List.range count).map (fun column => List.ofFn (columns column))

section Check

theorem evaluateFieldColumn_ofFn {count : ℕ} (hcount : count < 64)
    (column : Fin (2 ^ count) → NativeField) :
    ∃ value, evaluateFieldColumn count (List.ofFn column) = .ok value ∧
      ((2 ^ count : ℕ) : NativeField) * value = ∑ position, column position := by
  obtain ⟨value, hvalue, hsum⟩ := FieldFold.evaluateMle_half two_ne_zero_native hcount
    (List.ofFn column) List.length_ofFn
  refine ⟨value, ?_, ?_⟩
  · rw [evaluateFieldColumn, Nat.cast_ofNat, hvalue]
    rfl
  · rw [List.sum_ofFn] at hsum
    rw [← hsum, Nat.cast_pow, Nat.cast_ofNat]

/-- Several columns evaluate to their means. -/
theorem mapM_evaluateFieldColumn {count : ℕ} (hcount : count < 64) (width : ℕ)
    (columns : ℕ → Fin (2 ^ count) → NativeField) :
    ∃ values : ℕ → NativeField,
      (columnLists width columns).mapM (evaluateFieldColumn count) =
        .ok ((List.range width).map values) ∧
      ∀ column, ((2 ^ count : ℕ) : NativeField) * values column =
        ∑ position, columns column position := by
  choose values hvalues hsums using fun column => evaluateFieldColumn_ofFn hcount (columns column)
  refine ⟨values, ?_, hsums⟩
  rw [columnLists, Except.mapM_eq_ok, List.forall₂_map_left_iff,
    List.forall₂_map_right_iff, List.forall₂_same]
  intro column _
  exact hvalues column

/-- A step of a sum in `checkEquality`. -/
def traceStep (values : List NativeField) (sum : NativeField) (slot : ℕ) :
    Except MutableMemoryError NativeField := do
  let input ← joinedTrace values slot
  let output ← joinedTrace values (busSlots * 2 + slot)
  pure (sum + output - input)

theorem joinedTrace_range (values : ℕ → NativeField) (low : ℕ)
    (hlow : low + busSlots < inverseColumnCount) :
    joinedTrace ((List.range inverseColumnCount).map values) low =
      .ok (joinLimbs (values low) (values (low + busSlots))) := by
  have hleft : ((List.range inverseColumnCount).map values)[low]? = some (values low) := by
    rw [List.getElem?_map, List.getElem?_range (Nat.lt_of_le_of_lt (Nat.le_add_right _ _) hlow)]
    rfl
  have hright : ((List.range inverseColumnCount).map values)[low + busSlots]? =
      some (values (low + busSlots)) := by
    rw [List.getElem?_map, List.getElem?_range hlow]
    rfl
  rw [joinedTrace, hleft, hright]

/-- The difference between the produced and the consumed inverses, over all slots. -/
theorem foldlM_traceStep (values : ℕ → NativeField) (slots : List ℕ) (sum : NativeField)
    (hslots : ∀ slot ∈ slots, slot < busSlots) :
    slots.foldlM (traceStep ((List.range inverseColumnCount).map values)) sum =
      .ok (sum + (slots.map (fun slot =>
        joinLimbs (values (busSlots * 2 + slot)) (values (busSlots * 2 + slot + busSlots)) -
          joinLimbs (values slot) (values (slot + busSlots)))).sum) := by
  induction slots generalizing sum with
  | nil =>
    rw [List.map_nil, List.sum_nil, add_zero]
    rfl
  | cons slot rest ih =>
    have hslot : slot < 5 := hslots slot List.mem_cons_self
    have hinput := joinedTrace_range values slot (by show slot + 5 < 20; omega)
    have houtput := joinedTrace_range values (busSlots * 2 + slot)
      (by show 5 * 2 + slot + 5 < 20; omega)
    rw [List.foldlM_cons, traceStep, hinput, houtput]
    change rest.foldlM _ (sum + joinLimbs _ _ - joinLimbs _ _) = _
    rw [ih _ (fun other hother => hslots other (List.mem_cons_of_mem _ hother)), List.map_cons,
      List.sum_cons]
    refine congrArg Except.ok ?_
    ring

end Check

/-- A sum over the selected slots. -/
theorem sum_selectedSlots (table : Table)
    (f : Row NativeField → ℕ → NativeField) :
    ∑ slot ∈ Finset.range busSlots, ∑ position,
        (if BlockMemory.memorySelectorValue (table position) slot = 1 then
          f (table position) slot else 0) =
      ((selectedSlots table).val.map (fun place => f (table place.1) place.2)).sum := by
  rw [Finset.sum_range, Finset.sum_comm, ← Fintype.sum_prod_type', ← Finset.sum_filter]
  rfl

/-- The tokens of the slots have the sum of the tokens of the events. -/
theorem Carries.sum_eq {table : Table} {events : List MemoryEvent} (h : Carries table events)
    (f : (NativeField × NativeField × NativeField) × (NativeField × NativeField × NativeField) →
      NativeField) :
    ((selectedSlots table).val.map (fun place =>
        f (slotConsumed (table place.1) place.2, slotProduced (table place.1) place.2))).sum =
      (events.map (fun event => f (fieldToken event.consumed, fieldToken event.produced))).sum := by
  have hsum := congrArg (fun tokens => (Multiset.map f tokens).sum) h.tokens
  simp only [Multiset.map_map, Multiset.map_coe, Multiset.sum_coe, List.map_map] at hsum
  exact hsum

section Accept

variable {table : Table} {events : List MemoryEvent} {tables : Boundary.Tables}
  {challenges : MemoryChallenges} (hcarries : Carries table events)
  (hbalance : Balanced tables.initial (fun _ => 0) events tables.final tables.timestamps)

include hcarries hbalance

/-- The inverses of the produced tokens exceed those of the consumed ones as the inverses of the
final cells exceed those of the initial ones. -/
theorem sum_tokenInverse :
    ∑ address, (challenges.beta - Boundary.initialToken tables challenges address)⁻¹ +
        ((selectedSlots table).val.map (fun place =>
          tokenInverse challenges (slotProduced (table place.1) place.2))).sum =
      ((selectedSlots table).val.map (fun place =>
          tokenInverse challenges (slotConsumed (table place.1) place.2))).sum +
        ∑ address, (challenges.beta - Boundary.finalToken tables challenges address)⁻¹ := by
  have hsum := hbalance.sum_eq (fun token => tokenInverse challenges (fieldToken token))
  have hinitial : ∀ address, tokenInverse challenges
      (fieldToken (address, tables.initial address, 0)) =
      (challenges.beta - Boundary.initialToken tables challenges address)⁻¹ := by
    intro address
    simp only [tokenInverse, compress, fieldToken, Boundary.initialToken, Nat.cast_zero, mul_zero,
      add_zero]
  rw [hcarries.sum_eq (fun pair => tokenInverse challenges pair.2),
    hcarries.sum_eq (fun pair => tokenInverse challenges pair.1),
    ← Finset.sum_congr rfl (fun address _ => hinitial address)]
  exact hsum

/-- The inverses of a balanced trace and of its boundary tables pass the check. -/
theorem evaluateAndCheck_of_inverses {trace : ℕ → Fin uniformRowCount → NativeField}
    {initial final : ℕ → Fin memoryImageBytes → NativeField}
    (htrace : TraceInverses table challenges trace)
    (hinitial : TableInverses challenges (Boundary.initialToken tables challenges) initial)
    (hfinal : TableInverses challenges (Boundary.finalToken tables challenges) final) :
    evaluateAndCheck (columnLists inverseColumnCount trace) (columnLists 2 initial)
      (columnLists 2 final) = .ok () := by
  obtain ⟨traceValues, htraceValues, htraceSum⟩ := mapM_evaluateFieldColumn
    (show uniformNumVariables < 64 by norm_num) inverseColumnCount trace
  obtain ⟨initialValues, hinitialValues, hinitialSum⟩ := mapM_evaluateFieldColumn
    (show memoryTableNumVariables < 64 by decide) 2 initial
  obtain ⟨finalValues, hfinalValues, hfinalSum⟩ := mapM_evaluateFieldColumn
    (show memoryTableNumVariables < 64 by decide) 2 final
  rw [evaluateAndCheck, htraceValues, hinitialValues, hfinalValues]
  change checkEquality ((List.range inverseColumnCount).map traceValues)
    ((List.range 2).map initialValues) ((List.range 2).map finalValues) = _
  have hdelta := foldlM_traceStep traceValues (List.range busSlots) 0
    (fun slot hslot => List.mem_range.mp hslot)
  rw [zero_add] at hdelta
  have hslots : ((uniformRowCount : ℕ) : NativeField) * ((List.range busSlots).map (fun slot =>
      joinLimbs (traceValues (busSlots * 2 + slot)) (traceValues (busSlots * 2 + slot + busSlots)) -
        joinLimbs (traceValues slot) (traceValues (slot + busSlots)))).sum =
      ((selectedSlots table).val.map (fun place =>
        tokenInverse challenges (slotProduced (table place.1) place.2))).sum -
      ((selectedSlots table).val.map (fun place =>
        tokenInverse challenges (slotConsumed (table place.1) place.2))).sum := by
    rw [← sum_selectedSlots table (fun row slot => tokenInverse challenges (slotProduced row slot)),
      ← sum_selectedSlots table (fun row slot => tokenInverse challenges (slotConsumed row slot)),
      ← Finset.sum_sub_distrib, ← List.sum_map_mul_left, ← List.sum_toFinset _ List.nodup_range,
      List.toFinset_range]
    refine Finset.sum_congr rfl (fun slot hslot => ?_)
    have hlt := Finset.mem_range.mp hslot
    rw [mul_sub, joinLimbs_sum _ _ _ _ _ (htraceSum _) (htraceSum _),
      joinLimbs_sum _ _ _ _ _ (htraceSum _) (htraceSum _)]
    exact congrArg₂ (· - ·)
      (Finset.sum_congr rfl (fun position _ => htrace.produced position slot hlt))
      (Finset.sum_congr rfl (fun position _ => htrace.consumed position slot hlt))
  have hinitials : ((memoryImageBytes : ℕ) : NativeField) *
      joinLimbs (initialValues 0) (initialValues 1) =
      ∑ address, (challenges.beta - Boundary.initialToken tables challenges address)⁻¹ := by
    rw [joinLimbs_sum _ _ _ _ _ (hinitialSum 0) (hinitialSum 1)]
    exact Finset.sum_congr rfl (fun address _ => hinitial address)
  have hfinals : ((memoryImageBytes : ℕ) : NativeField) *
      joinLimbs (finalValues 0) (finalValues 1) =
      ∑ address, (challenges.beta - Boundary.finalToken tables challenges address)⁻¹ := by
    rw [joinLimbs_sum _ _ _ _ _ (hfinalSum 0) (hfinalSum 1)]
    exact Finset.sum_congr rfl (fun address _ => hfinal address)
  have hequation := @sum_tokenInverse _ _ _ challenges hcarries hbalance
  rw [← hinitials, ← hfinals] at hequation
  rw [checkEquality, if_neg (by simp)]
  change ((List.range busSlots).foldlM (traceStep ((List.range inverseColumnCount).map
    traceValues)) 0 >>= fun traceDelta =>
      if ((memoryImageBytes : ℕ) : NativeField) *
          (joinLimbs (initialValues 0) (initialValues 1) -
            joinLimbs (finalValues 0) (finalValues 1)) +
        ((uniformRowCount : ℕ) : NativeField) * traceDelta ≠ 0 then
        Except.error MutableMemoryError.unsatisfied else .ok ()) = _
  rw [hdelta]
  refine if_neg (not_not.mpr ?_)
  rw [hslots]
  linear_combination hequation

end Accept

/-- A trace row followed by its inverse columns. -/
def joinInverses (row : Row NativeField) (inverses : ℕ → NativeField) : Row NativeField :=
  fun column =>
    if column < BlockCpu.columnCount then row column
    else inverses (column - BlockCpu.columnCount)

section Joined

variable (row : Row NativeField) (inverses : ℕ → NativeField)

theorem joinInverses_trace {column : ℕ} (hcolumn : column < BlockCpu.columnCount) :
    joinInverses row inverses column = row column := if_pos hcolumn

theorem inverseValue_joinInverses (low : ℕ) :
    inverseValue (joinInverses row inverses) low =
      joinLimbs (inverses low) (inverses (low + busSlots)) := by
  have hcolumn : ∀ column, joinInverses row inverses (BlockCpu.columnCount + column) =
      inverses column := by
    intro column
    rw [joinInverses, if_neg (by omega), Nat.add_sub_cancel_left]
  rw [inverseValue, hcolumn, Nat.add_assoc, hcolumn]

theorem memoryPlane_joinInverses {column : ℕ} (hcolumn : column < 1266) :
    BlockMemory.memoryPlane (joinInverses row inverses) column =
      BlockMemory.memoryPlane row column := by
  refine joinInverses_trace row inverses ?_
  show 3338 + column < 4604
  omega

theorem busPlane_joinInverses {column : ℕ} (hcolumn : column < 336) :
    busPlane (joinInverses row inverses) column = busPlane row column := by
  refine joinInverses_trace row inverses ?_
  show BlockIsaControl.columnCount + column < 4604
  exact lt_of_lt_of_le (Nat.add_lt_add_left hcolumn _) (by decide)

theorem packedBits_memoryPlane_joinInverses {start width : ℕ} (hwidth : start + width ≤ 1266) :
    packedBits (BlockMemory.memoryPlane (joinInverses row inverses)) start width =
      packedBits (BlockMemory.memoryPlane row) start width := by
  simp only [packedBits]
  refine congrArg packed (List.map_congr_left ?_)
  intro bit hbit
  have hlt := List.mem_range.mp hbit
  exact memoryPlane_joinInverses row inverses (by omega)

variable {slot : ℕ} (hslot : slot < busSlots)

include hslot

theorem memorySelectorValue_joinInverses :
    BlockMemory.memorySelectorValue (joinInverses row inverses) slot =
      BlockMemory.memorySelectorValue row slot := by
  refine memoryPlane_joinInverses row inverses ?_
  change slot < 5 at hslot
  show 0 + 14 + slot * 36 + 0 < 1266
  omega

theorem memoryWriteSelectorValue_joinInverses :
    BlockMemory.memoryWriteSelectorValue (joinInverses row inverses) slot =
      BlockMemory.memoryWriteSelectorValue row slot := by
  refine memoryPlane_joinInverses row inverses ?_
  change slot < 5 at hslot
  show 0 + 14 + slot * 36 + 1 < 1266
  omega

theorem memoryPredecessorValue_joinInverses :
    BlockMemory.memoryPredecessorValue (joinInverses row inverses) slot =
      BlockMemory.memoryPredecessorValue row slot := by
  refine packedBits_memoryPlane_joinInverses row inverses ?_
  change slot < 5 at hslot
  show 0 + 14 + slot * 36 + 2 + 17 ≤ 1266
  omega

theorem slotFieldValue_joinInverses {offset : ℕ} (hoffset : offset < traceBusSlotWidth) :
    slotFieldValue (busPlane (joinInverses row inverses)) slot offset =
      slotFieldValue (busPlane row) slot offset := by
  refine busPlane_joinInverses row inverses ?_
  change slot < 5 at hslot
  change offset < 12 at hoffset
  show 6 + slot * 12 + offset < 336
  omega

/-- The inverse columns of a row do not take part in its tokens. -/
theorem slotConsumed_joinInverses :
    slotConsumed (joinInverses row inverses) slot = slotConsumed row slot := by
  simp only [slotConsumed, slotPhysicalAddressValue, slotBeforeValue, slotValueValue]
  rw [slotFieldValue_joinInverses row inverses hslot (by decide),
    slotFieldValue_joinInverses row inverses hslot (by decide),
    slotFieldValue_joinInverses row inverses hslot (by decide),
    memorySelectorValue_joinInverses row inverses hslot,
    memoryWriteSelectorValue_joinInverses row inverses hslot,
    memoryPredecessorValue_joinInverses row inverses hslot]

theorem slotProduced_joinInverses :
    slotProduced (joinInverses row inverses) slot = slotProduced row slot := by
  have hindex : BlockMemory.memoryRowIndexValue (joinInverses row inverses) =
      BlockMemory.memoryRowIndexValue row :=
    packedBits_memoryPlane_joinInverses row inverses (by decide)
  simp only [slotProduced, slotPhysicalAddressValue, slotValueValue, hindex]
  rw [slotFieldValue_joinInverses row inverses hslot (by decide),
    slotFieldValue_joinInverses row inverses hslot (by decide)]

end Joined

/-- The inverse columns satisfy `BlockMemoryEventRelation` on every row. -/
def RelationHolds (table : Table) (challenges : MemoryChallenges)
    (columns : ℕ → Fin uniformRowCount → NativeField) : Prop :=
  ∀ position, Holds (evaluate challenges.alpha challenges.beta
    (joinInverses (table position) (fun column => columns column position)))

/-- No token of a slot meets the evaluation point. -/
structure SlotsAvoid (table : Table) (challenges : MemoryChallenges) : Prop where
  consumed : ∀ position, ∀ slot < busSlots,
    challenges.beta - compress challenges.alpha (slotConsumed (table position) slot) ≠ 0
  produced : ∀ position, ∀ slot < busSlots,
    challenges.beta - compress challenges.alpha (slotProduced (table position) slot) ≠ 0

/-- Inverse columns that satisfy the relation are the inverses of the tokens. -/
theorem traceInverses_of_relation {table : Table} {challenges : MemoryChallenges}
    {columns : ℕ → Fin uniformRowCount → NativeField}
    (hselectors : ∀ position, ∀ slot < busSlots,
      IsBit (BlockMemory.memorySelectorValue (table position) slot))
    (havoid : SlotsAvoid table challenges) (hrelation : RelationHolds table challenges columns) :
    TraceInverses table challenges columns := by
  constructor
  · intro position slot hslot
    have hrow := hrelation position
    simp only [evaluate, holds_append, holds_map, List.mem_range] at hrow
    have h := hrow.1 slot hslot
    rw [slotConsumed_joinInverses _ _ hslot, memorySelectorValue_joinInverses _ _ hslot,
      inverseValue_joinInverses] at h
    exact eq_of_selected (havoid.consumed position slot hslot) (hselectors position slot hslot) h
  · intro position slot hslot
    have hrow := hrelation position
    simp only [evaluate, holds_append, holds_map, List.mem_range] at hrow
    have h := hrow.2 slot hslot
    rw [slotProduced_joinInverses _ _ hslot, memorySelectorValue_joinInverses _ _ hslot,
      inverseValue_joinInverses] at h
    exact eq_of_selected (havoid.produced position slot hslot) (hselectors position slot hslot) h

/-- The joined inverse columns of both memory tables satisfy the identity of the boundary sumcheck
at every address, whatever factor mixes its two halves. -/
def BoundaryHolds (tables : Boundary.Tables) (challenges : MemoryChallenges)
    (initial final : ℕ → Fin memoryImageBytes → NativeField) : Prop :=
  ∀ mix address, ((Boundary.relationTerms tables challenges mix 1 address
    (joinLimbs (initial 0 address) (initial 1 address))
    (joinLimbs (final 0 address) (final 1 address))).map
      (fun term => term.1 * term.2.1 * term.2.2)).sum = 0

/-- Inverse columns that satisfy the boundary identity are the inverses of the cells. -/
theorem tableInverses_of_boundary {tables : Boundary.Tables} {challenges : MemoryChallenges}
    {initial final : ℕ → Fin memoryImageBytes → NativeField}
    (h : BoundaryHolds tables challenges initial final) :
    TableInverses challenges (Boundary.initialToken tables challenges) initial ∧
      TableInverses challenges (Boundary.finalToken tables challenges) final := by
  have hinitial : ∀ address,
      (challenges.beta - Boundary.initialToken tables challenges address) *
        joinLimbs (initial 0 address) (initial 1 address) = 1 := by
    intro address
    have hzero := h 0 address
    simp only [Boundary.relationTerms, List.map_cons, List.map_nil, List.sum_cons,
      List.sum_nil] at hzero
    linear_combination hzero
  refine ⟨fun address => eq_inv_of_mul_eq_one_right (hinitial address), fun address => ?_⟩
  refine eq_inv_of_mul_eq_one_right ?_
  have hone := h 1 address
  simp only [Boundary.relationTerms, List.map_cons, List.map_nil, List.sum_cons,
    List.sum_nil] at hone
  linear_combination hone - hinitial address

/-- What an honest prover writes in the memory columns of a trace: its numbers have 64 bits, its
selectors and packed bits are bits, and a write is selected. -/
structure HonestColumns (trace : TraceColumns) : Prop where
  bounded : ∀ column row, trace column row < 2 ^ 64
  selectors : ∀ row, ∀ slot < busSlots,
    trace (packedMemoryColumn (BlockMemory.slotStart slot + BlockMemory.slotSelectorOffset)) row ≤ 1
  writes : ∀ row, ∀ slot < busSlots,
    trace (packedMemoryColumn (BlockMemory.slotStart slot + BlockMemory.slotWriteSelectorOffset))
        row ≤
      trace (packedMemoryColumn (BlockMemory.slotStart slot + BlockMemory.slotSelectorOffset)) row
  predecessors : ∀ row, ∀ slot < busSlots, ∀ bit < traceMemoryTimestampBits,
    trace (packedMemoryColumn
      (BlockMemory.slotStart slot + BlockMemory.slotPredecessorBitsOffset) + bit) row ≤ 1
  rowBits : ∀ row, ∀ bit < uniformNumVariables,
    trace (packedMemoryColumn BlockMemory.rowBitsStart + bit) row ≤ 1

section Honest

variable {trace : TraceColumns}

/-- Bits of a trace that are read into a number. -/
theorem packedTraceBits_eq {start width row : ℕ} (hwidth : width ≤ 64)
    (hbits : ∀ bit < width, trace (start + bit) row ≤ 1) :
    packedTraceBits trace start width row =
      columnsNat (traceRow trace row) start width := by
  have hbitNat : ∀ bit < width, bitNat (traceRow trace row (start + bit)) =
      trace (start + bit) row := by
    intro bit hlt
    have hle := hbits bit hlt
    rw [traceRow]
    interval_cases trace (start + bit) row
    · simp [bitNat]
    · simp [bitNat]
  induction width with
  | zero => rfl
  | succ width ih =>
    have hlt := columnsNat_lt (traceRow trace row) start width
    have hbit := hbits width (Nat.lt_succ_self width)
    have hshift : trace (start + width) row <<< width % 2 ^ 64 =
        2 ^ width * trace (start + width) row := by
      rw [Nat.shiftLeft_eq, mul_comm]
      refine Nat.mod_eq_of_lt ?_
      calc 2 ^ width * trace (start + width) row ≤ 2 ^ width * 1 := Nat.mul_le_mul_left _ hbit
        _ = 2 ^ width := mul_one _
        _ < 2 ^ 64 := Nat.pow_lt_pow_right (by norm_num) hwidth
    have hrest := ih (Nat.le_of_succ_le hwidth) (fun bit hlt => hbits bit (Nat.lt_succ_of_lt hlt))
      (fun bit hlt => hbitNat bit (Nat.lt_succ_of_lt hlt))
    rw [packedTraceBits] at hrest
    rw [packedTraceBits, List.range_succ, List.foldl_append, hrest, columnsNat_add,
      columnsNat_one, hbitNat width (Nat.lt_succ_self width), List.foldl_cons, List.foldl_nil,
      hshift, Nat.lor_comm, ← Nat.two_pow_add_eq_or_of_lt hlt, add_comm]

/-- A packed part of the memory plane is the number that an honest prover reads. -/
theorem natCast_packedTraceBits {start width row : ℕ} (hwidth : width ≤ 64)
    (hbits : ∀ bit < width, trace (packedMemoryColumn start + bit) row ≤ 1) :
    ((packedTraceBits trace (packedMemoryColumn start) width row : ℕ) : NativeField) =
      packedBits (BlockMemory.memoryPlane (traceRow trace row)) start width := by
  have hisBit : ∀ bit < width,
      IsBit (BlockMemory.memoryPlane (traceRow trace row) (start + bit)) := by
    intro bit hlt
    have hle := hbits bit hlt
    rw [BlockMemory.memoryPlane, slice_apply, ← Nat.add_assoc]
    change IsBit ((trace (packedMemoryColumn start + bit) row : ℕ) : NativeField)
    interval_cases trace (packedMemoryColumn start + bit) row
    · rw [Nat.cast_zero]
      exact isBit_zero
    · rw [Nat.cast_one]
      exact isBit_one
  rw [packedTraceBits_eq hwidth hbits, packedBits_eq_natCast hisBit, BlockMemory.memoryPlane,
    columnsNat_slice]
  rfl

theorem checked_eq {value : ℕ} (hvalue : value < 2 ^ 64) : checked value = .ok value :=
  if_pos hvalue

/-- The value that a slot of an honest prover finds is that of the relation. -/
theorem inputValue_eq {selected write before after : ℕ} (hselected : selected ≤ 1)
    (hwrite : write ≤ selected) (hbefore : before < 2 ^ 64) (hafter : after < 2 ^ 64) :
    ∃ found, inputValue selected write before after = .ok found ∧
      ((found : ℕ) : NativeField) = ((write : ℕ) : NativeField) * ((before : ℕ) : NativeField) +
        (((selected : ℕ) : NativeField) - ((write : ℕ) : NativeField)) *
          ((after : ℕ) : NativeField) := by
  have hwritten : write * before < 2 ^ 64 := by
    calc write * before ≤ 1 * before := Nat.mul_le_mul_right _ (hwrite.trans hselected)
      _ < 2 ^ 64 := by rwa [one_mul]
  have hread : (selected - write) * after < 2 ^ 64 := by
    calc (selected - write) * after ≤ 1 * after :=
          Nat.mul_le_mul_right _ ((Nat.sub_le _ _).trans hselected)
      _ < 2 ^ 64 := by rwa [one_mul]
  have hsum : write * before + (selected - write) * after < 2 ^ 64 := by
    interval_cases selected
    · interval_cases write
      simp
    · interval_cases write
      · simpa using hafter
      · simpa using hbefore
  refine ⟨write * before + (selected - write) * after, ?_, ?_⟩
  · rw [inputValue, checked_eq hwritten]
    change (if write ≤ selected then checked ((selected - write) * after) >>=
      fun read => checked (write * before + read) else Except.error MutableMemoryError.shape) = _
    rw [if_pos hwrite, checked_eq hread]
    exact checked_eq hsum
  · rw [Nat.cast_add, Nat.cast_mul, Nat.cast_mul, Nat.cast_sub hwrite]

variable (challenges : MemoryChallenges) (hhonest : HonestColumns trace)

/-- The request for an inverse of a trace row. -/
def slotRequest (trace : TraceColumns) (row slot : ℕ)
    (token : NativeField × NativeField × NativeField) : SelectedDenominator NativeField :=
  ⟨BlockMemory.memorySelectorValue (traceRow trace row) slot,
    challenges.beta - compress challenges.alpha token⟩

include hhonest

/-- The requests of a slot are those of the tokens of the relation. -/
theorem slotRequests_eq (row : ℕ) {slot : ℕ} (hslot : slot < busSlots) :
    slotRequests trace challenges row slot =
      .ok (slotRequest challenges trace row slot (slotConsumed (traceRow trace row) slot),
        slotRequest challenges trace row slot (slotProduced (traceRow trace row) slot)) := by
  obtain ⟨found, hfound, hfoundValue⟩ := inputValue_eq (hhonest.selectors row slot hslot)
    (hhonest.writes row slot hslot)
    (hhonest.bounded (packedBusColumn (slotStart slot + busBeforeOffset)) row)
    (hhonest.bounded (packedBusColumn (slotStart slot + busValueOffset)) row)
  have hpredecessor := @natCast_packedTraceBits trace _ _ row
    (show traceMemoryTimestampBits ≤ 64 by decide) (hhonest.predecessors row slot hslot)
  have hindex := @natCast_packedTraceBits trace _ _ row
    (show uniformNumVariables ≤ 64 by norm_num) (hhonest.rowBits row)
  have hindexLt : packedTraceBits trace (packedMemoryColumn BlockMemory.rowBitsStart)
      uniformNumVariables row < 2 ^ 14 := by
    rw [packedTraceBits_eq (by norm_num) (hhonest.rowBits row)]
    exact columnsNat_lt _ _ _
  have hslotLt : slot < 5 := hslot
  have hscaled : packedTraceBits trace (packedMemoryColumn BlockMemory.rowBitsStart)
      uniformNumVariables row * busSlots < 2 ^ 64 := by
    change _ * 5 < _
    omega
  have hcurrent : packedTraceBits trace (packedMemoryColumn BlockMemory.rowBitsStart)
      uniformNumVariables row * busSlots + (slot + 1) < 2 ^ 64 := by
    change _ * 5 + _ < _
    omega
  rw [slotRequests, checked_eq hscaled]
  change checked (_ + (slot + 1)) >>= _ = _
  rw [checked_eq hcurrent]
  change inputValue _ _ _ _ >>= _ = _
  rw [hfound]
  refine congrArg Except.ok (congrArg₂ Prod.mk ?_ ?_)
  · refine congrArg (SelectedDenominator.mk _) (congrArg (challenges.beta - ·) ?_)
    refine congrArg (compress challenges.alpha) (congrArg (Prod.mk _) (congrArg₂ Prod.mk ?_ ?_))
    · exact hfoundValue
    · exact hpredecessor
  · refine congrArg (SelectedDenominator.mk _) (congrArg (challenges.beta - ·) ?_)
    refine congrArg (compress challenges.alpha) (congrArg (Prod.mk _) (congrArg (Prod.mk _) ?_))
    rw [Nat.cast_add, Nat.cast_mul, hindex]
    rfl

/-- The requests of a row, the consumed tokens first. -/
def rowRequests (trace : TraceColumns) (row : ℕ) (entry : Fin inverseEntryCount) :
    SelectedDenominator NativeField :=
  if (entry : ℕ) < busSlots then
    slotRequest challenges trace row entry (slotConsumed (traceRow trace row) entry)
  else slotRequest challenges trace row (entry - busSlots)
    (slotProduced (traceRow trace row) (entry - busSlots))

theorem inverseRow_eq (row : ℕ) :
    inverseRow trace challenges row = .ok (rowRequests challenges trace row, ()) := by
  have hslots : (List.range busSlots).mapM (slotRequests trace challenges row) =
      .ok ((List.range busSlots).map (fun slot =>
        (slotRequest challenges trace row slot (slotConsumed (traceRow trace row) slot),
          slotRequest challenges trace row slot (slotProduced (traceRow trace row) slot)))) :=
    FieldBatch.mapM_eq_ok
      (fun slot hslot => slotRequests_eq challenges hhonest row (List.mem_range.mp hslot))
  rw [inverseRow, hslots]
  refine congrArg Except.ok (congrArg (Prod.mk · ()) (funext fun entry => ?_))
  have hentry : (entry : ℕ) < 10 := entry.isLt
  simp only [rowRequests]
  split
  case isTrue hlt =>
    rw [List.map_map, List.getD_eq_getElem?_getD, List.getElem?_map, List.getElem?_range hlt]
    rfl
  case isFalse hge =>
    have hlt : (entry : ℕ) - busSlots < busSlots := by
      change ¬ (entry : ℕ) < 5 at hge
      show (entry : ℕ) - 5 < 5
      omega
    rw [List.map_map, List.getD_eq_getElem?_getD, List.getElem?_map, List.getElem?_range hlt]
    rfl

end Honest

/-- The committed columns of an honest prover over the field. -/
def fieldColumns {width : ℕ} (columns : Fin width → List ℕ) : List (List NativeField) :=
  List.ofFn (fun column => (columns column).map (fun number => ((number : ℕ) : NativeField)))

/-- Columns that hold one encoded row for each position. -/
theorem fieldColumns_eq {width rows : ℕ} [NeZero width] (encoded : ℕ → Fin width → ℕ) :
    fieldColumns (fun column => (List.range rows).map (fun row => encoded row column)) =
      columnLists width (fun column (position : Fin rows) =>
        ((encoded position (Fin.ofNat width column) : ℕ) : NativeField)) := by
  refine List.ext_getElem (by simp [fieldColumns, columnLists]) ?_
  intro column hleft hright
  have hcolumn : column < width := by simpa [fieldColumns] using hleft
  refine List.ext_getElem (by simp [fieldColumns, columnLists]) ?_
  intro row _ _
  have hofNat : (⟨column, hcolumn⟩ : Fin width) = Fin.ofNat width column :=
    Fin.ext (Nat.mod_eq_of_lt hcolumn).symm
  simp only [fieldColumns, columnLists, List.getElem_ofFn, List.getElem_map, List.getElem_range]
  rw [hofNat]

/-- A request whose denominator does not vanish is answered by its inverse. -/
theorem answer_eq {selected denominator : NativeField} (hselected : IsBit selected) :
    (FieldBatch.answer ⟨selected, denominator⟩).denominator =
      if selected = 1 then denominator⁻¹ else 0 := by
  simp only [FieldBatch.answer]
  rcases hselected with hzero | hone
  · rw [if_pos hzero, if_neg (by rw [hzero]; exact zero_ne_one)]
  · rw [if_neg (by rw [hone]; exact one_ne_zero), if_pos hone, hone, one_div]

section HonestColumns

variable {table : Table} {challenges : MemoryChallenges}

/-- No token of a selected slot meets the evaluation point. -/
structure SelectedAvoid (table : Table) (challenges : MemoryChallenges) : Prop where
  consumed : ∀ position, ∀ slot < busSlots,
    BlockMemory.memorySelectorValue (table position) slot = 1 →
    challenges.beta - compress challenges.alpha (slotConsumed (table position) slot) ≠ 0
  produced : ∀ position, ∀ slot < busSlots,
    BlockMemory.memorySelectorValue (table position) slot = 1 →
    challenges.beta - compress challenges.alpha (slotProduced (table position) slot) ≠ 0

/-- The limbs of the answered requests of a row. -/
def encodedRow (challenges : MemoryChallenges) (trace : TraceColumns) (row : ℕ)
    (column : Fin inverseColumnCount) : ℕ :=
  let limbs := fun entry : ℕ => splitField
    (FieldBatch.answer (rowRequests challenges trace row (Fin.ofNat _ entry))).denominator
  if (column : ℕ) < busSlots then (limbs column).1
  else if (column : ℕ) < busSlots * 2 then (limbs (column - busSlots)).2
  else if (column : ℕ) < busSlots * 3 then (limbs (column - busSlots)).1
  else (limbs (column - busSlots * 2)).2

/-- The limbs of a row join to the answers of its requests. -/
theorem joinLimbs_encodedRow (trace : TraceColumns) (row : ℕ) {slot : ℕ} (hslot : slot < busSlots) :
    (∀ low high : Fin inverseColumnCount, (low : ℕ) = slot → (high : ℕ) = slot + busSlots →
      joinLimbs ((encodedRow challenges trace row low : ℕ) : NativeField)
          ((encodedRow challenges trace row high : ℕ) : NativeField) =
        (FieldBatch.answer
          (rowRequests challenges trace row (Fin.ofNat _ slot))).denominator) ∧
    ∀ low high : Fin inverseColumnCount, (low : ℕ) = busSlots * 2 + slot →
      (high : ℕ) = busSlots * 2 + slot + busSlots →
      joinLimbs ((encodedRow challenges trace row low : ℕ) : NativeField)
          ((encodedRow challenges trace row high : ℕ) : NativeField) =
        (FieldBatch.answer
          (rowRequests challenges trace row (Fin.ofNat _ (slot + busSlots)))).denominator := by
  change slot < 5 at hslot
  refine ⟨?_, ?_⟩
  · intro low high hlow hhigh
    change (high : ℕ) = slot + 5 at hhigh
    have hfirst : (low : ℕ) < busSlots := hlow.trans_lt hslot
    have hsecond : ¬ (high : ℕ) < busSlots := by
      show ¬ (high : ℕ) < 5
      omega
    have hthird : (high : ℕ) < busSlots * 2 := by
      show (high : ℕ) < 5 * 2
      omega
    have hentry : (high : ℕ) - busSlots = slot := by
      show (high : ℕ) - 5 = slot
      omega
    simp only [encodedRow]
    rw [if_pos hfirst, if_neg hsecond, if_pos hthird, hlow, hentry]
    exact joinLimbs_splitField _
  · intro low high hlow hhigh
    change (low : ℕ) = 5 * 2 + slot at hlow
    change (high : ℕ) = 5 * 2 + slot + 5 at hhigh
    have hlarge : ∀ column : ℕ, 10 ≤ column → ¬ column < busSlots ∧ ¬ column < busSlots * 2 := by
      intro column hcolumn
      exact ⟨not_lt_of_ge (le_trans (by decide) hcolumn), not_lt_of_ge hcolumn⟩
    have hthird : (low : ℕ) < busSlots * 3 := by
      show (low : ℕ) < 5 * 3
      omega
    have hlast : ¬ (high : ℕ) < busSlots * 3 := by
      show ¬ (high : ℕ) < 5 * 3
      omega
    have hlowEntry : (low : ℕ) - busSlots = slot + busSlots := by
      show (low : ℕ) - 5 = slot + 5
      omega
    have hhighEntry : (high : ℕ) - busSlots * 2 = slot + busSlots := by
      show (high : ℕ) - 5 * 2 = slot + 5
      omega
    obtain ⟨hlowFirst, hlowSecond⟩ := hlarge low (by omega)
    obtain ⟨hhighFirst, hhighSecond⟩ := hlarge high (by omega)
    simp only [encodedRow]
    rw [if_neg hlowFirst, if_neg hlowSecond, if_pos hthird, if_neg hhighFirst, if_neg hhighSecond,
      if_neg hlast, hlowEntry, hhighEntry]
    exact joinLimbs_splitField _

/-- An honest prover computes the inverses of the tokens of its trace. -/
theorem inverseColumns_honest {trace : TraceColumns} (hhonest : HonestColumns trace)
    (hselectors : ∀ position, ∀ slot < busSlots,
      IsBit (BlockMemory.memorySelectorValue (tableOf trace position) slot))
    (havoid : SelectedAvoid (tableOf trace) challenges) :
    ∃ columns values, inverseColumns trace challenges = .ok columns ∧
      fieldColumns columns = columnLists inverseColumnCount values ∧
      TraceInverses (tableOf trace) challenges values := by
  have hall : ∀ row < uniformRowCount, ∀ entry,
      ¬ FieldBatch.Unanswerable (rowRequests challenges trace row entry) := by
    rintro row hrow entry ⟨hscale, hzero⟩
    have hentry : (entry : ℕ) < 10 := entry.isLt
    simp only [rowRequests] at hscale hzero
    split at hzero
    case isTrue hlt =>
      rw [if_pos hlt] at hscale
      exact havoid.consumed ⟨row, hrow⟩ entry hlt
        ((hselectors ⟨row, hrow⟩ entry hlt).resolve_left hscale) hzero
    case isFalse hge =>
      rw [if_neg hge] at hscale
      have hlt : (entry : ℕ) - busSlots < busSlots := by
        change ¬ (entry : ℕ) < 5 at hge
        show (entry : ℕ) - 5 < 5
        omega
      exact havoid.produced ⟨row, hrow⟩ _ hlt
        ((hselectors ⟨row, hrow⟩ _ hlt).resolve_left hscale) hzero
  have hencoded : ∀ row < uniformRowCount,
      inverseLimbRow (fun entry => FieldBatch.answer (rowRequests challenges trace row entry)) () =
        .ok (encodedRow challenges trace row) := fun row _ => rfl
  refine ⟨_, _, FieldBatch.selectedInverseColumns_eq (by norm_num) mapBatchError
    (fun row _ => inverseRow_eq challenges hhonest row) hall hencoded, fieldColumns_eq _, ?_, ?_⟩
  · intro position slot hslot
    have hslotLt : slot < 5 := hslot
    have hentry : ((Fin.ofNat inverseEntryCount slot : Fin inverseEntryCount) : ℕ) = slot :=
      Nat.mod_eq_of_lt (show slot < 10 by omega)
    rw [(joinLimbs_encodedRow trace position hslot).1 _ _
        (Nat.mod_eq_of_lt (show slot < 20 by omega))
        (Nat.mod_eq_of_lt (show slot + 5 < 20 by omega)),
      rowRequests, hentry, if_pos hslot]
    exact answer_eq (hselectors position slot hslot)
  · intro position slot hslot
    have hslotLt : slot < 5 := hslot
    have hentry : ((Fin.ofNat inverseEntryCount (slot + busSlots) : Fin inverseEntryCount) : ℕ) =
        slot + busSlots := Nat.mod_eq_of_lt (show slot + 5 < 10 by omega)
    rw [(joinLimbs_encodedRow trace position hslot).2 _ _
        (Nat.mod_eq_of_lt (show 5 * 2 + slot < 20 by omega))
        (Nat.mod_eq_of_lt (show 5 * 2 + slot + 5 < 20 by omega)),
      rowRequests, hentry, if_neg (show ¬ slot + 5 < 5 by omega), Nat.add_sub_cancel]
    exact answer_eq (hselectors position slot hslot)

variable (tables : Boundary.Tables) (challenges)

/-- No token of an initial or final cell meets the evaluation point. -/
structure CellsAvoid : Prop where
  initial : ∀ address, challenges.beta - Boundary.initialToken tables challenges address ≠ 0
  final : ∀ address, challenges.beta - Boundary.finalToken tables challenges address ≠ 0

/-- The requests of an address of the image. -/
def cellRequests (address : ℕ) : Fin 2 → SelectedDenominator NativeField :=
  if h : address < memoryImageBytes then
    ![⟨1, challenges.beta - Boundary.initialToken tables challenges ⟨address, h⟩⟩,
      ⟨1, challenges.beta - Boundary.finalToken tables challenges ⟨address, h⟩⟩]
  else fun _ => ⟨0, 0⟩

/-- The limbs of an answered request of an address. -/
def encodedCell (request : Fin 2) (address : ℕ) : Fin 2 → ℕ :=
  let limbs := splitField
    (FieldBatch.answer (cellRequests challenges tables address request)).denominator
  ![limbs.1, limbs.2]

theorem tableInverses_encodedCell {request : Fin 2}
    {token : Fin memoryImageBytes → NativeField}
    (htoken : ∀ address : Fin memoryImageBytes,
      cellRequests challenges tables address request = ⟨1, challenges.beta - token address⟩) :
    TableInverses challenges token (fun column (position : Fin memoryImageBytes) =>
      ((encodedCell challenges tables request position (Fin.ofNat 2 column) : ℕ) :
        NativeField)) := by
  intro address
  refine (joinLimbs_splitField _).trans ?_
  rw [htoken, answer_eq isBit_one, if_pos rfl]

variable {tables} {challenges}

/-- An honest prover computes the inverses of the cells. -/
theorem boundaryColumns_honest (havoid : CellsAvoid challenges tables) :
    ∃ initial final initialValues finalValues,
      Boundary.inverseColumns tables challenges = .ok (initial, final) ∧
      fieldColumns initial = columnLists 2 initialValues ∧
      fieldColumns final = columnLists 2 finalValues ∧
      TableInverses challenges (Boundary.initialToken tables challenges) initialValues ∧
      TableInverses challenges (Boundary.finalToken tables challenges) finalValues := by
  have hrequests : ∀ address : Fin memoryImageBytes, cellRequests challenges tables address =
      ![⟨1, challenges.beta - Boundary.initialToken tables challenges address⟩,
        ⟨1, challenges.beta - Boundary.finalToken tables challenges address⟩] :=
    fun address => dif_pos address.isLt
  have hprepare : ∀ address < memoryImageBytes, Boundary.requests tables challenges address =
      .ok (cellRequests challenges tables address, ()) := by
    intro address haddress
    rw [Boundary.requests, dif_pos haddress, hrequests ⟨address, haddress⟩]
  have hall : ∀ address < memoryImageBytes, ∀ request,
      ¬ FieldBatch.Unanswerable (cellRequests challenges tables address request) := by
    rintro address haddress request ⟨-, hzero⟩
    rw [hrequests ⟨address, haddress⟩] at hzero
    fin_cases request
    · exact havoid.initial _ hzero
    · exact havoid.final _ hzero
  have hencode : ∀ address < memoryImageBytes,
      Boundary.limbRow (fun request =>
        FieldBatch.answer (cellRequests challenges tables address request)) () =
      .ok ![encodedCell challenges tables 0 address 0, encodedCell challenges tables 0 address 1,
        encodedCell challenges tables 1 address 0, encodedCell challenges tables 1 address 1] :=
    fun address _ => rfl
  have hpair : ∀ columns : Fin 2 → List ℕ, ![columns 0, columns 1] = columns := by
    intro columns
    funext column
    fin_cases column
    · rfl
    · rfl
  have hcolumns : ∀ request, ![(List.range memoryImageBytes).map (fun address =>
        encodedCell challenges tables request address 0),
      (List.range memoryImageBytes).map (fun address =>
        encodedCell challenges tables request address 1)] =
      fun column => (List.range memoryImageBytes).map (fun address =>
        encodedCell challenges tables request address column) := by
    intro request
    exact hpair (fun column => (List.range memoryImageBytes).map (fun address =>
      encodedCell challenges tables request address column))
  refine ⟨_, _, _, _, ?_, (congrArg fieldColumns (hcolumns 0)).trans (fieldColumns_eq _),
    (congrArg fieldColumns (hcolumns 1)).trans (fieldColumns_eq _),
    tableInverses_encodedCell challenges tables (fun address => congrFun (hrequests address) 0),
    tableInverses_encodedCell challenges tables (fun address => congrFun (hrequests address) 1)⟩
  rw [Boundary.inverseColumns, FieldBatch.selectedInverseColumns_eq (by norm_num) mapBatchError
    hprepare hall hencode]
  rfl

end HonestColumns

/-- A selected read consumes and produces the byte that it returns, and a selected write consumes
the byte that it overwrites. -/
theorem slotConsumed_value {row : Row NativeField} {slot : ℕ}
    (hselected : BlockMemory.memorySelectorValue row slot = 1) :
    (BlockMemory.memoryWriteSelectorValue row slot = 0 →
      (slotConsumed row slot).2.1 = (slotProduced row slot).2.1) ∧
    (BlockMemory.memoryWriteSelectorValue row slot = 1 →
      (slotConsumed row slot).2.1 = slotBeforeValue (busPlane row) slot) := by
  simp only [slotConsumed, slotProduced, hselected]
  refine ⟨fun hread => ?_, fun hwrite => ?_⟩
  · rw [hread]
    ring
  · rw [hwrite]
    ring

/-- The tokens of the initial cells and of some events balance against those that the events consume
and those of the final cells. Then the events, in any order by their times, are a history of the
memory: every event finds the byte that was last written at its address, and the final bytes are the
last written ones; a read finds the byte that it returns and a write the one that it overwrites.
Inverse columns that satisfy the relation of the trace and the identity of the boundary pass the
check for every trace that carries the events, and so do those that an honest prover computes, as
long as no denominator vanishes. -/
theorem offline_memory (tables : Boundary.Tables) (events : List MemoryEvent)
    (hearlier : ∀ event ∈ events, event.predecessor < event.time)
    (hbalance : Balanced tables.initial (fun _ => 0) events tables.final tables.timestamps) :
    (∀ order : List MemoryEvent, order.Perm events →
      order.Pairwise (fun first second => first.time ≤ second.time) →
      (∀ before event after, order = before ++ event :: after →
        event.input = OfflineMemory.lastWritten tables.initial before event.address) ∧
      ∀ address, tables.final address = OfflineMemory.lastWritten tables.initial order address) ∧
    (∀ (row : Row NativeField) slot, BlockMemory.memorySelectorValue row slot = 1 →
      (BlockMemory.memoryWriteSelectorValue row slot = 0 →
        (slotConsumed row slot).2.1 = (slotProduced row slot).2.1) ∧
      (BlockMemory.memoryWriteSelectorValue row slot = 1 →
        (slotConsumed row slot).2.1 = slotBeforeValue (busPlane row) slot)) ∧
    (∀ table challenges trace initial final, Carries table events → SlotsAvoid table challenges →
      RelationHolds table challenges trace → BoundaryHolds tables challenges initial final →
      evaluateAndCheck (columnLists inverseColumnCount trace) (columnLists 2 initial)
        (columnLists 2 final) = .ok ()) ∧
    ∀ trace challenges, HonestColumns trace → Carries (tableOf trace) events →
      SelectedAvoid (tableOf trace) challenges → CellsAvoid challenges tables →
      ∃ columns initial final, inverseColumns trace challenges = .ok columns ∧
        Boundary.inverseColumns tables challenges = .ok (initial, final) ∧
        evaluateAndCheck (fieldColumns columns) (fieldColumns initial) (fieldColumns final) =
          .ok () := by
  refine ⟨?_, fun row slot hselected => slotConsumed_value hselected, ?_, ?_⟩
  · intro order hperm hsorted
    exact eq_lastWritten_of_balanced (hbalance.perm hperm)
      (fun event hmem => hearlier event (hperm.mem_iff.mp hmem)) hsorted
  · intro table challenges trace initial final hcarries havoid hrelation hboundary
    obtain ⟨hinitial, hfinal⟩ := tableInverses_of_boundary hboundary
    exact evaluateAndCheck_of_inverses hcarries hbalance
      (traceInverses_of_relation hcarries.selectors havoid hrelation) hinitial hfinal
  · intro trace challenges hhonest hcarries hslots hcells
    obtain ⟨columns, values, hcolumns, hvalues, htrace⟩ :=
      inverseColumns_honest hhonest hcarries.selectors hslots
    obtain ⟨initial, final, initialValues, finalValues, hboundary, hinitialValues, hfinalValues,
      hinitial, hfinal⟩ := boundaryColumns_honest hcells
    refine ⟨columns, initial, final, hcolumns, hboundary, ?_⟩
    rw [hvalues, hinitialValues, hfinalValues]
    exact evaluateAndCheck_of_inverses hcarries hbalance htrace hinitial hfinal

/-- A write of the byte 7 at the address 3. -/
def oneWrite : MemoryEvent := ⟨3, 0, 0, 7, 1⟩

/-- After one write the final byte is the written one. -/
theorem offline_memory_oneWrite : oneWrite.predecessor < oneWrite.time ∧
    oneWrite.write (fun _ => 0) 3 = OfflineMemory.lastWritten (fun _ => 0) [oneWrite] 3 :=
  ⟨by decide, ((offline_memory ⟨fun _ => 0, oneWrite.write (fun _ => 0),
    Function.update (fun _ => 0) oneWrite.address oneWrite.time⟩ [oneWrite]
    (by simp [oneWrite]) (Balanced.cons rfl (Balanced.refl _ _))).1 [oneWrite] (List.Perm.refl _)
    (List.pairwise_singleton _ _)).2 3⟩

end MemoryArgument

end Zksm83
