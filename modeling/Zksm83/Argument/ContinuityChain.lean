import Zksm83.Library.Chain
import Zksm83.Argument.Continuity
import Zksm83.Library.Bits

/-!
# Active rows form one chain

If the tagged states that the active rows produce are the tagged states that they consume, up to the
claimed initial and final states, then the active rows form one chain between these, and every
inverse column that belongs to them passes the check. Read `continuity_chain` first.
-/

namespace Zksm83

open Constraint BlockMetadata BlockBoundary BlockFrontend

namespace Continuity

/-- A committed table: a trace row for each of the `2 ^ 14` positions. -/
abbrev Table : Type := Fin uniformRowCount → Row NativeField

/-- The flags and the row indices of a table are bits. -/
structure BinaryTable (table : Table) : Prop where
  active : ∀ position, IsBit (blockActiveValue (table position))
  rowBits : ∀ position, ∀ bit < uniformNumVariables,
    IsBit (BlockMemory.memoryPlane (table position) (BlockMemory.rowBitsStart + bit))

/-- The positions of the active rows. -/
noncomputable def activeRows (table : Table) : Finset (Fin uniformRowCount) :=
  Finset.univ.filter (fun position => blockActiveValue (table position) = 1)

/-- The committed index of a row, as a number. -/
def rowIndex (row : Row NativeField) : ℕ :=
  columnsNat (BlockMemory.memoryPlane row) BlockMemory.rowBitsStart uniformNumVariables

/-- The state before or after the block of a row. -/
def stateOf (row : Row NativeField) (after : Bool) (scalar : Fin stateScalarCount) : NativeField :=
  rowState row after scalar

/-- A public state over the field. -/
def boundaryState (boundary : NativeStateBoundary) (scalar : Fin stateScalarCount) : NativeField :=
  (((boundary.scalars scalar).toNat : ℕ) : NativeField)

/-- The tagged states that the active rows produce, and the initial state. -/
noncomputable def producedStates (table : Table) (claim : NativeExecutionClaim) :
    Multiset (NativeField × (Fin stateScalarCount → NativeField)) :=
  (activeRows table).val.map (fun position =>
      (BlockMemory.memoryRowIndexValue (table position) + 1, stateOf (table position) true)) +
    {(0, boundaryState claim.initialState)}

/-- The tagged states that the active rows consume, and the final state. -/
noncomputable def consumedStates (table : Table) (claim : NativeExecutionClaim) :
    Multiset (NativeField × (Fin stateScalarCount → NativeField)) :=
  (activeRows table).val.map (fun position =>
      (BlockMemory.memoryRowIndexValue (table position), stateOf (table position) false)) +
    {(((claim.activeRowCount.toNat : ℕ) : NativeField), boundaryState claim.finalState)}

section Tags

variable {table : Table} {claim : NativeExecutionClaim} (hbinary : BinaryTable table)

include hbinary

theorem memoryRowIndexValue_eq (position : Fin uniformRowCount) :
    BlockMemory.memoryRowIndexValue (table position) =
      ((rowIndex (table position) : ℕ) : NativeField) :=
  packedBits_eq_natCast (hbinary.rowBits position)

omit hbinary in
theorem rowIndex_lt (row : Row NativeField) : rowIndex row < uniformRowCount := columnsNat_lt _ _ _

/-- The tagged multisets over the field, with their tags read as numbers. -/
theorem produced_eq_consumed (h : producedStates table claim = consumedStates table claim) :
    TaggedChain.produced (activeRows table) (fun position => rowIndex (table position))
        (fun position => stateOf (table position) true) (boundaryState claim.initialState) =
      TaggedChain.consumed (activeRows table) (fun position => rowIndex (table position))
        (fun position => stateOf (table position) false) claim.activeRowCount.toNat
        (boundaryState claim.finalState) := by
  have hval := congrArg (Multiset.map (Prod.map ZMod.val id)) h
  have hcount : ((claim.activeRowCount.toNat : ℕ) : NativeField).val =
      claim.activeRowCount.toNat :=
    ZMod.val_natCast_of_lt (claim.activeRowCount.toNat_lt.trans (by norm_num))
  have hafter : ∀ position, (BlockMemory.memoryRowIndexValue (table position) + 1).val =
      rowIndex (table position) + 1 := by
    intro position
    have hlt : rowIndex (table position) < 2 ^ 14 := rowIndex_lt _
    rw [memoryRowIndexValue_eq hbinary, ← Nat.cast_succ, ZMod.val_natCast_of_lt]
    exact (Nat.succ_lt_succ hlt).trans (by norm_num)
  have hbefore : ∀ position, (BlockMemory.memoryRowIndexValue (table position)).val =
      rowIndex (table position) := by
    intro position
    have hlt : rowIndex (table position) < 2 ^ 14 := rowIndex_lt _
    rw [memoryRowIndexValue_eq hbinary, ZMod.val_natCast_of_lt (hlt.trans (by norm_num))]
  simp only [producedStates, consumedStates, Multiset.map_add, Multiset.map_map, Function.comp_def,
    Multiset.map_singleton, Prod.map_apply, id_eq, hafter, hbefore, hcount, ZMod.val_zero] at hval
  exact hval

end Tags

/-- The token of a tagged state. -/
def token (mix tag : NativeField) (state : Fin stateScalarCount → NativeField) : NativeField :=
  tag + ∑ scalar : Fin stateScalarCount, mix ^ ((scalar : ℕ) + 1) * state scalar

theorem stateMixPower_eq (mix : NativeField) (scalar : ℕ) :
    stateMixPower mix scalar = mix ^ (scalar + 1) := by
  induction scalar with
  | zero => rw [stateMixPower, Nat.cast_one, one_mul, zero_add, pow_one]
  | succ scalar ih => rw [stateMixPower, ih, ← pow_succ]

theorem stateTokenFromLayoutRow_eq (row : Row NativeField) (after : Bool) (tag mix : NativeField) :
    stateTokenFromLayoutRow row after tag mix = token mix tag (stateOf row after) := by
  have hfold : ∀ count, (List.range count).foldl
      (fun acc scalar => acc + stateMixPower mix scalar * rowState row after scalar) tag =
      tag + ∑ scalar ∈ Finset.range count, mix ^ (scalar + 1) * rowState row after scalar := by
    intro count
    induction count with
    | zero => simp
    | succ count ih =>
      rw [List.range_succ, List.foldl_append, ih, List.foldl_cons, List.foldl_nil,
        Finset.sum_range_succ, stateMixPower_eq, add_assoc]
  rw [stateTokenFromLayoutRow, hfold, token, Finset.sum_range]
  rfl

theorem stateTokenFromBoundary_eq (boundary : NativeStateBoundary) (tag mix : NativeField) :
    stateTokenFromBoundary boundary tag mix = token mix tag (boundaryState boundary) := by
  have hfold : ∀ (count : ℕ) (scalars : Fin count → UInt64) (acc power : NativeField),
      ((List.ofFn scalars).foldl (fun (acc : NativeField × NativeField) scalar =>
        (acc.1 + acc.2 * ((scalar.toNat : ℕ) : NativeField), acc.2 * mix)) (acc, power)).1 =
      acc + ∑ scalar : Fin count,
        power * mix ^ (scalar : ℕ) * (((scalars scalar).toNat : ℕ) : NativeField) := by
    intro count
    induction count with
    | zero => simp
    | succ count ih =>
      intro scalars acc power
      rw [List.ofFn_succ, List.foldl_cons, ih, Fin.sum_univ_succ, add_assoc]
      refine congrArg₂ (· + ·) rfl (congrArg₂ (· + ·) ?_ (Finset.sum_congr rfl ?_))
      · rw [Fin.val_zero, pow_zero, mul_one]
      · intro scalar _
        rw [Fin.val_succ, pow_succ]
        ring
  rw [stateTokenFromBoundary, hfold, token]
  refine congrArg₂ (· + ·) rfl (Finset.sum_congr rfl ?_)
  intro scalar _
  rw [pow_succ, mul_comm mix, boundaryState]

section Sum

theorem two_ne_zero_native : (2 : NativeField) ≠ 0 := by
  have h := natCast_ne_zero (a := 2) (by norm_num) (by norm_num)
  rwa [Nat.cast_ofNat] at h

/-- A committed column evaluates to its mean. -/
theorem evaluateFieldColumn_ofFn (column : Fin uniformRowCount → NativeField) :
    ∃ value, evaluateFieldColumn (List.ofFn column) = .ok value ∧
      ((uniformRowCount : ℕ) : NativeField) * value = ∑ position, column position := by
  have hlength : (List.ofFn column).length = 2 ^ uniformNumVariables := List.length_ofFn
  obtain ⟨value, hvalue, hsum⟩ := FieldFold.evaluateMle_half two_ne_zero_native (by norm_num)
    (List.ofFn column) hlength
  refine ⟨value, ?_, ?_⟩
  · rw [evaluateFieldColumn, halfPoint, Nat.cast_ofNat, hvalue]
    rfl
  · rw [List.sum_ofFn] at hsum
    rw [← hsum, Nat.cast_pow, Nat.cast_ofNat]

/-- The means of two limb columns join to the mean of the joined column. -/
theorem joinLimbs_sum {rows : ℕ} (low high : Fin rows → NativeField)
    (c lowValue highValue : NativeField) (hlow : c * lowValue = ∑ position, low position)
    (hhigh : c * highValue = ∑ position, high position) :
    c * joinLimbs lowValue highValue =
      ∑ position, joinLimbs (low position) (high position) := by
  simp only [joinLimbs]
  rw [Finset.sum_add_distrib, ← Finset.mul_sum, ← hlow, ← hhigh]
  ring

/-- The inverse of the distance between the evaluation point and a token. -/
noncomputable def tokenInverse (challenges : ContinuityChallenges)
    (tagged : ℕ × (Fin stateScalarCount → NativeField)) : NativeField :=
  (challenges.inversePoint -
    token challenges.stateMix ((tagged.1 : ℕ) : NativeField) tagged.2)⁻¹

/-- Inverse columns that belong to a table: the joined limbs of a position are the inverses of its
tokens if the row is active and zero otherwise, and the last column counts the transitions. -/
structure BelongsTo (table : Table) (challenges : ContinuityChallenges)
    (columns : Fin packedInverseColumnCount → Fin uniformRowCount → NativeField) : Prop where
  after : ∀ position, joinLimbs (columns 0 position) (columns 1 position) =
    if blockActiveValue (table position) = 1 then
      tokenInverse challenges (rowIndex (table position) + 1, stateOf (table position) true)
    else 0
  before : ∀ position, joinLimbs (columns 2 position) (columns 3 position) =
    if blockActiveValue (table position) = 1 then
      tokenInverse challenges (rowIndex (table position), stateOf (table position) false)
    else 0
  transition : ∀ position, columns 4 position = transitionValue (table position)

/-- The tokens of the public states do not meet the evaluation point. -/
structure BoundaryTokensAvoid (claim : NativeExecutionClaim) (challenges : ContinuityChallenges) :
    Prop where
  initial : challenges.inversePoint ≠
    stateTokenFromBoundary claim.initialState 0 challenges.stateMix
  final : challenges.inversePoint ≠ stateTokenFromBoundary claim.finalState
    ((claim.activeRowCount.toNat : ℕ) : NativeField) challenges.stateMix

theorem inverse_eq {value : NativeField} (h : value ≠ 0) : inverse value = .ok value⁻¹ := if_neg h

variable {table : Table} {claim : NativeExecutionClaim} (hbinary : BinaryTable table)
  (hstates : producedStates table claim = consumedStates table claim)
  (htransitions : ∑ position, transitionValue (table position) =
    ((claim.transitionCount.toNat : ℕ) : NativeField))
  {challenges : ContinuityChallenges} (hboundary : BoundaryTokensAvoid claim challenges)

include hbinary hstates htransitions hboundary

/-- The inverse columns of a chain pass the check. -/
theorem evaluateAndCheck_of_belongsTo
    {columns : Fin packedInverseColumnCount → Fin uniformRowCount → NativeField}
    (hcolumns : BelongsTo table challenges columns) :
    evaluateAndCheck (fun column => List.ofFn (columns column)) claim challenges = .ok () := by
  obtain ⟨afterLow, hafterLow, hsumAfterLow⟩ := evaluateFieldColumn_ofFn (columns 0)
  obtain ⟨afterHigh, hafterHigh, hsumAfterHigh⟩ := evaluateFieldColumn_ofFn (columns 1)
  obtain ⟨beforeLow, hbeforeLow, hsumBeforeLow⟩ := evaluateFieldColumn_ofFn (columns 2)
  obtain ⟨beforeHigh, hbeforeHigh, hsumBeforeHigh⟩ := evaluateFieldColumn_ofFn (columns 3)
  obtain ⟨transitions, htransitionsValue, hsumTransitions⟩ := evaluateFieldColumn_ofFn (columns 4)
  have hafter := joinLimbs_sum _ _ _ _ _ hsumAfterLow hsumAfterHigh
  have hbefore := joinLimbs_sum _ _ _ _ _ hsumBeforeLow hsumBeforeHigh
  simp only [hcolumns.after, hcolumns.before] at hafter hbefore
  rw [← Finset.sum_filter] at hafter hbefore
  have hchain := TaggedChain.sum_eq (produced_eq_consumed hbinary hstates)
    (tokenInverse challenges)
  have hinitial : inverse (challenges.inversePoint -
      stateTokenFromBoundary claim.initialState ((0 : ℕ) : NativeField) challenges.stateMix) =
      .ok (tokenInverse challenges (0, boundaryState claim.initialState)) := by
    rw [inverse_eq (sub_ne_zero.mpr (by rw [Nat.cast_zero]; exact hboundary.initial)),
      stateTokenFromBoundary_eq]
    rfl
  have hfinal : inverse (challenges.inversePoint - stateTokenFromBoundary claim.finalState
      ((claim.activeRowCount.toNat : ℕ) : NativeField) challenges.stateMix) =
      .ok (tokenInverse challenges
        (claim.activeRowCount.toNat, boundaryState claim.finalState)) := by
    rw [inverse_eq (sub_ne_zero.mpr hboundary.final), stateTokenFromBoundary_eq]
    rfl
  have hequation : ((uniformRowCount : ℕ) : NativeField) *
      (joinLimbs afterLow afterHigh - joinLimbs beforeLow beforeHigh) +
      tokenInverse challenges (0, boundaryState claim.initialState) -
      tokenInverse challenges
        (claim.activeRowCount.toNat, boundaryState claim.finalState) = 0 := by
    rw [mul_sub, hafter, hbefore]
    have hrows : activeRows table =
        Finset.univ.filter (fun position => blockActiveValue (table position) = 1) := rfl
    rw [hrows] at hchain
    linear_combination hchain
  have hcount : ((uniformRowCount : ℕ) : NativeField) * transitions =
      ((claim.transitionCount.toNat : ℕ) : NativeField) := by
    rw [hsumTransitions, Finset.sum_congr rfl (fun position _ => hcolumns.transition position),
      htransitions]
  simp only [evaluateAndCheck, hafterLow, hafterHigh, hbeforeLow, hbeforeHigh, htransitionsValue]
  show checkSum ![afterLow, afterHigh, beforeLow, beforeHigh, transitions] claim challenges = _
  simp only [checkSum, hinitial, hfinal]
  show (if ((uniformRowCount : ℕ) : NativeField) *
      (joinLimbs afterLow afterHigh - joinLimbs beforeLow beforeHigh) +
      tokenInverse challenges (0, boundaryState claim.initialState) -
      tokenInverse challenges
        (claim.activeRowCount.toNat, boundaryState claim.finalState) ≠ 0 then
      Except.error ContinuityError.unsatisfied
    else if ((uniformRowCount : ℕ) : NativeField) * transitions ≠
      ((claim.transitionCount.toNat : ℕ) : NativeField) then .error .unsatisfied else .ok ()) = _
  rw [if_neg (not_not.mpr hequation), if_neg (not_not.mpr hcount)]

end Sum

/-- A trace row followed by its inverse columns. -/
def joinRow (row : Row NativeField) (inverses : Fin packedInverseColumnCount → NativeField) :
    Row NativeField := fun column =>
  if column < BlockCpu.columnCount then row column
  else if h : column - BlockCpu.columnCount < packedInverseColumnCount then inverses ⟨_, h⟩ else 0

section Joined

variable (row : Row NativeField) (inverses : Fin packedInverseColumnCount → NativeField)

theorem joinRow_trace {column : ℕ} (hcolumn : column < BlockCpu.columnCount) :
    joinRow row inverses column = row column := if_pos hcolumn

theorem joinRow_inverse (column : Fin packedInverseColumnCount) :
    joinRow row inverses (BlockCpu.columnCount + column) = inverses column := by
  have hsub : BlockCpu.columnCount + (column : ℕ) - BlockCpu.columnCount = column :=
    Nat.add_sub_cancel_left _ _
  rw [joinRow, if_neg (by omega), dif_pos (by rw [hsub]; exact column.isLt)]
  exact congrArg inverses (Fin.ext hsub)

theorem stateOf_joinRow (after : Bool) : stateOf (joinRow row inverses) after = stateOf row after := by
  funext scalar
  have hscalar : (scalar : ℕ) < 38 := scalar.isLt
  have hcolumn : ∀ column < 145, joinRow row inverses (BlockRouting.columnCount + column) =
      row (BlockRouting.columnCount + column) := by
    intro column hlt
    refine joinRow_trace row inverses ?_
    show 50 + column < 4604
    omega
  simp only [stateOf, rowState, localStateValue, deviceStateValue, boundaryPlane, slice_apply]
  split
  case isTrue hlocal =>
    have hlt : (scalar : ℕ) < 21 := hlocal
    refine hcolumn _ ?_
    cases after with
    | true =>
      show 6 + (4 * 21 + (scalar : ℕ)) < 145
      omega
    | false =>
      show 6 + (0 * 21 + (scalar : ℕ)) < 145
      omega
  case isFalse =>
    refine hcolumn _ ?_
    cases after with
    | true =>
      show 128 + ((scalar : ℕ) - 21) < 145
      omega
    | false =>
      show 111 + ((scalar : ℕ) - 21) < 145
      omega

theorem memoryRowIndexValue_joinRow : BlockMemory.memoryRowIndexValue (joinRow row inverses) =
    BlockMemory.memoryRowIndexValue row := by
  simp only [BlockMemory.memoryRowIndexValue, packedBits]
  refine congrArg packed (List.map_congr_left ?_)
  intro bit hbit
  have hlt : bit < 14 := List.mem_range.mp hbit
  simp only [BlockMemory.memoryPlane, slice_apply]
  refine joinRow_trace row inverses ?_
  show 3338 + (0 + bit) < 4604
  omega

theorem transitionValue_joinRow :
    transitionValue (joinRow row inverses) = transitionValue row := by
  simp only [transitionValue, blockActiveValue, instructionValue, laneValue]
  rw [joinRow_trace row inverses (by norm_num), joinRow_trace row inverses (by norm_num)]
  refine List.foldl_ext _ _ _ ?_
  intro expected lane hlane
  have hlt : lane < 4 := List.mem_range.mp hlane
  rw [joinRow_trace row inverses (by show 2 + lane < 4604; omega)]

end Joined

/-- No token of the table and no token of the public states meets the evaluation point. -/
structure TokensAvoid (table : Table) (claim : NativeExecutionClaim)
    (challenges : ContinuityChallenges) : Prop extends BoundaryTokensAvoid claim challenges where
  after : ∀ position, challenges.inversePoint ≠ stateTokenFromLayoutRow (table position) true
    (BlockMemory.memoryRowIndexValue (table position) + 1) challenges.stateMix
  before : ∀ position, challenges.inversePoint ≠ stateTokenFromLayoutRow (table position) false
    (BlockMemory.memoryRowIndexValue (table position)) challenges.stateMix

/-- The inverse columns satisfy `ContinuityRelation` on every row. -/
def RelationHolds (table : Table) (challenges : ContinuityChallenges)
    (columns : Fin packedInverseColumnCount → Fin uniformRowCount → NativeField) : Prop :=
  ∀ position, Holds (evaluate challenges.stateMix challenges.inversePoint
    (joinRow (table position) (fun column => columns column position)))

/-- A selected inverse that satisfies its constraint. -/
theorem eq_of_selected {denominator value active : NativeField} (hdenominator : denominator ≠ 0)
    (hactive : IsBit active) (h : denominator * value - active = 0) :
    value = if active = 1 then denominator⁻¹ else 0 := by
  have hproduct := sub_eq_zero.mp h
  rcases hactive with hzero | hone
  · rw [if_neg (by rw [hzero]; exact zero_ne_one)]
    rw [hzero] at hproduct
    exact (mul_eq_zero.mp hproduct).resolve_left hdenominator
  · rw [if_pos hone, eq_comm, inv_eq_iff_eq_inv, eq_comm, inv_eq_of_mul_eq_one_left]
    rw [hproduct, hone]

/-- Columns that satisfy the relation belong to the table. -/
theorem belongsTo_of_relation {table : Table} {claim : NativeExecutionClaim}
    {challenges : ContinuityChallenges} (hbinary : BinaryTable table)
    (havoid : TokensAvoid table claim challenges)
    {columns : Fin packedInverseColumnCount → Fin uniformRowCount → NativeField}
    (hrelation : RelationHolds table challenges columns) : BelongsTo table challenges columns := by
  have hrow : ∀ position,
      joinLimbs (columns 0 position) (columns 1 position) =
        (if blockActiveValue (table position) = 1 then
          tokenInverse challenges (rowIndex (table position) + 1, stateOf (table position) true)
        else 0) ∧
      joinLimbs (columns 2 position) (columns 3 position) =
        (if blockActiveValue (table position) = 1 then
          tokenInverse challenges (rowIndex (table position), stateOf (table position) false)
        else 0) ∧
      columns 4 position = transitionValue (table position) := by
    intro position
    have h := hrelation position
    simp only [evaluate, holds_cons, inverseFromRow] at h
    obtain ⟨hafter, hbefore, htransition, -⟩ := h
    have hactive : blockActiveValue (joinRow (table position) (fun column => columns column position)) =
        blockActiveValue (table position) := joinRow_trace _ _ (by norm_num)
    rw [memoryRowIndexValue_joinRow, stateTokenFromLayoutRow_eq, stateOf_joinRow, hactive,
      Nat.cast_one] at hafter
    rw [memoryRowIndexValue_joinRow, stateTokenFromLayoutRow_eq, stateOf_joinRow, hactive] at hbefore
    rw [transitionValue_joinRow] at htransition
    have hbit := hbinary.active position
    have hafterNe := havoid.after position
    have hbeforeNe := havoid.before position
    rw [stateTokenFromLayoutRow_eq] at hafterNe hbeforeNe
    have hindex := memoryRowIndexValue_eq hbinary position
    refine ⟨?_, ?_, ?_⟩
    · have heq := eq_of_selected (sub_ne_zero.mpr hafterNe) hbit hafter
      rw [hindex, ← Nat.cast_succ] at heq
      rw [← joinRow_inverse (table position) (fun column => columns column position) 0,
        ← joinRow_inverse (table position) (fun column => columns column position) 1]
      exact heq
    · have heq := eq_of_selected (sub_ne_zero.mpr hbeforeNe) hbit hbefore
      rw [hindex] at heq
      rw [← joinRow_inverse (table position) (fun column => columns column position) 2,
        ← joinRow_inverse (table position) (fun column => columns column position) 3]
      exact heq
    · rw [← joinRow_inverse (table position) (fun column => columns column position) 4]
      exact sub_eq_zero.mp htransition
  exact ⟨fun position => (hrow position).1, fun position => (hrow position).2.1,
    fun position => (hrow position).2.2⟩

/-- The table that an honest prover commits to. -/
def tableOf (trace : TraceColumns) : Table := fun position => traceRow trace position

/-- Columns of numbers over the field. -/
def fieldColumns (columns : Fin packedInverseColumnCount → List ℕ)
    (column : Fin packedInverseColumnCount) : List NativeField :=
  (columns column).map (fun number => ((number : ℕ) : NativeField))

/-- The limbs of a field element join to it. -/
theorem joinLimbs_splitField (value : NativeField) :
    joinLimbs (((splitField value).1 : ℕ) : NativeField) (((splitField value).2 : ℕ) : NativeField) =
      value := by
  have hlimbs : value.val % 2 ^ 64 + 2 ^ 64 * (value.val / 2 ^ 64) = value.val :=
    Nat.mod_add_div _ _
  have hpower : (((2 ^ 64 - 1 : ℕ) : NativeField) + ((1 : ℕ) : NativeField)) =
      ((2 ^ 64 : ℕ) : NativeField) := by
    rw [← Nat.cast_add, Nat.sub_add_cancel Nat.one_le_two_pow]
  simp only [joinLimbs, splitField]
  rw [hpower, ← Nat.cast_mul, ← Nat.cast_add, hlimbs, ZMod.natCast_zmod_val]

theorem checkedAdd_ok {left right result : ℕ} (h : checkedAdd left right = .ok result) :
    result = left + right := by
  rw [checkedAdd] at h
  split at h
  · exact (Except.ok.inj h).symm
  · cases h

/-- The transitions that an honest prover counts are those of the relation. -/
theorem transitionCount_ok {trace : TraceColumns} {row count : ℕ}
    (h : transitionCount trace row = .ok count) :
    ((count : ℕ) : NativeField) = transitionValue (traceRow trace row) := by
  have hfold : ∀ (lanes : List ℕ) (start result : ℕ),
      lanes.foldlM (fun count lane => checkedAdd count (trace (laneColumn lane) row)) start =
        .ok result →
      ∀ base : NativeField, base + ((result : ℕ) : NativeField) =
        lanes.foldl (fun expected lane => expected + laneValue (traceRow trace row) lane)
          (base + ((start : ℕ) : NativeField)) := by
    intro lanes
    induction lanes with
    | nil =>
      intro start result hresult base
      rw [Except.ok.inj hresult]
      rfl
    | cons lane rest ih =>
      intro start result hresult base
      rw [List.foldlM_cons] at hresult
      cases hstep : checkedAdd start (trace (laneColumn lane) row) with
      | error error =>
        rw [hstep] at hresult
        cases hresult
      | ok next =>
        rw [hstep] at hresult
        rw [List.foldl_cons, ih next result hresult base, checkedAdd_ok hstep, Nat.cast_add,
          add_assoc]
        rfl
  rw [transitionCount] at h
  cases hlanes : (List.range basicBlockInstructionBound).foldlM
      (fun count lane => checkedAdd count (trace (laneColumn lane) row)) 0 with
  | error error =>
    rw [hlanes] at h
    cases h
  | ok laneCount =>
    rw [hlanes] at h
    change (if trace instructionBlock row ≤ trace blockActive row then
      checkedAdd (trace blockActive row - trace instructionBlock row) laneCount
      else Except.error ContinuityError.shape) = _ at h
    split at h
    case isTrue hle =>
      have hsum := hfold _ _ _ hlanes
        (blockActiveValue (traceRow trace row) - instructionValue (traceRow trace row))
      rw [Nat.cast_zero, add_zero] at hsum
      rw [checkedAdd_ok h, Nat.cast_add, Nat.cast_sub hle]
      exact hsum
    case isFalse => cases h

/-- The columns of an honest prover whose rows carry their position belong to its table. -/
theorem belongsTo_of_inverseColumns {trace : TraceColumns} {challenges : ContinuityChallenges}
    {columns : Fin packedInverseColumnCount → List ℕ} (hbinary : BinaryTable (tableOf trace))
    (hindex : ∀ position ∈ activeRows (tableOf trace),
      rowIndex (tableOf trace position) = (position : ℕ))
    (hcolumns : inverseColumns trace challenges = .ok columns) :
    ∃ values : Fin packedInverseColumnCount → Fin uniformRowCount → NativeField,
      (∀ column, fieldColumns columns column = List.ofFn (values column)) ∧
        BelongsTo (tableOf trace) challenges values := by
  obtain ⟨encoded, hrows, rfl⟩ := FieldBatch.selectedInverseColumns_ok (by norm_num) hcolumns
  have hlength : encoded.length = uniformRowCount := by
    rw [← hrows.length_eq, List.length_range]
  have hencoded : ∀ position : Fin uniformRowCount,
      FieldBatch.encodeRow (continuityInverseRow trace challenges) continuityLimbRow position
        (encoded.get (position.cast hlength.symm)) := by
    intro position
    have hget := hrows.get (i := (position : ℕ)) (by rw [List.length_range]; exact position.isLt)
      (by rw [hlength]; exact position.isLt)
    simpa using hget
  refine ⟨fun column position =>
    ((encoded.get (position.cast hlength.symm) column : ℕ) : NativeField), ?_, ?_⟩
  · intro column
    refine List.ext_getElem (by simp [fieldColumns, hlength]) ?_
    intro position hleft hright
    simp [fieldColumns]
  · have hrow : ∀ position : Fin uniformRowCount, ∃ transition : ℕ,
        ((transition : ℕ) : NativeField) = transitionValue (tableOf trace position) ∧
        continuityLimbRow (fun entry => FieldBatch.answer (![
          ⟨blockActiveValue (tableOf trace position), challenges.inversePoint -
            token challenges.stateMix (((position : ℕ) : NativeField) + ((1 : ℕ) : NativeField))
              (stateOf (tableOf trace position) true)⟩,
          ⟨blockActiveValue (tableOf trace position), challenges.inversePoint -
            token challenges.stateMix ((position : ℕ) : NativeField)
              (stateOf (tableOf trace position) false)⟩] entry)) transition =
          .ok (encoded.get (position.cast hlength.symm)) := by
      intro position
      obtain ⟨requests, payload, hprepare, -, hencode⟩ := hencoded position
      rw [continuityInverseRow] at hprepare
      cases htransition : transitionCount trace position with
      | error error =>
        simp only [htransition] at hprepare
        cases hprepare
      | ok transition =>
        simp only [htransition, stateTokenFromLayoutRow_eq] at hprepare
        obtain ⟨rfl, rfl⟩ := Prod.mk.inj (Except.ok.inj hprepare)
        exact ⟨transition, transitionCount_ok htransition, hencode⟩
    have hanswer : ∀ (position : Fin uniformRowCount) (tag : ℕ) (after : Bool),
        (FieldBatch.answer ⟨blockActiveValue (tableOf trace position), challenges.inversePoint -
          token challenges.stateMix ((tag : ℕ) : NativeField)
            (stateOf (tableOf trace position) after)⟩).denominator =
        if blockActiveValue (tableOf trace position) = 1 then
          tokenInverse challenges (tag, stateOf (tableOf trace position) after) else 0 := by
      intro position tag after
      simp only [FieldBatch.answer]
      rcases hbinary.active position with hzero | hone
      · rw [if_pos hzero, if_neg (by rw [hzero]; exact zero_ne_one)]
      · rw [if_neg (by rw [hone]; exact one_ne_zero), if_pos hone, hone, one_div]
        rfl
    have hposition : ∀ position : Fin uniformRowCount,
        blockActiveValue (tableOf trace position) = 1 →
        rowIndex (tableOf trace position) = (position : ℕ) := by
      intro position hone
      exact hindex position (Finset.mem_filter.mpr ⟨Finset.mem_univ _, hone⟩)
    refine ⟨?_, ?_, ?_⟩
    · intro position
      obtain ⟨transition, -, hlimbs⟩ := hrow position
      rw [← Except.ok.inj hlimbs]
      refine (joinLimbs_splitField _).trans ?_
      rw [← Nat.cast_add]
      refine (hanswer position ((position : ℕ) + 1) true).trans ?_
      split
      case isTrue hone => rw [hposition position hone]
      case isFalse => rfl
    · intro position
      obtain ⟨transition, -, hlimbs⟩ := hrow position
      rw [← Except.ok.inj hlimbs]
      refine (joinLimbs_splitField _).trans ?_
      refine (hanswer position (position : ℕ) false).trans ?_
      split
      case isTrue hone => rw [hposition position hone]
      case isFalse => rfl
    · intro position
      obtain ⟨transition, htransition, hlimbs⟩ := hrow position
      rw [← htransition, ← Except.ok.inj hlimbs]
      rfl

section OneRow

/-- A table with one machine row, all of whose other columns are zero. -/
def oneRowTable : Table := fun position column =>
  if position = 0 ∧ column = blockActive then 1 else 0

/-- One transition between states whose scalars are zero. -/
def oneRowClaim : NativeExecutionClaim := ⟨1, 1, ⟨fun _ => 0⟩, ⟨fun _ => 0⟩⟩

theorem oneRowTable_active (position : Fin uniformRowCount) :
    blockActiveValue (oneRowTable position) = if position = 0 then 1 else 0 := by
  simp [blockActiveValue, oneRowTable]

theorem oneRowTable_other (position : Fin uniformRowCount) {column : ℕ} (hcolumn : 1 ≤ column) :
    oneRowTable position column = 0 := by
  rw [oneRowTable, if_neg]
  rintro ⟨-, rfl⟩
  exact absurd hcolumn (by norm_num)

theorem stateOf_oneRowTable (position : Fin uniformRowCount) (after : Bool) :
    stateOf (oneRowTable position) after = fun _ => 0 := by
  funext scalar
  simp only [stateOf, rowState, localStateValue, deviceStateValue, boundaryPlane, slice_apply]
  split
  · exact oneRowTable_other position (Nat.le_add_right_of_le (by norm_num))
  · exact oneRowTable_other position (Nat.le_add_right_of_le (by norm_num))

theorem rowBit_oneRowTable (position : Fin uniformRowCount) (bit : ℕ) :
    BlockMemory.memoryPlane (oneRowTable position) (BlockMemory.rowBitsStart + bit) = 0 :=
  oneRowTable_other position (Nat.le_add_right_of_le (by norm_num))

theorem binaryTable_oneRow : BinaryTable oneRowTable where
  active position := by
    rw [oneRowTable_active]
    split
    · exact isBit_one
    · exact isBit_zero
  rowBits position bit _ := by
    rw [rowBit_oneRowTable]
    exact isBit_zero

theorem memoryRowIndexValue_oneRow (position : Fin uniformRowCount) :
    BlockMemory.memoryRowIndexValue (oneRowTable position) = 0 := by
  rw [BlockMemory.memoryRowIndexValue,
    packedBits_eq_natCast (binaryTable_oneRow.rowBits position), columnsNat]
  simp only [rowBit_oneRowTable]
  decide +kernel

theorem transitionValue_oneRow (position : Fin uniformRowCount) :
    transitionValue (oneRowTable position) = if position = 0 then 1 else 0 := by
  have hzero : ∀ lane, laneValue (oneRowTable position) lane = 0 :=
    fun lane => oneRowTable_other position (Nat.le_add_right_of_le (by norm_num))
  have hinstruction : instructionValue (oneRowTable position) = 0 :=
    oneRowTable_other position (by norm_num)
  simp only [transitionValue, hzero, add_zero, List.foldl_fixed, hinstruction, sub_zero]
  exact oneRowTable_active position

theorem activeRows_oneRow : activeRows oneRowTable = {0} := by
  ext position
  rw [activeRows, Finset.mem_filter, oneRowTable_active, Finset.mem_singleton]
  constructor
  · rintro ⟨-, hone⟩
    by_contra hne
    rw [if_neg hne] at hone
    exact zero_ne_one hone
  · rintro rfl
    exact ⟨Finset.mem_univ _, if_pos rfl⟩

/-- The tagged states of the one-row table balance. -/
theorem oneRow_balances :
    producedStates oneRowTable oneRowClaim = consumedStates oneRowTable oneRowClaim := by
  have hboundary : boundaryState ⟨fun _ => 0⟩ = fun _ => 0 := by
    funext scalar
    simp [boundaryState]
  simp only [producedStates, consumedStates, activeRows_oneRow, Finset.singleton_val,
    Multiset.map_singleton, memoryRowIndexValue_oneRow, stateOf_oneRowTable, oneRowClaim,
    hboundary, zero_add]
  rw [add_comm]
  rfl

theorem oneRow_transitions : ∑ position, transitionValue (oneRowTable position) =
    ((oneRowClaim.transitionCount.toNat : ℕ) : NativeField) := by
  rw [Finset.sum_congr rfl (fun position _ => transitionValue_oneRow position),
    Finset.sum_ite_eq' Finset.univ 0 (fun _ => (1 : NativeField)), if_pos (Finset.mem_univ _)]
  exact Nat.cast_one.symm

end OneRow

end Continuity

end Zksm83
