import Zksm83.Receipt.Wire
import Zksm83.Library.Failure

/-!
# Column openings

Columns are committed in groups of one width, the last group padded with zero columns, and opened
one or two groups at a time. A selected opening opens the groups of the selected columns only: the
checks here find those groups, the values that they claim, and that all other values are zero.
Sizes are 64-bit. After `pcs.rs`.
-/

namespace Zksm83

namespace Pcs

inductive PcsOpeningMode where
  | independent
  | paired
  deriving DecidableEq, Repr

/-- The geometry and the transcript domains of a column family. -/
structure PcsLayout where
  numVariables : ℕ
  groupColumns : ℕ
  scheduleArtifact : List Byte
  commitmentDomain : List Byte
  openingDomain : List Byte
  openingMode : PcsOpeningMode
  deriving DecidableEq, Repr

/-- Errors, with those of Akita inside. -/
inductive PcsError (ε : Type) where
  | shape
  | akita (error : ε)
  | context
  deriving DecidableEq, Repr

/-- Variables and polynomials of a committed group. -/
structure PolynomialGroupLayout where
  numVars : ℕ
  numPolynomials : ℕ
  deriving DecidableEq, Repr

variable {ε Group : Type}

/-- A size that fits into 64 bits. -/
def checked (size : ℕ) : Except (PcsError ε) ℕ :=
  if 2 ^ 64 ≤ size then .error .shape else .ok size

/-- The quotient of two sizes, rounded up. -/
def divCeil (size divisor : ℕ) : ℕ :=
  if 0 < size % divisor then size / divisor + 1 else size / divisor

namespace PcsLayout

variable (layout : PcsLayout)

def rowCount : Except (PcsError ε) ℕ :=
  if 64 ≤ layout.numVariables then .error .shape else .ok (2 ^ layout.numVariables)

def groupsPerOpening : ℕ :=
  match layout.openingMode with
  | .independent => 1
  | .paired => 2

def setupCapacity : Except (PcsError ε) ℕ := checked (layout.groupColumns * layout.groupsPerOpening)

def openingCount (groupCount : ℕ) : Except (PcsError ε) ℕ := do
  rejectIf (groupCount = 0 ∨ groupCount % layout.groupsPerOpening ≠ 0) .shape
  return groupCount / layout.groupsPerOpening

end PcsLayout

/-- The committed groups of a column family. -/
structure ColumnCommitments (Group : Type) where
  numVariables : ℕ
  logicalColumnCount : ℕ
  groupColumns : ℕ
  groups : List Group
  deriving DecidableEq, Repr

/-- The shape of some commitments under a layout. A layout has a column in each group; the source
divides by their number before it checks it. -/
def ColumnCommitments.validate (groupLayout : Group → PolynomialGroupLayout)
    (commitments : ColumnCommitments Group) (layout : PcsLayout) : Except (PcsError ε) Unit :=
  rejectIf (layout.groupColumns = 0 ∨ commitments.numVariables ≠ layout.numVariables ∨
    commitments.groupColumns ≠ layout.groupColumns ∨ commitments.logicalColumnCount = 0 ∨
    commitments.groups.length ≠ divCeil commitments.logicalColumnCount layout.groupColumns ∨
    ∃ group ∈ commitments.groups, (groupLayout group).numVars ≠ layout.numVariables ∨
      (groupLayout group).numPolynomials ≠ layout.groupColumns) .shape

section Selection

variable (groupLayout : Group → PolynomialGroupLayout) (layout : PcsLayout)
  (commitments : ColumnCommitments Group)

/-- Marks the opening of a selected column. -/
def markOpening (columnsPerOpening : ℕ) (selected : List Bool) (column : ℕ) :
    Except (PcsError ε) (List Bool) := do
  rejectIf (commitments.logicalColumnCount ≤ column) .shape
  let openingIndex := column / columnsPerOpening
  rejectIf (selected.length ≤ openingIndex) .shape
  return selected.set openingIndex true

/-- The openings of the selected columns, in order. -/
def selectedOpeningIndices (selectedColumns : List ℕ) : Except (PcsError ε) (List ℕ) := do
  commitments.validate groupLayout layout
  rejectIf (selectedColumns = []) .shape
  let openingCount ← layout.openingCount commitments.groups.length
  let columnsPerOpening ← checked (layout.groupColumns * layout.groupsPerOpening)
  let selected ← selectedColumns.foldlM (markOpening commitments columnsPerOpening)
    (List.replicate openingCount false)
  return selected.zipIdx.filterMap (fun entry => if entry.1 then some entry.2 else none)

/-- The logical columns of an opening. -/
def openingColumns (columnsPerOpening openingIndex : ℕ) : Except (PcsError ε) (List ℕ) := do
  let start ← checked (openingIndex * columnsPerOpening)
  let stop ← checked (start + columnsPerOpening)
  return List.range' start (min stop commitments.logicalColumnCount - start)

def selectedLogicalColumnsFromIndices (openingIndices : List ℕ) :
    Except (PcsError ε) (List ℕ) := do
  let columnsPerOpening ← checked (layout.groupColumns * layout.groupsPerOpening)
  let columns ← openingIndices.mapM (openingColumns commitments columnsPerOpening)
  return columns.flatten

/-- The logical columns of the opened groups. -/
def selectedLogicalColumns (selectedColumns : List ℕ) : Except (PcsError ε) (List ℕ) := do
  let openingIndices ← selectedOpeningIndices groupLayout layout commitments selectedColumns
  let columnsPerOpening ← checked (layout.groupColumns * layout.groupsPerOpening)
  let _ ← checked (openingIndices.length * columnsPerOpening)
  let columns ← openingIndices.mapM (openingColumns commitments columnsPerOpening)
  return columns.flatten

variable {F : Type} [Zero F] [DecidableEq F]

/-- Goes through the values with the selected columns that are left: a value of another column is
zero, and no selected column remains. -/
def checkUnselected : ℕ → List F → List ℕ → Except (PcsError ε) Unit
  | _, [], cursor => rejectIf (cursor ≠ []) .shape
  | index, value :: values, cursor =>
    if cursor.head? = some index then checkUnselected (index + 1) values cursor.tail
    else if value ≠ 0 then .error .shape
    else checkUnselected (index + 1) values cursor

def validateSelectedOpeningShape (point logicalValues : List F) (openingIndices : List ℕ)
    (openingCount : ℕ) : Except (PcsError ε) Unit := do
  commitments.validate groupLayout layout
  rejectIf (point.length ≠ layout.numVariables ∨
    logicalValues.length ≠ commitments.logicalColumnCount ∨ openingIndices = [] ∨
    openingCount ≠ openingIndices.length) .shape
  let selected ← selectedLogicalColumnsFromIndices layout commitments openingIndices
  checkUnselected 0 logicalValues selected

/-- The values of a group, padded to its width. -/
def paddedGroupValues (logicalValues : List F) (groupIndex : ℕ) :
    Except (PcsError ε) (List F) := do
  let start ← checked (groupIndex * layout.groupColumns)
  let stop ← checked (start + layout.groupColumns)
  let stop := min stop logicalValues.length
  rejectIf (stop < start) .shape
  return ((logicalValues.drop start).take (stop - start)).rightpad layout.groupColumns 0

end Selection

/-! ## Sizes and shapes -/

theorem checked_eq_ok {size result : ℕ} :
    (checked size : Except (PcsError ε) ℕ) = .ok result ↔ size < 2 ^ 64 ∧ result = size := by
  unfold checked
  split
  case isTrue hlarge => exact ⟨nofun, fun h => absurd hlarge (Nat.not_le_of_lt h.1)⟩
  case isFalse hsmall =>
    rw [Except.ok.injEq]
    exact ⟨fun h => ⟨Nat.lt_of_not_le hsmall, h.symm⟩, fun h => h.2.symm⟩

theorem PcsLayout.groupsPerOpening_pos (layout : PcsLayout) : 0 < layout.groupsPerOpening := by
  unfold PcsLayout.groupsPerOpening
  split <;> omega

/-- What holds of commitments that pass their check. -/
structure ValidCommitments (groupLayout : Group → PolynomialGroupLayout) (layout : PcsLayout)
    (commitments : ColumnCommitments Group) : Prop where
  groupColumns_pos : 0 < layout.groupColumns
  logicalColumnCount_pos : 0 < commitments.logicalColumnCount
  groups : commitments.groups.length = divCeil commitments.logicalColumnCount layout.groupColumns

theorem ValidCommitments.of_validate {groupLayout : Group → PolynomialGroupLayout}
    {layout : PcsLayout} {commitments : ColumnCommitments Group}
    (hvalid : (commitments.validate groupLayout layout : Except (PcsError ε) Unit) = .ok ()) :
    ValidCommitments groupLayout layout commitments := by
  have hchecks := rejectIf_eq_ok.mp hvalid
  push Not at hchecks
  exact ⟨Nat.pos_of_ne_zero hchecks.1, Nat.pos_of_ne_zero hchecks.2.2.2.1, hchecks.2.2.2.2.1⟩

theorem lt_divCeil {size divisor index : ℕ} (hdivisor : 0 < divisor) :
    index < divCeil size divisor ↔ index * divisor < size := by
  have hdivide := Nat.div_add_mod' size divisor
  have hmod := Nat.mod_lt size hdivisor
  unfold divCeil
  split
  case isTrue hrest =>
    constructor
    · intro hindex
      have hle := Nat.mul_le_mul_right divisor (Nat.le_of_lt_succ hindex)
      omega
    · intro hindex
      refine Nat.lt_of_mul_lt_mul_right (a := divisor) ?_
      rw [Nat.add_mul, one_mul]
      omega
  case isFalse hexact =>
    rw [← Nat.mul_lt_mul_right hdivisor]
    omega

/-! ## Selected openings -/

section Selection

variable {groupLayout : Group → PolynomialGroupLayout} {layout : PcsLayout}
  {commitments : ColumnCommitments Group}

/-- The marks after one more column. -/
theorem markOpening_eq_ok {columnsPerOpening column : ℕ} {selected result : List Bool} :
    (markOpening commitments columnsPerOpening selected column : Except (PcsError ε) (List Bool)) =
        .ok result ↔
      column < commitments.logicalColumnCount ∧ column / columnsPerOpening < selected.length ∧
        result = selected.set (column / columnsPerOpening) true := by
  unfold markOpening
  rw [Except.check_eq_ok, Except.check_eq_ok, rejectIf_eq_ok, rejectIf_eq_ok, not_le, not_le]
  exact and_congr_right fun _ => and_congr_right fun _ =>
    ⟨fun h => (Except.ok.inj h).symm, fun h => congrArg Except.ok h.symm⟩

/-- The marks after all selected columns: an opening is marked if it was, or if it holds a selected
column. -/
theorem foldlM_markOpening {columnsPerOpening : ℕ} {selectedColumns : List ℕ}
    {selected result : List Bool}
    (hfold : selectedColumns.foldlM (markOpening commitments columnsPerOpening) selected =
      (.ok result : Except (PcsError ε) (List Bool))) :
    (∀ column ∈ selectedColumns, column < commitments.logicalColumnCount ∧
        column / columnsPerOpening < selected.length) ∧
      ∀ index, result[index]? = some true ↔ selected[index]? = some true ∨
        ∃ column ∈ selectedColumns, column / columnsPerOpening = index := by
  induction selectedColumns generalizing selected with
  | nil =>
    cases Except.ok.inj hfold
    simp
  | cons column columns ih =>
    rw [List.foldlM_cons] at hfold
    obtain ⟨marked, hmark, hrest⟩ := Except.of_bind_eq_ok hfold
    obtain ⟨hcolumn, hopening, rfl⟩ := markOpening_eq_ok.mp hmark
    obtain ⟨hcolumns, hmarks⟩ := ih hrest
    rw [List.length_set] at hcolumns
    refine ⟨List.forall_mem_cons.mpr ⟨⟨hcolumn, hopening⟩, hcolumns⟩, fun index => ?_⟩
    rw [hmarks index, List.getElem?_set]
    by_cases hindex : column / columnsPerOpening = index
    · subst hindex
      simp [hopening]
    · simp [hindex]

/-- The positions of the marks, in order. -/
def markedPositions (selected : List Bool) : List ℕ :=
  selected.zipIdx.filterMap (fun entry => if entry.1 then some entry.2 else none)

theorem mem_markedPositions {selected : List Bool} {index : ℕ} :
    index ∈ markedPositions selected ↔ selected[index]? = some true := by
  unfold markedPositions
  rw [List.mem_filterMap]
  constructor
  · rintro ⟨⟨mark, position⟩, hentry, hmark⟩
    cases mark with
    | false => exact nomatch hmark
    | true =>
      obtain rfl := Option.some.inj hmark
      exact List.mem_zipIdx_iff_getElem?.mp hentry
  · intro hmark
    exact ⟨(true, index), List.mem_zipIdx_iff_getElem?.mpr hmark, rfl⟩

/-- The opened groups are those that hold a selected column. -/
structure Opens (layout : PcsLayout) (commitments : ColumnCommitments Group)
    (selectedColumns openingIndices : List ℕ) : Prop where
  selected : ∀ column ∈ selectedColumns, column < commitments.logicalColumnCount
  mem : ∀ index, index ∈ openingIndices ↔
    ∃ column ∈ selectedColumns, column / (layout.groupColumns * layout.groupsPerOpening) = index

theorem Opens.of_selected {selectedColumns openingIndices : List ℕ}
    (hselected : selectedOpeningIndices groupLayout layout commitments selectedColumns =
      (.ok openingIndices : Except (PcsError ε) (List ℕ))) :
    Opens layout commitments selectedColumns openingIndices := by
  unfold selectedOpeningIndices at hselected
  obtain ⟨-, hselected⟩ := Except.check_eq_ok.mp hselected
  obtain ⟨-, hselected⟩ := Except.check_eq_ok.mp hselected
  obtain ⟨openingCount, hcount, hselected⟩ := Except.of_bind_eq_ok hselected
  obtain ⟨columnsPerOpening, hcolumns, hselected⟩ := Except.of_bind_eq_ok hselected
  obtain ⟨marks, hmarks, hpositions⟩ := Except.of_bind_eq_ok hselected
  obtain ⟨-, rfl⟩ := checked_eq_ok.mp hcolumns
  obtain ⟨hrange, hmem⟩ := foldlM_markOpening hmarks
  have heq : markedPositions marks = openingIndices := Except.ok.inj hpositions
  refine ⟨fun column hcolumn => (hrange column hcolumn).1, fun index => ?_⟩
  rw [← heq, mem_markedPositions, hmem]
  simp [List.getElem?_replicate]

theorem openingColumns_eq_ok {columnsPerOpening openingIndex : ℕ} {columns : List ℕ}
    (hcolumns : openingColumns commitments columnsPerOpening openingIndex =
      (.ok columns : Except (PcsError ε) (List ℕ))) :
    columns = List.range' (openingIndex * columnsPerOpening)
      (min (openingIndex * columnsPerOpening + columnsPerOpening) commitments.logicalColumnCount -
        openingIndex * columnsPerOpening) := by
  unfold openingColumns at hcolumns
  obtain ⟨start, hstart, hcolumns⟩ := Except.of_bind_eq_ok hcolumns
  obtain ⟨stop, hstop, hcolumns⟩ := Except.of_bind_eq_ok hcolumns
  obtain ⟨-, rfl⟩ := checked_eq_ok.mp hstart
  obtain ⟨-, rfl⟩ := checked_eq_ok.mp hstop
  exact (Except.ok.inj hcolumns).symm

theorem mem_openingColumns {columnsPerOpening openingIndex column : ℕ} {columns : List ℕ}
    (hpos : 0 < columnsPerOpening)
    (hcolumns : openingColumns commitments columnsPerOpening openingIndex =
      (.ok columns : Except (PcsError ε) (List ℕ))) :
    column ∈ columns ↔
      column < commitments.logicalColumnCount ∧ column / columnsPerOpening = openingIndex := by
  rw [openingColumns_eq_ok hcolumns, List.mem_range'_1, Nat.div_eq_iff hpos]
  omega

/-- The columns of several openings are those whose opening is among them. -/
theorem mem_openedColumns {columnsPerOpening column : ℕ} {openingIndices : List ℕ}
    {columns : List (List ℕ)} (hpos : 0 < columnsPerOpening)
    (hcolumns : openingIndices.mapM (openingColumns commitments columnsPerOpening) =
      (.ok columns : Except (PcsError ε) (List (List ℕ)))) :
    column ∈ columns.flatten ↔
      column < commitments.logicalColumnCount ∧ column / columnsPerOpening ∈ openingIndices := by
  induction Except.mapM_eq_ok.mp hcolumns with
  | nil => simp
  | cons hfirst hrest ih =>
    rw [List.flatten_cons, List.mem_append, mem_openingColumns hpos hfirst,
      ih (Except.mapM_eq_ok.mpr hrest), List.mem_cons, ← and_or_left]

variable {F : Type} [Zero F] [DecidableEq F]

/-- Accepted values are zero away from the selected columns. -/
theorem checkUnselected_zero {index : ℕ} {values : List F} {cursor : List ℕ}
    (hcheck : (checkUnselected index values cursor : Except (PcsError ε) Unit) = .ok ()) :
    ∀ offset < values.length, index + offset ∉ cursor → values[offset]? = some 0 := by
  induction values generalizing index cursor with
  | nil => exact fun offset hoffset => absurd hoffset (Nat.not_lt_zero offset)
  | cons value values ih =>
    intro offset hoffset hunselected
    rw [checkUnselected] at hcheck
    have hshift (position : ℕ) : index + 1 + position = index + (position + 1) := by omega
    by_cases hhead : cursor.head? = some index
    · rw [if_pos hhead] at hcheck
      obtain ⟨rest, rfl⟩ : ∃ rest, cursor = index :: rest := List.head?_eq_some_iff.mp hhead
      cases offset with
      | zero => exact absurd List.mem_cons_self hunselected
      | succ offset =>
        rw [List.getElem?_cons_succ]
        refine ih hcheck offset (Nat.lt_of_succ_lt_succ hoffset) fun hmem => hunselected ?_
        exact hshift offset ▸ List.mem_cons_of_mem _ hmem
    · rw [if_neg hhead] at hcheck
      by_cases hvalue : value ≠ 0
      · rw [if_pos hvalue] at hcheck
        exact nomatch hcheck
      · rw [if_neg hvalue] at hcheck
        cases offset with
        | zero => rw [List.getElem?_cons_zero, not_not.mp hvalue]
        | succ offset =>
          rw [List.getElem?_cons_succ]
          exact ih hcheck offset (Nat.lt_of_succ_lt_succ hoffset) (hshift offset ▸ hunselected)

/-- What holds of the values of a selected opening that pass their check. -/
structure SelectedShape (groupLayout : Group → PolynomialGroupLayout) (layout : PcsLayout)
    (commitments : ColumnCommitments Group) (point logicalValues : List F)
    (openingIndices : List ℕ) (openingCount : ℕ) : Prop where
  valid : ValidCommitments groupLayout layout commitments
  point : point.length = layout.numVariables
  values : logicalValues.length = commitments.logicalColumnCount
  openings : openingCount = openingIndices.length
  zero : ∀ column < commitments.logicalColumnCount,
    column / (layout.groupColumns * layout.groupsPerOpening) ∉ openingIndices →
      logicalValues[column]? = some 0

theorem SelectedShape.of_validate {point logicalValues : List F} {openingIndices : List ℕ}
    {openingCount : ℕ}
    (hshape : validateSelectedOpeningShape groupLayout layout commitments point logicalValues
      openingIndices openingCount = (.ok () : Except (PcsError ε) Unit)) :
    SelectedShape groupLayout layout commitments point logicalValues openingIndices
      openingCount := by
  unfold validateSelectedOpeningShape at hshape
  obtain ⟨hvalidate, hrest⟩ := Except.check_eq_ok.mp hshape
  obtain ⟨hreject, hrest⟩ := Except.check_eq_ok.mp hrest
  obtain ⟨selected, hselected, hcheck⟩ := Except.of_bind_eq_ok hrest
  obtain ⟨columnsPerOpening, hper, hopened⟩ := Except.of_bind_eq_ok hselected
  obtain ⟨columns, hcolumns, hflat⟩ := Except.of_bind_eq_ok hopened
  obtain rfl := Except.ok.inj hflat
  obtain ⟨-, rfl⟩ := checked_eq_ok.mp hper
  have hvalid := ValidCommitments.of_validate hvalidate
  have hlengths := rejectIf_eq_ok.mp hreject
  push Not at hlengths
  refine ⟨hvalid, hlengths.1, hlengths.2.1, hlengths.2.2.2, fun column hcolumn hclosed => ?_⟩
  have hzero := checkUnselected_zero hcheck column (hcolumn.trans_eq hlengths.2.1.symm)
  rw [zero_add] at hzero
  refine hzero fun hmem => hclosed ?_
  exact ((mem_openedColumns
    (Nat.mul_pos hvalid.groupColumns_pos layout.groupsPerOpening_pos) hcolumns).mp hmem).2

omit [DecidableEq F] in
/-- The values of a group: those of its columns, and zeros after the last column. -/
theorem paddedGroupValues_eq_ok {logicalValues values : List F} {groupIndex : ℕ}
    (hvalues : paddedGroupValues layout logicalValues groupIndex =
      (.ok values : Except (PcsError ε) (List F))) :
    values.length = layout.groupColumns ∧ ∀ offset < layout.groupColumns,
      values[offset]? =
        some (logicalValues.getD (groupIndex * layout.groupColumns + offset) 0) := by
  unfold paddedGroupValues at hvalues
  obtain ⟨start, hstart, hvalues⟩ := Except.of_bind_eq_ok hvalues
  obtain ⟨stop, hstop, hvalues⟩ := Except.of_bind_eq_ok hvalues
  obtain ⟨-, rfl⟩ := checked_eq_ok.mp hstart
  obtain ⟨-, rfl⟩ := checked_eq_ok.mp hstop
  obtain ⟨-, hvalues⟩ := Except.check_eq_ok.mp hvalues
  obtain rfl := Except.ok.inj hvalues
  have hlength : ((logicalValues.drop (groupIndex * layout.groupColumns)).take
      (min (groupIndex * layout.groupColumns + layout.groupColumns) logicalValues.length -
        groupIndex * layout.groupColumns)).length =
      min layout.groupColumns (logicalValues.length - groupIndex * layout.groupColumns) := by
    rw [List.length_take, List.length_drop]
    omega
  refine ⟨by rw [List.length_rightpad, hlength]; omega, fun offset hoffset => ?_⟩
  rw [List.rightpad, List.getD_eq_getElem?_getD]
  by_cases hinside : groupIndex * layout.groupColumns + offset < logicalValues.length
  · rw [List.getElem?_append_left (by omega), List.getElem?_take_of_lt (by omega),
      List.getElem?_drop, List.getElem?_eq_getElem hinside, Option.getD_some]
  · rw [List.getElem?_append_right (by omega), List.getElem?_replicate, if_pos (by omega),
      List.getElem?_eq_none (Nat.le_of_not_lt hinside), Option.getD_none]

end Selection

end Pcs

end Zksm83
