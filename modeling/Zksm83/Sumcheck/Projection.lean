import Zksm83.Sumcheck.ConstraintSink
import Zksm83.Sumcheck.Validation

/-!
# Relations on projected rows

A relation that reads few columns of the trace is proved on compact rows: the values of its trace
columns, followed by all auxiliary columns. A compact row is expanded into a scratch row that is
zero elsewhere. The scratch row belongs to the thread, so all relations use it in turn; it is
cleared through the list of places that the evaluation before has written. `projected_eq` shows that
the expanded row does not depend on what was evaluated before. After `uniform/composite.rs`.
-/

namespace Zksm83

open Constraint

namespace Uniform

variable {F : Type}

structure ProjectedRelation (F : Type) where
  inner : UniformRelation F
  traceColumnCount : ℕ
  auxiliaryColumnCount : ℕ
  traceColumns : List ℕ

/-- The scratch row, and the places that were written since it was cleared. -/
structure ProjectedRowScratch (F : Type) where
  row : List F
  touched : List ℕ

namespace ProjectedRowScratch

/-- A thread starts without a scratch row. -/
def default : ProjectedRowScratch F := ⟨[], []⟩

/-- Where the values of a compact row go: the place in the full row and the place of the value. -/
def placements (traceColumnCount auxiliaryColumnCount : ℕ) (traceColumns : List ℕ) :
    List (ℕ × ℕ) :=
  traceColumns.zipIdx ++ (List.range auxiliaryColumnCount).map (fun auxiliaryIndex =>
    (traceColumnCount + auxiliaryIndex, traceColumns.length + auxiliaryIndex))

/-- The values are written one after the other; a failure keeps what was written before. -/
def populate (compactRow : List F) :
    List (ℕ × ℕ) → ProjectedRowScratch F → Except UniformError Unit × ProjectedRowScratch F
  | [], scratch => (.ok (), scratch)
  | (fullIndex, compactIndex) :: rest, scratch =>
    match compactRow[compactIndex]? with
    | none => (.error .shape, scratch)
    | some value =>
      if fullIndex < scratch.row.length then
        populate compactRow rest
          ⟨scratch.row.set fullIndex value, scratch.touched ++ [fullIndex]⟩
      else (.error .shape, scratch)

variable [Zero F]

/-- The places of a list are cleared. -/
def clear (row : List F) (touched : List ℕ) : List F :=
  touched.foldl (fun row index => row.set index 0) row

/-- The scratch row of a compact row. -/
def prepare (scratch : ProjectedRowScratch F) (fullColumnCount traceColumnCount : ℕ)
    (traceColumns : List ℕ) (compactRow : List F) :
    Except UniformError Unit × ProjectedRowScratch F :=
  if fullColumnCount < traceColumnCount then (.error .shape, scratch)
  else
    let auxiliaryColumnCount := fullColumnCount - traceColumnCount
    if compactRow.length ≠ traceColumns.length + auxiliaryColumnCount then
      (.error .shape, scratch)
    else
      let places := placements traceColumnCount auxiliaryColumnCount traceColumns
      if scratch.row.length = fullColumnCount then
        if ∃ index ∈ scratch.touched, scratch.row.length ≤ index then
          (.error .shape, ⟨List.replicate scratch.row.length 0, []⟩)
        else populate compactRow places ⟨clear scratch.row scratch.touched, []⟩
      else populate compactRow places ⟨List.replicate fullColumnCount 0, []⟩

end ProjectedRowScratch

namespace ProjectedRelation

open ProjectedRowScratch

/-- The checks of a projection: its columns are distinct trace columns in their order. -/
def new [Field F] [DecidableEq F] (domain statementBytes : List Byte) (inner : UniformRelation F)
    (traceColumnCount : ℕ) (traceColumns : List ℕ) :
    Except UniformError (ProjectedRelation F) := do
  validateRelation domain statementBytes inner
  rejectIf (inner.columnCount < traceColumnCount) .shape
  let auxiliaryColumnCount := inner.columnCount - traceColumnCount
  rejectIf (traceColumnCount = 0 ∨ auxiliaryColumnCount = 0 ∨ traceColumns = [] ∨
    (∃ column ∈ traceColumns, traceColumnCount ≤ column) ∨
    ∃ pair ∈ traceColumns.zip traceColumns.tail, pair.2 ≤ pair.1) .shape
  return ⟨inner, traceColumnCount, auxiliaryColumnCount, traceColumns⟩

/-- An evaluation: what it returns, and the scratch row that it leaves. -/
def evaluate [Zero F] (relation : ProjectedRelation F) (scratch : ProjectedRowScratch F)
    (row constraints : List F) : Except UniformError (List F) × ProjectedRowScratch F :=
  match scratch.prepare relation.inner.columnCount relation.traceColumnCount
      relation.traceColumns row with
  | (.error error, scratch) => (.error error, scratch)
  | (.ok (), scratch) => (relation.inner.evaluate scratch.row constraints, scratch)

end ProjectedRelation

/-- An evaluation that a thread is asked for. -/
structure ProjectedEvaluation (F : Type) where
  relation : ProjectedRelation F
  row : List F
  constraints : List F

/-- The scratch row of a thread after a history of evaluations, accepted and failed ones. -/
def scratchAfter [Zero F] (history : List (ProjectedEvaluation F)) : ProjectedRowScratch F :=
  history.foldl (fun scratch evaluation =>
    (evaluation.relation.evaluate scratch evaluation.row evaluation.constraints).2) .default

/-! ## Clean scratch rows -/

namespace ProjectedRowScratch

variable [Zero F] {scratch : ProjectedRowScratch F} {compactRow : List F}

/-- Every place of the row that is not remembered is zero. -/
structure Clean (scratch : ProjectedRowScratch F) : Prop where
  touched_lt : ∀ index ∈ scratch.touched, index < scratch.row.length
  zero : ∀ index < scratch.row.length, index ∉ scratch.touched → scratch.row[index]? = some 0

theorem clean_default : Clean (default : ProjectedRowScratch F) where
  touched_lt := by simp [default]
  zero := by simp [default]

theorem clean_replicate (count : ℕ) :
    Clean (⟨List.replicate count 0, []⟩ : ProjectedRowScratch F) where
  touched_lt := by simp
  zero index hindex _ := by
    rw [List.length_replicate] at hindex
    simp [hindex]

/-- Clearing a place zeroes it and keeps the others. -/
theorem getElem?_clear (row : List F) (touched : List ℕ) {index : ℕ} (hindex : index < row.length) :
    (clear row touched)[index]? = if index ∈ touched then some 0 else row[index]? := by
  induction touched generalizing row with
  | nil => rfl
  | cons place touched ih =>
    show (clear (row.set place 0) touched)[index]? = _
    have hnext := ih (row.set place 0) (by simpa using hindex)
    by_cases htouched : index ∈ touched
    · rw [hnext, if_pos htouched, if_pos (List.mem_cons_of_mem _ htouched)]
    · by_cases hplace : place = index
      · rw [hnext, if_neg htouched, if_pos (List.mem_cons.mpr (.inl hplace.symm)), hplace,
          List.getElem?_set_self hindex]
      · rw [hnext, if_neg htouched, if_neg (by simp [htouched, Ne.symm hplace]),
          List.getElem?_set_ne hplace]

@[simp] theorem length_clear (row : List F) (touched : List ℕ) :
    (clear row touched).length = row.length := by
  induction touched generalizing row with
  | nil => rfl
  | cons place touched ih => exact (ih (row.set place 0)).trans List.length_set

/-- A clean row is all zeros after it was cleared. -/
theorem Clean.clear_eq (hclean : Clean scratch) :
    clear scratch.row scratch.touched = List.replicate scratch.row.length 0 := by
  refine List.ext_getElem? fun index => ?_
  by_cases hindex : index < scratch.row.length
  · rw [getElem?_clear _ _ hindex, List.getElem?_replicate_of_lt hindex]
    split_ifs with htouched
    · rfl
    · exact hclean.zero index hindex htouched
  · rw [List.getElem?_eq_none (by simpa using hindex),
      List.getElem?_eq_none (by simpa using hindex)]

/-- Every write is remembered, also when a later one fails. -/
theorem Clean.populate (places : List (ℕ × ℕ)) (hclean : Clean scratch) :
    Clean (populate compactRow places scratch).2 := by
  induction places generalizing scratch with
  | nil => exact hclean
  | cons place places ih =>
    obtain ⟨fullIndex, compactIndex⟩ := place
    unfold ProjectedRowScratch.populate
    split
    · exact hclean
    · rename_i value _
      split_ifs with hinside
      · refine ih ⟨fun index hindex => ?_, fun index hindex houtside => ?_⟩
        · rw [List.length_set]
          rcases List.mem_append.mp hindex with hold | hnew
          · exact hclean.touched_lt index hold
          · rwa [List.mem_singleton.mp hnew]
        · rw [List.mem_append, List.mem_singleton, not_or] at houtside
          rw [List.length_set] at hindex
          rw [List.getElem?_set_ne (Ne.symm houtside.2)]
          exact hclean.zero index hindex houtside.1
      · exact hclean

/-- A clean scratch row is cleared, or replaced by a row of the right length. -/
theorem Clean.prepare_eq (hclean : Clean scratch) {fullColumnCount traceColumnCount : ℕ}
    {traceColumns : List ℕ} (htrace : traceColumnCount ≤ fullColumnCount)
    (hlength : compactRow.length = traceColumns.length + (fullColumnCount - traceColumnCount)) :
    scratch.prepare fullColumnCount traceColumnCount traceColumns compactRow =
      ProjectedRowScratch.populate compactRow
        (placements traceColumnCount (fullColumnCount - traceColumnCount) traceColumns)
        ⟨List.replicate fullColumnCount 0, []⟩ := by
  have hvalid : ¬ ∃ index ∈ scratch.touched, scratch.row.length ≤ index := fun ⟨index, hmem, hle⟩ =>
    Nat.not_lt.mpr hle (hclean.touched_lt index hmem)
  unfold prepare
  rw [if_neg (Nat.not_lt.mpr htrace)]
  simp only [hlength, ne_eq, not_true_eq_false, if_false, if_neg hvalid, hclean.clear_eq]
  split_ifs with hwidth
  · rw [hwidth]
  · rfl

theorem Clean.prepare (hclean : Clean scratch) (fullColumnCount traceColumnCount : ℕ)
    (traceColumns : List ℕ) (compactRow : List F) :
    Clean (scratch.prepare fullColumnCount traceColumnCount traceColumns compactRow).2 := by
  by_cases htrace : traceColumnCount ≤ fullColumnCount
  · by_cases hlength :
        compactRow.length = traceColumns.length + (fullColumnCount - traceColumnCount)
    · rw [hclean.prepare_eq htrace hlength]
      exact (clean_replicate fullColumnCount).populate _
    · rw [ProjectedRowScratch.prepare, if_neg (Nat.not_lt.mpr htrace)]
      simp only [ne_eq, hlength, not_false_eq_true, if_true]
      exact hclean
  · rw [ProjectedRowScratch.prepare, if_pos (Nat.lt_of_not_le htrace)]
    exact hclean

end ProjectedRowScratch

open ProjectedRowScratch

theorem ProjectedRelation.evaluate_clean [Zero F] (relation : ProjectedRelation F)
    {scratch : ProjectedRowScratch F} (hclean : Clean scratch) (row constraints : List F) :
    Clean (relation.evaluate scratch row constraints).2 := by
  have hprepared := hclean.prepare relation.inner.columnCount relation.traceColumnCount
    relation.traceColumns row
  unfold ProjectedRelation.evaluate
  split <;> rename_i heq <;> rwa [heq] at hprepared

/-- Every history of evaluations leaves a clean scratch row. -/
theorem scratchAfter_clean [Zero F] (history : List (ProjectedEvaluation F)) :
    Clean (scratchAfter history) := by
  induction history using List.reverseRecOn with
  | nil => exact clean_default
  | append_singleton history evaluation ih =>
    rw [scratchAfter, List.foldl_append]
    exact evaluation.relation.evaluate_clean ih _ _

/-! ## Faithful projections -/

/-- The trace columns of a row that a projection does not list weigh one, all other columns zero. -/
def unlisted (traceColumnCount : ℕ) (traceColumns : List ℕ) (column : ℕ) : ℕ :=
  bif Nat.blt column traceColumnCount && !traceColumns.elem column then 1 else 0

theorem unlisted_eq_zero {traceColumnCount : ℕ} {traceColumns : List ℕ} {column : ℕ}
    (hunlisted : unlisted traceColumnCount traceColumns column ≤ 0)
    (hlt : column < traceColumnCount) : column ∈ traceColumns := by
  by_contra hmem
  simp [unlisted, Nat.blt_eq.mpr hlt, hmem] at hunlisted

/-- A full row whose unlisted trace columns are zero. -/
def projectedRow [Zero F] (traceColumnCount : ℕ) (traceColumns : List ℕ) (row : List F) : List F :=
  row.mapIdx (fun column value =>
    if traceColumnCount ≤ column ∨ column ∈ traceColumns then value else 0)

/-- The listed trace columns of a full row, then its auxiliary columns. -/
def compactRow [Zero F] (traceColumnCount : ℕ) (traceColumns : List ℕ) (row : List F) : List F :=
  traceColumns.map (fun column => row.getD column 0) ++ row.drop traceColumnCount

namespace ProjectedRowScratch

/-- Values that are written at their places leave a row that has them. -/
theorem populate_eq {compactRow target : List F} (places : List (ℕ × ℕ)) (row : List F)
    (touched : List ℕ) (hlength : row.length = target.length)
    (hvalues : ∀ place ∈ places, place.1 < target.length ∧
      compactRow[place.2]? = target[place.1]?)
    (hothers : ∀ index, index ∉ places.map Prod.fst → row[index]? = target[index]?) :
    populate compactRow places ⟨row, touched⟩ =
      (.ok (), ⟨target, touched ++ places.map Prod.fst⟩) := by
  induction places generalizing row touched with
  | nil =>
    have hrow : row = target := List.ext_getElem? fun index => hothers index (by simp)
    simp [populate, hrow]
  | cons place places ih =>
    obtain ⟨fullIndex, compactIndex⟩ := place
    obtain ⟨hinside, hvalue⟩ := hvalues (fullIndex, compactIndex) List.mem_cons_self
    have htarget : target[fullIndex]? = some target[fullIndex] := List.getElem?_eq_getElem hinside
    unfold populate
    rw [hvalue, htarget]
    simp only [if_pos (hlength ▸ hinside : fullIndex < row.length)]
    rw [ih (row.set fullIndex target[fullIndex]) _ (by rw [List.length_set, hlength])
      (fun other hother => hvalues other (List.mem_cons_of_mem _ hother)) fun index hindex => ?_]
    · simp
    · by_cases heq : fullIndex = index
      · rw [← heq, List.getElem?_set_self (hlength ▸ hinside), htarget]
      · rw [List.getElem?_set_ne heq]
        exact hothers index (by simpa [Ne.symm heq] using hindex)

variable [Zero F] {scratch : ProjectedRowScratch F}

/-- A compact row is expanded to the row that it was taken from, with zeros at the trace columns
that are not listed. -/
theorem Clean.prepare_compact (hclean : Clean scratch) {fullColumnCount traceColumnCount : ℕ}
    {traceColumns : List ℕ} {row : List F} (hrow : row.length = fullColumnCount)
    (htrace : traceColumnCount ≤ fullColumnCount)
    (hcolumns : ∀ column ∈ traceColumns, column < traceColumnCount) :
    ∃ touched, scratch.prepare fullColumnCount traceColumnCount traceColumns
        (compactRow traceColumnCount traceColumns row) =
      (.ok (), ⟨projectedRow traceColumnCount traceColumns row, touched⟩) := by
  have hlength : (compactRow traceColumnCount traceColumns row).length =
      traceColumns.length + (fullColumnCount - traceColumnCount) := by simp [compactRow, hrow]
  have hwidth : (projectedRow traceColumnCount traceColumns row).length = fullColumnCount := by
    simp [projectedRow, hrow]
  refine ⟨_, (hclean.prepare_eq htrace hlength).trans (populate_eq _ _ _ ?_ ?_ ?_)⟩
  · rw [List.length_replicate, hwidth]
  · intro place hplace
    rcases List.mem_append.mp hplace with hlisted | hauxiliary
    · have hcolumn := List.mem_zipIdx_iff_getElem?.mp hlisted
      have hmem : place.1 ∈ traceColumns := List.mem_of_getElem? hcolumn
      have hinside : place.1 < row.length := by
        have := hcolumns place.1 hmem
        omega
      refine ⟨by rwa [hwidth, ← hrow], ?_⟩
      rw [compactRow, List.getElem?_append_left (by
        simpa using (List.getElem?_eq_some_iff.mp hcolumn).1)]
      simp [projectedRow, hcolumn, hmem, List.getElem?_eq_getElem hinside]
    · obtain ⟨index, hindex, rfl⟩ := List.mem_map.mp hauxiliary
      have hinside : traceColumnCount + index < row.length := by
        have := List.mem_range.mp hindex
        omega
      refine ⟨by rwa [hwidth, ← hrow], ?_⟩
      rw [compactRow, List.getElem?_append_right (by simp)]
      simp [projectedRow, List.getElem?_eq_getElem hinside]
  · intro index hindex
    by_cases hinside : index < row.length
    · have hzero : ¬ (traceColumnCount ≤ index ∨ index ∈ traceColumns) := by
        rintro (hauxiliary | hlisted)
        · refine hindex (List.mem_map.mpr ⟨(index, _), List.mem_append_right _
            (List.mem_map.mpr ⟨index - traceColumnCount, ?_, Prod.ext ?_ rfl⟩), rfl⟩)
          · exact List.mem_range.mpr (by omega)
          · show traceColumnCount + (index - traceColumnCount) = index
            omega
        · obtain ⟨place, hplace⟩ := List.mem_iff_getElem?.mp hlisted
          exact hindex (List.mem_map.mpr ⟨(index, place), List.mem_append_left _
            (List.mem_zipIdx_iff_getElem?.mpr hplace), rfl⟩)
      rw [List.getElem?_replicate_of_lt (hrow ▸ hinside)]
      simp only [projectedRow, List.getElem?_mapIdx, List.getElem?_eq_getElem hinside,
        Option.map_some, if_neg hzero]
    · rw [List.getElem?_eq_none (by simpa [← hrow] using hinside),
        List.getElem?_eq_none (by simpa [hwidth, ← hrow] using hinside)]

end ProjectedRowScratch

/-- A relation that reads only the listed trace columns and the auxiliary columns has the same
constraints on a projected row. -/
theorem projected_constraints [Zero F] {traceColumnCount count : ℕ} {traceColumns : List ℕ}
    {constraints : Row F → List F}
    (hreading : Reading (unlisted traceColumnCount traceColumns) 0 count constraints)
    (row : List F) :
    constraints (listRow (projectedRow traceColumnCount traceColumns row)) =
      constraints (listRow row) := by
  refine hreading.congr _ _ fun column hcolumn => ?_
  have hread : traceColumnCount ≤ column ∨ column ∈ traceColumns := by
    by_cases hlt : column < traceColumnCount
    · exact .inr (unlisted_eq_zero hcolumn hlt)
    · exact .inl (Nat.le_of_not_lt hlt)
  simp only [listRow, projectedRow, List.getD_eq_getElem?_getD, List.getElem?_mapIdx, if_pos hread]
  cases row[column]? <;> rfl

/-- The evaluation of a compact row is that of its full row, whatever the thread evaluated
before. -/
theorem ProjectedRelation.projected_eq [Zero F] {relation : ProjectedRelation F}
    {constraints : Row F → List F} {count : ℕ} (hinner : Evaluates relation.inner constraints)
    (hreading : Reading (unlisted relation.traceColumnCount relation.traceColumns) 0 count
      constraints)
    (htrace : relation.traceColumnCount ≤ relation.inner.columnCount)
    (hcolumns : ∀ column ∈ relation.traceColumns, column < relation.traceColumnCount)
    (history : List (ProjectedEvaluation F)) (row buffer : List F)
    (hrow : row.length = relation.inner.columnCount) :
    (relation.evaluate (scratchAfter history)
      (compactRow relation.traceColumnCount relation.traceColumns row) buffer).1 =
        relation.inner.evaluate row buffer := by
  obtain ⟨touched, hprepared⟩ := (scratchAfter_clean history).prepare_compact hrow htrace hcolumns
  have hwidth : (projectedRow relation.traceColumnCount relation.traceColumns row).length =
      row.length := by simp [projectedRow]
  rw [ProjectedRelation.evaluate, hprepared]
  show relation.inner.evaluate _ buffer = _
  rw [hinner.evaluate_eq, hinner.evaluate_eq, hwidth, projected_constraints hreading]

/-- The neighbours of an increasing list are increasing. -/
theorem zip_tail_lt {columns : List ℕ} (hsorted : columns.Pairwise (· < ·)) :
    ∀ pair ∈ columns.zip columns.tail, pair.1 < pair.2 := by
  intro pair hpair
  obtain ⟨index, hindex⟩ := List.mem_iff_getElem?.mp hpair
  rw [← List.drop_one, List.getElem?_zip_eq_some, List.getElem?_drop] at hindex
  obtain ⟨hfirst, hfirst_eq⟩ := List.getElem?_eq_some_iff.mp hindex.1
  obtain ⟨hsecond, hsecond_eq⟩ := List.getElem?_eq_some_iff.mp hindex.2
  rw [← hfirst_eq, ← hsecond_eq]
  exact List.pairwise_iff_getElem.mp hsorted _ _ hfirst hsecond (by omega)

/-- Increasing trace columns of a relation with auxiliary columns are a projection. -/
theorem ProjectedRelation.new_eq [Field F] [DecidableEq F] {domain statementBytes : List Byte}
    {inner : UniformRelation F} {traceColumnCount : ℕ} {traceColumns : List ℕ}
    (hrelation : validateRelation domain statementBytes inner = .ok ())
    (hpositive : 0 < traceColumnCount) (hauxiliary : traceColumnCount < inner.columnCount)
    (hnonempty : traceColumns ≠ []) (hcolumns : ∀ column ∈ traceColumns, column < traceColumnCount)
    (hsorted : traceColumns.Pairwise (· < ·)) :
    new domain statementBytes inner traceColumnCount traceColumns =
      .ok ⟨inner, traceColumnCount, inner.columnCount - traceColumnCount, traceColumns⟩ := by
  refine Except.check_eq_ok.mpr ⟨hrelation, Except.check_eq_ok.mpr
    ⟨rejectIf_eq_ok.mpr (by omega), Except.check_eq_ok.mpr ⟨rejectIf_eq_ok.mpr ?_, rfl⟩⟩⟩
  rintro (hzero | hzero | hempty | ⟨column, hcolumn, houtside⟩ | ⟨pair, hpair, hdecreasing⟩)
  · omega
  · omega
  · exact hnonempty hempty
  · exact Nat.not_lt.mpr houtside (hcolumns column hcolumn)
  · exact Nat.not_lt.mpr hdecreasing (zip_tail_lt hsorted pair hpair)

end Uniform

end Zksm83
