import Zksm83.Argument.Continuity
import Zksm83.Sumcheck.Zerocheck

/-!
# Validation of a witness

Before anything is committed the rows of a witness are checked against the relation. The rows are
divided among the workers in consecutive ranges, every worker stops at its first violation, and the
results are read in the order of the ranges. Read `validation_exact` first. After `uniform.rs`.
-/

namespace Zksm83

open Sumcheck

namespace Uniform

variable {F : Type} [Field F] [DecidableEq F]

/-- A relation is well formed, with the domain and the statement that its transcript binds. -/
def validateRelation (domain statementBytes : List Byte) (relation : UniformRelation F) :
    Except UniformError Unit := do
  rejectIf (domain = [] ∨ statementBytes = [] ∨ relation.columnCount = 0 ∨
    relation.constraintCount = 0 ∨ relation.maxConstraintDegree = 0) .emptyRelation
  rejectIf (2 ^ 64 ≤ relation.maxConstraintDegree + 2) .shape

def validateWitnessShape (domain statementBytes : List Byte) (relation : UniformRelation F)
    (columns : List (List ℕ)) : Except UniformError ℕ := do
  validateRelation domain statementBytes relation
  rejectIf (columns.length ≠ relation.columnCount) .shape
  let first ← someOr columns.head? .shape
  rejectIf (first.length ≠ uniformRowCount ∨ columns.any (fun column => column.length ≠ first.length))
    .shape
  return first.length

/-- The rows of a range, one after the other, in one buffer: the first violation, if there is one. -/
def validateRows (relation : UniformRelation F) (readRow : ℕ → Except UniformError (List F)) :
    List ℕ → List F → Except UniformError (Option (ℕ × ℕ))
  | [], _ => .ok none
  | rowIndex :: rest, constraints => do
    let row ← readRow rowIndex
    let constraints ← relation.evaluate row (initializeConstraintOutput relation constraints)
    match constraints.findIdx? (fun value => decide (value ≠ 0)) with
    | some constraint => return some (rowIndex, constraint)
    | none => validateRows relation readRow rest constraints

def validationChunkCount (threadCount rowCount : ℕ) : Except UniformError ℕ := do
  rejectIf (rowCount = 0) .shape
  return max 1 (min threadCount rowCount)

def validationRange (rowCount rowsPerChunk chunk : ℕ) : Except UniformError (List ℕ) := do
  rejectIf (2 ^ 64 ≤ chunk * rowsPerChunk) .shape
  return List.range' (chunk * rowsPerChunk)
    (min (min (chunk * rowsPerChunk + rowsPerChunk) (2 ^ 64 - 1)) rowCount - chunk * rowsPerChunk)

def validateChunk (relation : UniformRelation F) (readRow : ℕ → Except UniformError (List F))
    (rowCount rowsPerChunk chunk : ℕ) : Except UniformError (Option (ℕ × ℕ)) := do
  let rows ← validationRange rowCount rowsPerChunk chunk
  validateRows relation readRow rows (List.replicate relation.constraintCount 0)

/-- The results of the ranges, in their order. -/
def finishParallelValidation :
    List (Except UniformError (Option (ℕ × ℕ))) → Except UniformError Unit
  | [] => .ok ()
  | result :: rest => do
    match ← result with
    | some (row, constraint) => .error (.witnessUnsatisfied row constraint)
    | none => finishParallelValidation rest

/-- All rows, divided among the workers. -/
def ensureRows (threadCount : ℕ) (relation : UniformRelation F)
    (readRow : ℕ → Except UniformError (List F)) (rowCount : ℕ) : Except UniformError Unit := do
  let chunks ← validationChunkCount threadCount rowCount
  let rowsPerChunk := (rowCount + chunks - 1) / chunks
  finishParallelValidation ((List.range chunks).map
    (validateChunk relation readRow rowCount rowsPerChunk))

/-- A row of columns of field elements. -/
def fieldRow (columns : List (List F)) (rowIndex : ℕ) : Except UniformError (List F) :=
  columns.mapM (fun column => someOr column[rowIndex]? .shape)

/-- A row of columns of 64-bit numbers. -/
def u64Row (columns : List (List ℕ)) (rowIndex : ℕ) : Except UniformError (List F) :=
  columns.mapM (fun column => (someOr column[rowIndex]? .shape).map (fun value : ℕ => (value : F)))

def ensureRelationHolds (threadCount : ℕ) (relation : UniformRelation F) (columns : List (List F))
    (rowCount : ℕ) : Except UniformError Unit :=
  ensureRows threadCount relation (fieldRow columns) rowCount

def ensureU64RelationHolds (threadCount : ℕ) (relation : UniformRelation F)
    (columns : List (List ℕ)) (rowCount : ℕ) : Except UniformError Unit :=
  ensureRows threadCount relation (u64Row columns) rowCount

def validateUniformWitness (threadCount : ℕ) (domain statementBytes : List Byte)
    (relation : UniformRelation F) (columns : List (List ℕ)) : Except UniformError Unit := do
  let rowCount ← validateWitnessShape domain statementBytes relation columns
  ensureU64RelationHolds threadCount relation columns rowCount

/-! ## The rows in order -/

/-- What a relation makes of a row, in any buffer that meets its initialization contract: the values
of its constraints, or an error. -/
structure Yields (relation : UniformRelation F) (outcome : List F → Except UniformError (List F)) :
    Prop where
  length_eq {row values : List F} (hrow : row.length = relation.columnCount)
    (houtcome : outcome row = .ok values) : values.length = relation.constraintCount
  evaluate_eq {row buffer : List F} (hrow : row.length = relation.columnCount)
    (hbuffer : buffer.length = relation.constraintCount)
    (hzeros : relation.constraintOutput = .zeroInitialized →
      buffer = List.replicate relation.constraintCount 0) :
    relation.evaluate row buffer = outcome row

omit [DecidableEq F] in
theorem Computes.yields {relation : UniformRelation F} {constraint : List F → List F}
    (hcomputes : Computes relation constraint) :
    Yields relation (fun row => .ok (constraint row)) where
  length_eq hrow houtcome := by
    rw [← Except.ok.inj houtcome]
    exact hcomputes.length_constraint hrow
  evaluate_eq := hcomputes.evaluate_eq

/-- All constraints of a row are zero. -/
def RowSatisfied (outcome : Except UniformError (List F)) : Prop :=
  ∃ values, outcome = .ok values ∧ ∀ value ∈ values, value = 0

/-- The first violation among rows that are looked at one after the other. -/
def firstViolation (outcome : ℕ → Except UniformError (List F)) :
    List ℕ → Except UniformError (Option (ℕ × ℕ))
  | [] => .ok none
  | row :: rest => do
    match (← outcome row).findIdx? (fun value => decide (value ≠ 0)) with
    | some constraint => return some (row, constraint)
    | none => firstViolation outcome rest

theorem firstViolation_append (outcome : ℕ → Except UniformError (List F)) (front back : List ℕ) :
    firstViolation outcome (front ++ back) =
      (do match ← firstViolation outcome front with
        | some violation => return some violation
        | none => firstViolation outcome back) := by
  induction front with
  | nil => rfl
  | cons row rest ih =>
    rw [List.cons_append, firstViolation, firstViolation]
    cases outcome row with
    | error error => rfl
    | ok values =>
      change (match values.findIdx? (fun value => decide (value ≠ 0)) with
        | some constraint => (pure (some (row, constraint)) : Except UniformError _)
        | none => firstViolation outcome (rest ++ back)) = _
      cases hfind : values.findIdx? (fun value => decide (value ≠ 0)) with
      | some constraint =>
        simp only [bind, Except.bind, hfind]
        rfl
      | none =>
        simp only [bind, Except.bind, hfind]
        rw [ih]
        rfl

/-- A range of rows that are all read stops at its first violation. -/
theorem validateRows_eq {relation : UniformRelation F}
    {outcome : List F → Except UniformError (List F)} (hyields : Yields relation outcome)
    {readRow : ℕ → Except UniformError (List F)} {row : ℕ → List F} {rows : List ℕ}
    (hread : ∀ index ∈ rows, readRow index = .ok (row index) ∧
      (row index).length = relation.columnCount)
    {buffer : List F} (hbuffer : buffer.length = relation.constraintCount) :
    validateRows relation readRow rows buffer =
      firstViolation (fun index => outcome (row index)) rows := by
  induction rows generalizing buffer with
  | nil => rfl
  | cons index rest ih =>
    obtain ⟨hrow, hlength⟩ := hread index List.mem_cons_self
    have hevaluate : relation.evaluate (row index) (initializeConstraintOutput relation buffer) =
        outcome (row index) := by
      refine hyields.evaluate_eq hlength ?_ fun hzero => ?_
      · unfold initializeConstraintOutput
        split
        · rw [List.length_replicate, hbuffer]
        · exact hbuffer
      · rw [initializeConstraintOutput, hzero, hbuffer]
    rw [validateRows, firstViolation, hrow]
    change (relation.evaluate (row index) (initializeConstraintOutput relation buffer) >>= _) = _
    rw [hevaluate]
    cases houtcome : outcome (row index) with
    | error error => rfl
    | ok values =>
      change (match values.findIdx? (fun value => decide (value ≠ 0)) with
        | some constraint => (pure (some (index, constraint)) : Except UniformError _)
        | none => validateRows relation readRow rest values) = _
      rw [ih (fun other hother => hread other (List.mem_cons_of_mem _ hother))
        (hyields.length_eq hlength houtcome)]
      rfl

/-- The results of consecutive ranges are read as the result of all their rows. -/
theorem finishParallelValidation_map (outcome : ℕ → Except UniformError (List F))
    (ranges : List (List ℕ)) :
    finishParallelValidation (ranges.map (firstViolation outcome)) =
      finishParallelValidation [firstViolation outcome ranges.flatten] := by
  induction ranges with
  | nil => rfl
  | cons range rest ih =>
    rw [List.map_cons, List.flatten_cons, firstViolation_append, finishParallelValidation,
      finishParallelValidation]
    cases firstViolation outcome range with
    | error error => rfl
    | ok violation =>
      cases violation with
      | some violation => rfl
      | none =>
        change finishParallelValidation (rest.map (firstViolation outcome)) = _
        rw [ih]
        rfl

theorem rowSatisfied_iff {outcome : Except UniformError (List F)} :
    RowSatisfied outcome ↔ ∃ values, outcome = .ok values ∧
      values.findIdx? (fun value => decide (value ≠ 0)) = none := by
  simp [RowSatisfied, List.findIdx?_eq_none_iff]

/-- Rows that are satisfied are passed over. -/
theorem firstViolation_satisfied {outcome : ℕ → Except UniformError (List F)} {rows : List ℕ}
    (hrows : ∀ row ∈ rows, RowSatisfied (outcome row)) : firstViolation outcome rows = .ok none := by
  induction rows with
  | nil => rfl
  | cons row rest ih =>
    obtain ⟨values, houtcome, hfind⟩ := rowSatisfied_iff.mp (hrows row List.mem_cons_self)
    rw [firstViolation, houtcome]
    change (match values.findIdx? (fun value => decide (value ≠ 0)) with
      | some constraint => (pure (some (row, constraint)) : Except UniformError _)
      | none => firstViolation outcome rest) = _
    rw [hfind]
    exact ih fun other hother => hrows other (List.mem_cons_of_mem _ hother)

/-- The verdict on rows: success if all are satisfied, otherwise the lowest violation, or the error
of a row in front of it. -/
structure Decided (outcome : ℕ → Except UniformError (List F)) (rowCount : ℕ)
    (result : Except UniformError Unit) : Prop where
  ok_iff : result = .ok () ↔ ∀ row < rowCount, RowSatisfied (outcome row)
  violation : result ≠ .ok () → ∃ row < rowCount,
    (∀ earlier < row, RowSatisfied (outcome earlier)) ∧
    ((∃ values constraint value, outcome row = .ok values ∧ values[constraint]? = some value ∧
        value ≠ 0 ∧ (∀ earlier < constraint, values[earlier]? = some 0) ∧
        result = .error (.witnessUnsatisfied row constraint)) ∨
      ∃ error, outcome row = .error error ∧ result = .error error)

theorem range_eq_append {row rowCount : ℕ} (hrow : row < rowCount) :
    List.range rowCount = List.range row ++ row :: List.range' (row + 1) (rowCount - row - 1) := by
  rw [List.range_eq_range', List.range_eq_range', ← List.range'_succ]
  have hsplit : rowCount = row + (rowCount - row - 1 + 1) := by omega
  conv_lhs => rw [hsplit]
  rw [← List.range'_append_1, Nat.zero_add]

theorem decided_firstViolation (outcome : ℕ → Except UniformError (List F)) (rowCount : ℕ) :
    Decided outcome rowCount
      (finishParallelValidation [firstViolation outcome (List.range rowCount)]) := by
  by_cases hall : ∀ row < rowCount, RowSatisfied (outcome row)
  · have hnone := firstViolation_satisfied fun row hrow => hall row (List.mem_range.mp hrow)
    rw [hnone]
    exact ⟨⟨fun _ => hall, fun _ => rfl⟩, fun hne => absurd rfl hne⟩
  · classical
    push Not at hall
    obtain ⟨row, ⟨hrow, hviolated⟩, hleast⟩ : ∃ row,
        (row < rowCount ∧ ¬ RowSatisfied (outcome row)) ∧
        ∀ earlier < row, ¬ (earlier < rowCount ∧ ¬ RowSatisfied (outcome earlier)) :=
      ⟨Nat.find hall, Nat.find_spec hall, fun _ hlt => Nat.find_min hall hlt⟩
    have hbefore (earlier : ℕ) (hlt : earlier < row) : RowSatisfied (outcome earlier) := by
      by_contra hnot
      exact hleast earlier hlt ⟨hlt.trans hrow, hnot⟩
    have hfail (error : UniformError)
        (hresult : finishParallelValidation [firstViolation outcome (List.range rowCount)] =
          .error error) :
        finishParallelValidation [firstViolation outcome (List.range rowCount)] = .ok () ↔
          ∀ row < rowCount, RowSatisfied (outcome row) := by
      rw [hresult]
      exact ⟨fun h => (by cases h), fun h => absurd (h row hrow) hviolated⟩
    have hscan : firstViolation outcome (List.range rowCount) = firstViolation outcome
        (row :: List.range' (row + 1) (rowCount - row - 1)) := by
      rw [range_eq_append hrow, firstViolation_append,
        firstViolation_satisfied fun earlier hearlier => hbefore earlier (List.mem_range.mp hearlier)]
      rfl
    cases houtcome : outcome row with
    | error error =>
      have hresult : finishParallelValidation [firstViolation outcome (List.range rowCount)] =
          .error error := by
        rw [hscan, firstViolation, houtcome]
        rfl
      exact ⟨hfail error hresult, fun _ => ⟨row, hrow, hbefore, .inr ⟨error, houtcome, hresult⟩⟩⟩
    | ok values =>
      cases hfind : values.findIdx? (fun value => decide (value ≠ 0)) with
      | none => exact absurd (rowSatisfied_iff.mpr ⟨values, houtcome, hfind⟩) hviolated
      | some constraint =>
        have hresult : finishParallelValidation [firstViolation outcome (List.range rowCount)] =
            .error (.witnessUnsatisfied row constraint) := by
          rw [hscan, firstViolation, houtcome]
          change finishParallelValidation [match values.findIdx? (fun value => decide (value ≠ 0)) with
            | some constraint => (pure (some (row, constraint)) : Except UniformError _)
            | none => firstViolation outcome _] = _
          rw [hfind]
          rfl
        obtain ⟨hlt, hvalue, hearlier⟩ := List.findIdx?_eq_some_iff_getElem.mp hfind
        refine ⟨hfail _ hresult, fun _ => ⟨row, hrow, hbefore, .inl ⟨values, constraint,
          values[constraint], houtcome, List.getElem?_eq_getElem hlt, by simpa using hvalue,
          fun earlier hless => ?_, hresult⟩⟩⟩
        rw [List.getElem?_eq_getElem (hless.trans hlt)]
        simpa using hearlier earlier hless

/-! ## The workers -/

/-- The range of a worker, which may be empty. -/
theorem validationRange_eq {rowCount chunks chunk : ℕ} (hsize : rowCount < 2 ^ 63)
    (hle : chunks ≤ rowCount) (hchunk : chunk < chunks) :
    let size := (rowCount + chunks - 1) / chunks
    validationRange rowCount size chunk =
      .ok (List.range' (chunk * size) (min (chunk * size + size) rowCount - chunk * size)) := by
  intro size
  have hproduct : chunk * size ≤ rowCount + chunks - 1 :=
    (Nat.mul_le_mul_right size hchunk.le).trans (Nat.mul_div_le _ _)
  have hbound : min (min (chunk * size + size) (2 ^ 64 - 1)) rowCount =
      min (chunk * size + size) rowCount := by omega
  refine Except.check_eq_ok.mpr ⟨rejectIf_eq_ok.mpr (by omega), ?_⟩
  rw [hbound]
  rfl

/-- The ranges of all workers, in order, are all rows. -/
theorem flatten_ranges {rowCount chunks : ℕ} (hchunks : 0 < chunks) :
    let size := (rowCount + chunks - 1) / chunks
    ((List.range chunks).map (fun chunk => List.range' (chunk * size)
      (min (chunk * size + size) rowCount - chunk * size))).flatten = List.range rowCount := by
  intro size
  have hcover : rowCount ≤ chunks * size := by
    have hmod := Nat.mod_lt (rowCount + chunks - 1) hchunks
    have hdiv : chunks * size + (rowCount + chunks - 1) % chunks = rowCount + chunks - 1 :=
      Nat.div_add_mod _ _
    omega
  rw [← List.flatMap_def, flatMap_chunks, Nat.min_eq_right hcover]

theorem validationChunkCount_eq (threadCount : ℕ) {rowCount : ℕ} (hpos : 0 < rowCount) :
    validationChunkCount threadCount rowCount = .ok (max 1 (min threadCount rowCount)) :=
  Except.check_eq_ok.mpr ⟨rejectIf_eq_ok.mpr hpos.ne', rfl⟩

/-- However many workers there are, the rows are decided as a whole. -/
theorem decided_ensureRows {relation : UniformRelation F}
    {outcome : List F → Except UniformError (List F)} (hyields : Yields relation outcome)
    {readRow : ℕ → Except UniformError (List F)} {row : ℕ → List F} {rowCount : ℕ}
    (hread : ∀ index < rowCount, readRow index = .ok (row index) ∧
      (row index).length = relation.columnCount)
    (hpos : 0 < rowCount) (hsize : rowCount < 2 ^ 63) (threadCount : ℕ) :
    Decided (fun index => outcome (row index)) rowCount
      (ensureRows threadCount relation readRow rowCount) := by
  have hcount := validationChunkCount_eq threadCount hpos
  have hchunks : 0 < max 1 (min threadCount rowCount) := by omega
  have hle : max 1 (min threadCount rowCount) ≤ rowCount := by omega
  generalize max 1 (min threadCount rowCount) = chunks at hcount hchunks hle
  have hflat := @flatten_ranges rowCount chunks hchunks
  have hresults : (List.range chunks).map (validateChunk relation readRow rowCount
      ((rowCount + chunks - 1) / chunks)) =
      ((List.range chunks).map (fun chunk => List.range' (chunk * ((rowCount + chunks - 1) / chunks))
        (min (chunk * ((rowCount + chunks - 1) / chunks) + (rowCount + chunks - 1) / chunks)
          rowCount - chunk * ((rowCount + chunks - 1) / chunks)))).map
        (firstViolation (fun index => outcome (row index))) := by
    rw [List.map_map]
    refine List.map_congr_left fun chunk hchunk => ?_
    rw [validateChunk, validationRange_eq hsize hle (List.mem_range.mp hchunk)]
    refine validateRows_eq hyields (fun index hindex => hread index ?_) List.length_replicate
    rw [List.mem_range'_1] at hindex
    omega
  rw [ensureRows, hcount]
  change Decided _ rowCount (finishParallelValidation _)
  rw [hresults, finishParallelValidation_map, hflat]
  exact decided_firstViolation _ rowCount

omit [DecidableEq F] in
theorem fieldRow_eq {columns : List (List F)} {rowCount row : ℕ}
    (hcolumns : ∀ column ∈ columns, column.length = rowCount) (hrow : row < rowCount) :
    fieldRow columns row = .ok (rowOf columns row) := by
  refine mapM_eq_ok fun column hcolumn => someOr_eq_ok.mpr ?_
  have hlt : row < column.length := hrow.trans_eq (hcolumns column hcolumn).symm
  rw [tableOf_eq hlt, List.getElem?_eq_getElem hlt]

/-- The numbers of a witness as field elements. -/
def castColumns (F : Type) [Field F] (columns : List (List ℕ)) : List (List F) :=
  columns.map (fun column => column.map (fun value : ℕ => (value : F)))

omit [DecidableEq F] in
theorem u64Row_eq {columns : List (List ℕ)} {rowCount row : ℕ}
    (hcolumns : ∀ column ∈ columns, column.length = rowCount) (hrow : row < rowCount) :
    u64Row columns row = .ok (rowOf (castColumns F columns) row) := by
  rw [rowOf, castColumns, List.map_map]
  refine mapM_eq_ok fun column hcolumn => ?_
  have hlt : row < column.length := hrow.trans_eq (hcolumns column hcolumn).symm
  rw [someOr_eq_ok.mpr (List.getElem?_eq_getElem hlt)]
  refine congrArg Except.ok ?_
  rw [Function.comp_apply, tableOf_eq (by rwa [List.length_map]), List.getElem_map]

/-- A witness of the fixed shape is validated row by row. -/
theorem validateUniformWitness_eq {domain statementBytes : List Byte} {relation : UniformRelation F}
    {columns : List (List ℕ)} (threadCount : ℕ)
    (hrelation : validateRelation domain statementBytes relation = .ok ())
    (hwidth : columns.length = relation.columnCount)
    (hcolumns : ∀ column ∈ columns, column.length = uniformRowCount) :
    validateUniformWitness threadCount domain statementBytes relation columns =
      ensureU64RelationHolds threadCount relation columns uniformRowCount := by
  obtain ⟨hempty, -⟩ := Except.check_eq_ok.mp hrelation
  have hpositive : 0 < columns.length := by
    have := rejectIf_eq_ok.mp hempty
    omega
  obtain ⟨first, rest, rfl⟩ := List.exists_cons_of_length_pos hpositive
  have hfirst := hcolumns first List.mem_cons_self
  have hshape : validateWitnessShape domain statementBytes relation (first :: rest) =
      .ok uniformRowCount := by
    refine Except.check_eq_ok.mpr ⟨hrelation, Except.check_eq_ok.mpr
      ⟨rejectIf_eq_ok.mpr (not_not_intro hwidth), ?_⟩⟩
    refine Except.check_eq_ok.mpr ⟨rejectIf_eq_ok.mpr ?_, ?_⟩
    · simp only [List.any_eq_true, decide_eq_true_eq, not_or, not_not, not_exists, not_and]
      exact ⟨hfirst, fun column hcolumn => (hcolumns column hcolumn).trans hfirst.symm⟩
    · rw [hfirst]
      rfl
  rw [validateUniformWitness, hshape]
  rfl

/-- Validation is exact for every relation and every division among workers. The ranges cover every
row exactly once. Columns of field elements and of 64-bit numbers pass if and only if all
constraints of all rows are zero, and otherwise the lowest violating row is reported with its lowest
violating constraint, or the error of the relation on a row in front of it. A witness is validated
in this way once its shape is checked. -/
theorem validation_exact {relation : UniformRelation F}
    {outcome : List F → Except UniformError (List F)} (hyields : Yields relation outcome)
    {rowCount : ℕ} (hpos : 0 < rowCount) (hsize : rowCount < 2 ^ 63) (threadCount : ℕ) :
    (∃ chunks ranges, validationChunkCount threadCount rowCount = .ok chunks ∧
      (List.range chunks).mapM (validationRange rowCount ((rowCount + chunks - 1) / chunks)) =
        .ok ranges ∧ ranges.flatten = List.range rowCount) ∧
    (∀ columns, columns.length = relation.columnCount →
      (∀ column ∈ columns, column.length = rowCount) →
      Decided (fun row => outcome (rowOf columns row)) rowCount
        (ensureRelationHolds threadCount relation columns rowCount)) ∧
    (∀ columns, columns.length = relation.columnCount →
      (∀ column ∈ columns, column.length = rowCount) →
      Decided (fun row => outcome (rowOf (castColumns F columns) row)) rowCount
        (ensureU64RelationHolds threadCount relation columns rowCount)) ∧
    ∀ domain statementBytes columns, validateRelation domain statementBytes relation = .ok () →
      columns.length = relation.columnCount →
      (∀ column ∈ columns, column.length = uniformRowCount) →
      validateUniformWitness threadCount domain statementBytes relation columns =
        ensureU64RelationHolds threadCount relation columns uniformRowCount := by
  refine ⟨?_, fun columns hwidth hcolumns => ?_, fun columns hwidth hcolumns => ?_,
    fun domain statementBytes columns hrelation hwidth hcolumns =>
      validateUniformWitness_eq threadCount hrelation hwidth hcolumns⟩
  · exact ⟨_, _, validationChunkCount_eq threadCount hpos,
      mapM_eq_ok fun chunk hchunk => validationRange_eq hsize (by omega) (List.mem_range.mp hchunk),
      flatten_ranges (by omega)⟩
  · refine decided_ensureRows hyields (fun row hrow => ⟨fieldRow_eq hcolumns hrow, ?_⟩) hpos hsize
      threadCount
    rw [rowOf, List.length_map, hwidth]
  · refine decided_ensureRows hyields (fun row hrow => ⟨u64Row_eq hcolumns hrow, ?_⟩) hpos hsize
      threadCount
    rw [rowOf, castColumns, List.length_map, List.length_map, hwidth]

/-- Two rows of a Boolean column, the second of which is not Boolean, and two workers. -/
theorem validation_exact_boolean :
    Decided (fun row => .ok (booleanConstraint (rowOf (castColumns ℚ [[1, 2]]) row))) 2
      (ensureU64RelationHolds 2 (booleanColumn ℚ) [[1, 2]] 2) :=
  (validation_exact booleanColumn_computes.yields Nat.two_pos (by decide) 2).2.2.1 [[1, 2]] rfl
    (by simp)

end Uniform

end Zksm83
