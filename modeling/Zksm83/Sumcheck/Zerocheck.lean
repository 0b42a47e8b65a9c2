import Zksm83.Sumcheck.Uniform

/-!
# The zerocheck of a uniform relation

The sumcheck of a uniform relation is the sumcheck of the mixed constraints of a row, weighted by
the equality polynomial of the row point. The chunks of a round, the special cases at zero and one,
the zeros that are skipped and the buffer that is used again change nothing. Read
`proveSumcheck_eq` first, then `zerocheck`. After `uniform/sumcheck.rs`.
-/

namespace Zksm83

open Finset Polynomial Sumcheck FieldFold
open Multilinear (extension foldAll_zero line weight)

namespace Uniform

variable {F : Type} [Field F] [DecidableEq F]

/-! ## What a relation computes -/

/-- The relation writes the constraints of every row, whatever stands in a buffer that meets its
initialization contract. -/
structure Computes (relation : UniformRelation F) (constraint : List F → List F) : Prop where
  length_constraint {row : List F} (hrow : row.length = relation.columnCount) :
    (constraint row).length = relation.constraintCount
  evaluate_eq {row buffer : List F} (hrow : row.length = relation.columnCount)
    (hbuffer : buffer.length = relation.constraintCount)
    (hzeros : relation.constraintOutput = .zeroInitialized →
      buffer = List.replicate relation.constraintCount 0) :
    relation.evaluate row buffer = .ok (constraint row)

/-- The row at a point of the line through two rows. -/
def lineRow (low high : List F) (x : F) : List F := low.zipWith (fun low high => line low high x) high

/-- Every constraint is a polynomial of the declared degree on every line of rows. -/
def LineDegree (relation : UniformRelation F) (constraint : List F → List F) : Prop :=
  ∀ low high : List F, low.length = relation.columnCount → high.length = relation.columnCount →
    ∀ index < relation.constraintCount, ∃ polynomial : F[X],
      polynomial.natDegree ≤ relation.maxConstraintDegree ∧
        ∀ x, polynomial.eval x = (constraint (lineRow low high x)).getD index 0

/-- The sum of the constraints of a row, mixed by the powers of a challenge. -/
def mixedConstraints (relation : UniformRelation F) (constraint : List F → List F) (mix : F)
    (row : List F) : F :=
  ∑ index ∈ range relation.constraintCount, mix ^ index * (constraint row).getD index 0

/-- A row of a table. -/
def rowOf (columns : List (List F)) (index : ℕ) : List F :=
  columns.map (fun column => tableOf column index)

variable {relation : UniformRelation F} {constraint : List F → List F}

omit [DecidableEq F] in
theorem exists_mixed_onLine (hdegree : LineDegree relation constraint) (mix : F)
    {low high : List F} (hlow : low.length = relation.columnCount)
    (hhigh : high.length = relation.columnCount) :
    ∃ polynomial : F[X], polynomial.natDegree ≤ relation.maxConstraintDegree ∧
      ∀ x, polynomial.eval x = mixedConstraints relation constraint mix (lineRow low high x) := by
  choose! parts hparts heval using hdegree low high hlow hhigh
  refine ⟨∑ index ∈ range relation.constraintCount, C (mix ^ index) * parts index, ?_, fun x => ?_⟩
  · refine natDegree_sum_le_of_forall_le _ _ fun index hindex => ?_
    exact (natDegree_C_mul_le _ _).trans (hparts index (mem_range.mp hindex))
  · rw [eval_finsetSum, mixedConstraints]
    refine sum_congr rfl fun index hindex => ?_
    rw [eval_mul, eval_C, heval index (mem_range.mp hindex)]

omit [DecidableEq F] in
theorem ofFn_line {count : ℕ} (low high : Fin count → F) (x : F) :
    List.ofFn (line low high x) = lineRow (List.ofFn low) (List.ofFn high) x := by
  refine List.ext_getElem (by simp [lineRow]) fun index hindex hindex' => ?_
  simp [lineRow, line]

/-- The mixed constraints of a row. -/
noncomputable def mixedSummand (hdegree : LineDegree relation constraint) (mix : F) :
    Summand F (Fin relation.columnCount → F) relation.maxConstraintDegree where
  value row := mixedConstraints relation constraint mix (List.ofFn row)
  onLine low high := (exists_mixed_onLine hdegree mix (List.length_ofFn (f := low))
    (List.length_ofFn (f := high))).choose
  natDegree_onLine_le low high := (exists_mixed_onLine hdegree mix (List.length_ofFn (f := low))
    (List.length_ofFn (f := high))).choose_spec.1
  eval_onLine low high x := by
    rw [(exists_mixed_onLine hdegree mix (List.length_ofFn (f := low))
      (List.length_ofFn (f := high))).choose_spec.2, ofFn_line]

/-- The mixed constraints of a row, with its weight. -/
noncomputable def summand (hdegree : LineDegree relation constraint) (mix : F) :
    Summand F (F × (Fin relation.columnCount → F)) (relation.maxConstraintDegree + 1) :=
  (mixedSummand hdegree mix).weighted

/-- The rows of a table with their weights. -/
def rowsOf (columnCount : ℕ) (columns : List (List F)) (weights : ℕ → F) (index : ℕ) :
    F × (Fin columnCount → F) :=
  (weights index, fun column => tableOf (columns.getD column []) index)

omit [DecidableEq F] in
theorem ofFn_rowsOf {columns : List (List F)} (hcolumns : columns.length = relation.columnCount)
    (weights : ℕ → F) (index : ℕ) :
    List.ofFn (rowsOf relation.columnCount columns weights index).2 = rowOf columns index := by
  refine List.ext_getElem (by simp [rowOf, hcolumns]) fun column hcolumn hcolumn' => ?_
  rw [rowOf, List.length_map] at hcolumn'
  simp [rowsOf, rowOf, List.getElem?_eq_getElem hcolumn']

/-! ## The mixed constraints of a row -/

section Mixed

omit [DecidableEq F] in
theorem constraintPowersFrom_eq (count : ℕ) (power mix : F) :
    constraintPowersFrom power count mix =
      (List.range count).map (fun index => power * mix ^ index) := by
  induction count generalizing power with
  | zero => rfl
  | succ count ih =>
    rw [constraintPowersFrom, ih, List.range_succ_eq_map, List.map_cons, List.map_map, pow_zero,
      mul_one]
    simp [Function.comp_def, pow_succ', mul_assoc]

omit [DecidableEq F] in
theorem constraintPowers_eq (count : ℕ) (mix : F) :
    constraintPowers count mix = (List.range count).map (fun index => mix ^ index) := by
  simp [constraintPowers, constraintPowersFrom_eq]

theorem getD_trimZeroSuffix (values : List F) (index : ℕ) :
    (trimZeroSuffix values).getD index 0 = values.getD index 0 := by
  induction values using List.reverseRecOn with
  | nil => rfl
  | append_singleton values value ih =>
    rw [trimZeroSuffix, List.rdropWhile_concat]
    split
    · next hzero =>
      have hvalue : value = 0 := of_decide_eq_true hzero
      have hlast : (values ++ [value]).getD index 0 = values.getD index 0 := by
        simp only [hvalue, List.getD_eq_getElem?_getD, List.getElem?_append]
        split
        · rfl
        · next hlong =>
          rw [List.getElem?_eq_none (not_lt.mp hlong)]
          cases index - values.length with
          | zero => rfl
          | succ rest => rfl
      rw [hlast, ← ih]
      rfl
    · rfl

omit [DecidableEq F] in
theorem sum_zip_range (values : List F) (powers : ℕ → F) (count : ℕ) :
    ((values.zip ((List.range count).map powers)).map (fun entry => entry.2 * entry.1)).sum =
      ∑ index ∈ range count, powers index * values.getD index 0 := by
  induction count generalizing values powers with
  | zero => simp
  | succ count ih =>
    rw [List.range_succ_eq_map, List.map_cons, List.map_map, sum_range_succ']
    cases values with
    | nil => simp
    | cons value values =>
      rw [List.zip_cons_cons, List.map_cons, List.sum_cons, ih, add_comm]
      rfl

/-- Constraints that are zero are skipped, in the middle and at the end, without a change. -/
theorem foldl_trimZeroSuffix (values : List F) (powers : ℕ → F) (count : ℕ) :
    ((trimZeroSuffix values).zip ((List.range count).map powers)).foldl (fun combined entry =>
        if entry.1 ≠ 0 then combined + entry.2 * entry.1 else combined) 0 =
      ∑ index ∈ range count, powers index * values.getD index 0 := by
  have hskip : (fun (combined : F) (entry : F × F) =>
      if entry.1 ≠ 0 then combined + entry.2 * entry.1 else combined) =
      fun combined entry => combined + entry.2 * entry.1 := by
    funext combined entry
    by_cases hzero : entry.1 = 0
    · rw [if_neg (not_not_intro hzero), hzero, mul_zero, add_zero]
    · rw [if_pos hzero]
  rw [hskip, foldl_add (fun entry : F × F => entry.2 * entry.1), zero_add, sum_zip_range]
  exact sum_congr rfl fun index _ => by rw [getD_trimZeroSuffix]

variable (hcomputes : Computes relation constraint) (mix : F)

include hcomputes

/-- The relation mixes its constraints, from any buffer of the right length. -/
theorem combinedRelationWithPowers_eq {row buffer : List F}
    (hrow : row.length = relation.columnCount)
    (hbuffer : buffer.length = relation.constraintCount) :
    combinedRelationWithPowers relation row (constraintPowers relation.constraintCount mix)
        buffer =
      .ok (mixedConstraints relation constraint mix row, constraint row) := by
  have hinitial : (initializeConstraintOutput relation buffer).length =
        relation.constraintCount ∧
      (relation.constraintOutput = .zeroInitialized → initializeConstraintOutput relation buffer =
        List.replicate relation.constraintCount 0) := by
    unfold initializeConstraintOutput
    cases relation.constraintOutput with
    | zeroInitialized => exact ⟨(List.length_replicate).trans hbuffer, fun _ => by rw [hbuffer]⟩
    | overwritten => exact ⟨hbuffer, nofun⟩
  have hpowers : (constraintPowers relation.constraintCount mix).length =
      relation.constraintCount := by
    rw [constraintPowers_eq, List.length_map, List.length_range]
  refine Except.check_eq_ok.mpr ⟨rejectIf_eq_ok.mpr (not_not_intro hrow), Except.check_eq_ok.mpr
    ⟨rejectIf_eq_ok.mpr (not_or.mpr ⟨not_not_intro hbuffer, not_not_intro hpowers⟩),
      Except.bind_eq_ok.mpr ⟨_, hcomputes.evaluate_eq hrow hinitial.1 hinitial.2, ?_⟩⟩⟩
  rw [constraintPowers_eq, foldl_trimZeroSuffix]
  rfl

theorem combinedRelationWithScratch_eq {row : List F} (hrow : row.length = relation.columnCount) :
    combinedRelationWithScratch relation row mix (List.replicate relation.constraintCount 0) =
      .ok (mixedConstraints relation constraint mix row, constraint row) :=
  combinedRelationWithPowers_eq hcomputes mix hrow List.length_replicate

theorem combinedRelation_eq {row : List F} (hrow : row.length = relation.columnCount) :
    combinedRelation relation row mix = .ok (mixedConstraints relation constraint mix row) :=
  Except.bind_eq_ok.mpr ⟨_, combinedRelationWithScratch_eq hcomputes mix hrow, rfl⟩

end Mixed

/-! ## A pair of rows -/

/-- A table of rows over a number of coordinates, with the weights of the rows. -/
structure Spans (relation : UniformRelation F) (count : ℕ) (columns : List (List F))
    (weights : List F) : Prop where
  columns_eq : columns.length = relation.columnCount
  column_eq : ∀ column ∈ columns, column.length = 2 ^ count
  weights_eq : weights.length = 2 ^ count

/-- The row of a pair at a point of its line. -/
def pairRow (columns : List (List F)) (pair : ℕ) (x : F) : List F :=
  columns.map (fun column => Multilinear.fold x (tableOf column) pair)

/-- What a pair of rows contributes to a message. -/
def pairValue (relation : UniformRelation F) (constraint : List F → List F) (mix : F)
    (columns : List (List F)) (weights : List F) (x : F) (pair : ℕ) : F :=
  Multilinear.fold x (tableOf weights) pair *
    mixedConstraints relation constraint mix (pairRow columns pair x)

omit [DecidableEq F] in
theorem summand_fold (hdegree : LineDegree relation constraint) (mix : F)
    {columns : List (List F)} (hcolumns : columns.length = relation.columnCount)
    (weights : List F) (x : F) (pair : ℕ) :
    (summand hdegree mix).value
        (Multilinear.fold x (rowsOf relation.columnCount columns (tableOf weights)) pair) =
      pairValue relation constraint mix columns weights x pair := by
  have hrow : List.ofFn
      (Multilinear.fold x (rowsOf relation.columnCount columns (tableOf weights)) pair).2 =
      pairRow columns pair x := by
    refine List.ext_getElem (by simp [pairRow, hcolumns]) fun column hcolumn hcolumn' => ?_
    rw [pairRow, List.length_map] at hcolumn'
    simp [rowsOf, pairRow, Multilinear.fold, line, List.getElem?_eq_getElem hcolumn']
  rw [pairValue, ← hrow]
  rfl

omit [DecidableEq F] in
theorem pairLowAndDelta_eq {values : List F} {count pair : ℕ}
    (hlength : values.length = 2 ^ (count + 1)) (hpair : pair < 2 ^ count) :
    pairLowAndDelta values pair = .ok (tableOf values (2 * pair),
      tableOf values (2 * pair + 1) - tableOf values (2 * pair)) := by
  rw [pow_succ] at hlength
  have hlow : values[2 * pair]? = some (tableOf values (2 * pair)) := by
    rw [tableOf_eq (by omega), List.getElem?_eq_getElem]
  have hhigh : values[2 * pair + 1]? = some (tableOf values (2 * pair + 1)) := by
    rw [tableOf_eq (by omega), List.getElem?_eq_getElem]
  rw [pairLowAndDelta, mul_comm pair, hlow, hhigh]
  rfl

omit [DecidableEq F] in
theorem loadPairRows_eq {columns : List (List F)} {weights : List F} {count pair : ℕ}
    (hspans : Spans relation (count + 1) columns weights) (hpair : pair < 2 ^ count) :
    loadPairRows columns pair = .ok (rowOf columns (2 * pair), columns.map (fun column =>
      tableOf column (2 * pair + 1) - tableOf column (2 * pair))) := by
  have hpairs := mapM_eq_ok (fun column hcolumn =>
    pairLowAndDelta_eq (hspans.column_eq column hcolumn) hpair)
  refine Except.bind_eq_ok.mpr ⟨_, hpairs, ?_⟩
  rw [List.map_map, List.map_map]
  rfl

omit [DecidableEq F] in
/-- The points zero and one are no special cases. -/
theorem pairAt_eq (columns : List (List F)) (weights : List F) (pair node : ℕ) :
    pairAt (rowOf columns (2 * pair)) (columns.map (fun column =>
        tableOf column (2 * pair + 1) - tableOf column (2 * pair))) (tableOf weights (2 * pair))
        (tableOf weights (2 * pair + 1) - tableOf weights (2 * pair)) node (node : F) =
      (pairRow columns pair (node : F), Multilinear.fold (node : F) (tableOf weights) pair) := by
  match node with
  | 0 =>
    simp [pairAt, pairRow, rowOf, Multilinear.fold]
  | 1 =>
    simp [pairAt, pairRow, rowOf, interpolateLoadedRowAtOne, Multilinear.fold, List.zipWith_map]
  | node + 2 =>
    simp [pairAt, pairRow, rowOf, interpolateLoadedRow, Multilinear.fold, line, List.zipWith_map]

section Pair

variable (hcomputes : Computes relation constraint) (mix : F)

include hcomputes

theorem accumulatePoints_eq {lowRow rowDeltas : List F} {weightLow weightDelta : F}
    {rows : ℕ → List F} {weights values : ℕ → F}
    (hpair : ∀ node : ℕ, pairAt lowRow rowDeltas weightLow weightDelta node (node : F) =
      (rows node, weights node))
    (hrows : ∀ node, (rows node).length = relation.columnCount) (count start : ℕ)
    {buffer : List F} (hbuffer : buffer.length = relation.constraintCount) :
    ∃ buffer', buffer'.length = relation.constraintCount ∧
      accumulatePoints relation (constraintPowers relation.constraintCount mix) lowRow rowDeltas
          weightLow weightDelta start
          ((List.range' start count).map (fun node : ℕ => ((node : F), values node))) buffer =
        .ok ((List.range' start count).map (fun node => values node + weights node *
          mixedConstraints relation constraint mix (rows node)), buffer') := by
  induction count generalizing start buffer with
  | zero => exact ⟨buffer, hbuffer, rfl⟩
  | succ count ih =>
    obtain ⟨buffer', hbuffer', hrest⟩ :=
      ih (start + 1) (hcomputes.length_constraint (hrows start))
    refine ⟨buffer', hbuffer', ?_⟩
    rw [List.range'_succ, List.map_cons, accumulatePoints, hpair]
    exact Except.bind_eq_ok.mpr
      ⟨_, combinedRelationWithPowers_eq hcomputes mix (hrows start) hbuffer,
        Except.bind_eq_ok.mpr ⟨_, hrest, rfl⟩⟩

theorem accumulatePair_eq {columns : List (List F)} {weights : List F} {count pair : ℕ}
    (hspans : Spans relation (count + 1) columns weights) (hpair : pair < 2 ^ count)
    (pointCount : ℕ) (values : ℕ → F) {buffer : List F}
    (hbuffer : buffer.length = relation.constraintCount) :
    ∃ buffer', buffer'.length = relation.constraintCount ∧
      accumulatePair relation columns weights (interpolationPoints pointCount)
          (constraintPowers relation.constraintCount mix) pair
          ((List.range pointCount).map values) buffer =
        .ok ((List.range pointCount).map (fun node : ℕ => values node +
          pairValue relation constraint mix columns weights (node : F) pair), buffer') := by
  have hrows (node : ℕ) : (pairRow columns pair (node : F)).length = relation.columnCount :=
    (List.length_map _).trans hspans.columns_eq
  obtain ⟨buffer', hbuffer', hpoints⟩ := accumulatePoints_eq hcomputes mix
    (pairAt_eq columns weights pair) hrows pointCount 0 hbuffer
  refine ⟨buffer', hbuffer', Except.bind_eq_ok.mpr ⟨_, loadPairRows_eq hspans hpair,
    Except.bind_eq_ok.mpr ⟨_, pairLowAndDelta_eq hspans.weights_eq hpair, ?_⟩⟩⟩
  rw [interpolationPoints, List.zip_map', List.range_eq_range']
  exact hpoints

/-- The message of some pairs is the sum of what they contribute. -/
theorem accumulatePairs_eq {columns : List (List F)} {weights : List F} {count : ℕ}
    (hspans : Spans relation (count + 1) columns weights) (pointCount : ℕ) {pairs : List ℕ}
    (hpairs : ∀ pair ∈ pairs, pair < 2 ^ count) :
    accumulatePairs relation columns weights (interpolationPoints pointCount)
        (constraintPowers relation.constraintCount mix) pairs =
      .ok ((List.range pointCount).map (fun node : ℕ =>
        (pairs.map (pairValue relation constraint mix columns weights (node : F))).sum)) := by
  have hrun (values : ℕ → F) {buffer : List F}
      (hbuffer : buffer.length = relation.constraintCount) :
      ∃ buffer', pairs.foldlM (fun scratch pair => accumulatePair relation columns weights
          (interpolationPoints pointCount) (constraintPowers relation.constraintCount mix) pair
          scratch.1 scratch.2) ((List.range pointCount).map values, buffer) =
        .ok ((List.range pointCount).map (fun node : ℕ => values node +
          (pairs.map (pairValue relation constraint mix columns weights (node : F))).sum),
          buffer') := by
    induction pairs generalizing values buffer with
    | nil =>
      refine ⟨buffer, ?_⟩
      simp only [List.map_nil, List.sum_nil, add_zero]
      rfl
    | cons pair pairs ih =>
      obtain ⟨buffer', hbuffer', hfirst⟩ := accumulatePair_eq hcomputes mix hspans
        (hpairs pair List.mem_cons_self) pointCount values hbuffer
      obtain ⟨buffer'', hrest⟩ :=
        ih (fun pair hpair => hpairs pair (List.mem_cons_of_mem _ hpair)) _ hbuffer'
      refine ⟨buffer'', ?_⟩
      rw [List.foldlM_cons]
      refine Except.bind_eq_ok.mpr ⟨_, hfirst, hrest.trans ?_⟩
      simp only [List.map_cons, List.sum_cons, add_assoc]
  have hzeros : List.replicate (interpolationPoints (F := F) pointCount).length (0 : F) =
      (List.range pointCount).map (fun _ => 0) := by
    simp [interpolationPoints, List.map_const']
  obtain ⟨buffer', hsum⟩ := hrun (fun _ => 0) (List.length_replicate (a := (0 : F)))
  rw [accumulatePairs, hzeros]
  refine Except.bind_eq_ok.mpr ⟨_, hsum, ?_⟩
  simp only [zero_add]
  rfl

end Pair

/-! ## Chunks -/

/-- Chunks of equal length up to a bound, in order, are all numbers below the bound. -/
theorem flatMap_chunks (bound size chunks : ℕ) :
    (List.range chunks).flatMap (fun chunk => List.range' (chunk * size)
        (min (chunk * size + size) bound - chunk * size)) =
      List.range (min (chunks * size) bound) := by
  induction chunks with
  | zero => simp
  | succ chunks ih =>
    rw [List.range_succ, List.flatMap_append, ih, List.flatMap_singleton, List.range_eq_range',
      List.range_eq_range', Nat.succ_mul]
    obtain hshort | hlong := Nat.le_total (chunks * size) bound
    · have hlength : min (chunks * size + size) bound =
          chunks * size + (min (chunks * size + size) bound - chunks * size) := by
        omega
      rw [Nat.min_eq_left hshort, hlength, ← List.range'_append_1]
      simp
    · have hnone : min (chunks * size + size) bound - chunks * size = 0 := by
        omega
      rw [hnone, Nat.min_eq_right hlong, Nat.min_eq_right (hlong.trans (Nat.le_add_right _ _))]
      simp

/-- The chunks reach the bound. -/
theorem le_chunks_mul {bound desired : ℕ} (hbound : 0 < bound) (hdesired : 0 < desired) :
    let size := (bound + desired - 1) / desired
    bound ≤ (bound + size - 1) / size * size := by
  intro size
  have hsize : 0 < size := Nat.div_pos (by omega) hdesired
  have hmod := Nat.mod_lt (bound + size - 1) hsize
  have hdiv := Nat.div_add_mod (bound + size - 1) size
  rw [mul_comm size] at hdiv
  omega

section Round

variable (hcomputes : Computes relation constraint) (mix : F) {columns : List (List F)}
  {weights : List F} {count : ℕ} (hspans : Spans relation (count + 1) columns weights)

include hcomputes hspans

theorem evaluatePairChunk_eq (pointCount chunk size : ℕ) :
    evaluatePairChunk relation columns weights (interpolationPoints pointCount)
        (constraintPowers relation.constraintCount mix) chunk size =
      .ok ((List.range pointCount).map (fun node : ℕ =>
        ((List.range' (chunk * size) (min (chunk * size + size) (2 ^ count) - chunk * size)).map
          (pairValue relation constraint mix columns weights (node : F))).sum)) := by
  rw [evaluatePairChunk, half_length hspans.weights_eq]
  refine accumulatePairs_eq hcomputes mix hspans pointCount fun pair hpair => ?_
  rw [List.mem_range'_1] at hpair
  omega

/-- Chunks are merged to the message of all their pairs. -/
theorem mergeChunks_eq (pointCount chunks size : ℕ) :
    (List.range chunks).foldlM (fun message chunk => do
        let part ← evaluatePairChunk relation columns weights (interpolationPoints pointCount)
          (constraintPowers relation.constraintCount mix) chunk size
        mergeRoundMessages message part)
        (List.replicate (interpolationPoints (F := F) pointCount).length (0 : F)) =
      .ok ((List.range pointCount).map (fun node : ℕ =>
        ((List.range (min (chunks * size) (2 ^ count))).map
          (pairValue relation constraint mix columns weights (node : F))).sum)) := by
  rw [← flatMap_chunks]
  induction chunks with
  | zero => simp [interpolationPoints, List.map_const']; rfl
  | succ chunks ih =>
    rw [List.range_succ, List.foldlM_append]
    refine Except.bind_eq_ok.mpr ⟨_, ih, ?_⟩
    rw [List.foldlM_cons]
    refine Except.bind_eq_ok.mpr ⟨_, Except.bind_eq_ok.mpr
      ⟨_, evaluatePairChunk_eq hcomputes mix hspans pointCount chunks size, Except.check_eq_ok.mpr
        ⟨rejectIf_eq_ok.mpr ?_, rfl⟩⟩, ?_⟩
    · simp
    · rw [List.zipWith_map, List.zipWith_self]
      simp only [List.flatMap_append, List.flatMap_singleton, List.map_append, List.sum_append]
      rfl

/-- However the pairs are divided among threads, a round computes the sum over all pairs. -/
theorem parallelSumcheckRoundPrecomputed_eq (threadCount : ℕ) {pointCount : ℕ}
    (hpoints : 0 < pointCount) :
    parallelSumcheckRoundPrecomputed threadCount relation columns weights
        (interpolationPoints pointCount) (constraintPowers relation.constraintCount mix) =
      .ok ((List.range pointCount).map (fun node : ℕ => ∑ pair ∈ range (2 ^ count),
        pairValue relation constraint mix columns weights (node : F) pair)) := by
  have hpos := Nat.two_pow_pos count
  have hweights := hspans.weights_eq
  have hhalf := half_length hweights
  have hshape : ¬ ((interpolationPoints (F := F) pointCount).length = 0 ∨
      columns.length ≠ relation.columnCount ∨
      (∃ column ∈ columns, column.length ≠ weights.length) ∨ weights.length < 2 ∨
      weights.length % 2 ≠ 0) := by
    have hlength : (interpolationPoints (F := F) pointCount).length = pointCount := by
      simp [interpolationPoints]
    rintro (hnone | hcolumns | ⟨column, hcolumn, hlong⟩ | hodd)
    · omega
    · exact hcolumns hspans.columns_eq
    · exact hlong ((hspans.column_eq column hcolumn).trans hweights.symm)
    · rw [hweights, pow_succ] at hodd
      omega
  have hpowers : (constraintPowers relation.constraintCount mix).length =
      relation.constraintCount := by
    rw [constraintPowers_eq, List.length_map, List.length_range]
  refine Except.check_eq_ok.mpr ⟨rejectIf_eq_ok.mpr hshape, Except.check_eq_ok.mpr
    ⟨rejectIf_eq_ok.mpr (not_not_intro hpowers), ?_⟩⟩
  simp only [← sum_map_range]
  split
  · rw [sumcheckRoundPrecomputed, hhalf]
    exact accumulatePairs_eq hcomputes mix hspans pointCount fun pair hpair =>
      List.mem_range.mp hpair
  · rw [mergeChunks_eq hcomputes mix hspans, hhalf, Nat.min_eq_right]
    exact le_chunks_mul hpos (by omega)

end Round

/-! ## The prover -/

omit [DecidableEq F] in
theorem foldColumns_eq {columns : List (List F)} {count : ℕ}
    (hcolumns : ∀ column ∈ columns, column.length = 2 ^ (count + 1)) (challenge : F) :
    foldColumns columns challenge = .ok (columns.map (foldPairs challenge)) :=
  mapM_eq_ok fun column hcolumn => by
    rw [foldLayer, foldBinaryLayer_eq (hcolumns column hcolumn)]
    rfl

omit [DecidableEq F] in
theorem Spans.foldPairs {columns : List (List F)} {weights : List F} {count : ℕ}
    (hspans : Spans relation (count + 1) columns weights) (challenge : F) :
    Spans relation count (columns.map (FieldFold.foldPairs challenge))
      (FieldFold.foldPairs challenge weights) where
  columns_eq := (List.length_map _).trans hspans.columns_eq
  column_eq column hcolumn := by
    obtain ⟨column', hcolumn', rfl⟩ := List.mem_map.mp hcolumn
    exact length_foldPairs_of_pow (hspans.column_eq column' hcolumn') challenge
  weights_eq := length_foldPairs_of_pow hspans.weights_eq challenge

omit [DecidableEq F] in
theorem rowsOf_foldPairs {columns : List (List F)} {weights : List F} {count : ℕ}
    (hspans : Spans relation (count + 1) columns weights) (challenge : F) :
    Multilinear.fold challenge (rowsOf relation.columnCount columns (tableOf weights)) =
      rowsOf relation.columnCount (columns.map (foldPairs challenge))
        (tableOf (foldPairs challenge weights)) := by
  funext index
  refine Prod.ext ?_ (funext fun column => ?_)
  · rw [rowsOf, tableOf_foldPairs challenge (hspans.weights_eq ▸ pow_succ_mod_two _)]
    rfl
  · have hcolumn : (column : ℕ) < columns.length := hspans.columns_eq.symm ▸ column.isLt
    have hlength := hspans.column_eq _ (List.getElem_mem hcolumn)
    have hfolded := tableOf_foldPairs challenge (hlength ▸ pow_succ_mod_two _)
    simp only [rowsOf, List.getD_eq_getElem?_getD, List.getElem?_map,
      List.getElem?_eq_getElem hcolumn, Option.map_some, Option.getD_some, hfolded]
    simp [Multilinear.fold, line, rowsOf, List.getElem?_eq_getElem hcolumn]

/-- The tables of a round over a number of coordinates, with their rows. -/
structure Stands (hdegree : LineDegree relation constraint) (mix : F) (count : ℕ)
    (tables : RoundTables F) (table : ℕ → F × (Fin relation.columnCount → F)) : Prop where
  spans : Spans relation count tables.1 tables.2.1
  claim_eq : tables.2.2 = (summand hdegree mix).total count table
  table_eq : table = rowsOf relation.columnCount tables.1 (tableOf tables.2.1)

section Prover

variable (hcomputes : Computes relation constraint) (hdegree : LineDegree relation constraint)
  (mix : F)

include hcomputes

theorem parallelRound_message (threadCount : ℕ) {columns : List (List F)} {weights : List F}
    {count : ℕ} (hspans : Spans relation (count + 1) columns weights) :
    parallelSumcheckRoundPrecomputed threadCount relation columns weights
        (interpolationPoints (relation.maxConstraintDegree + 2))
        (constraintPowers relation.constraintCount mix) =
      .ok ((summand hdegree mix).message count
        (rowsOf relation.columnCount columns (tableOf weights))) := by
  rw [parallelSumcheckRoundPrecomputed_eq hcomputes mix hspans threadCount (Nat.succ_pos _)]
  refine congrArg Except.ok (List.map_congr_left fun node _ => sum_congr rfl fun pair _ => ?_)
  exact (summand_fold hdegree mix hspans.columns_eq weights (node : F) pair).symm

/-- A round sends the honest message, and folds the columns, the weights and the claim. -/
theorem round_represents (threadCount : ℕ)
    (hnodes : DistinctNodes F (relation.maxConstraintDegree + 2)) :
    RoundRepresents (summand hdegree mix) id (Stands hdegree mix) (Stands hdegree mix)
      (proveRound threadCount relation (interpolationPoints (relation.maxConstraintDegree + 2))
        (constraintPowers relation.constraintCount mix)) foldRound := by
  rintro count ⟨columns, weights, claim⟩ table ⟨hspans, hclaim, rfl⟩
  set table := rowsOf relation.columnCount columns (tableOf weights)
  set message := (summand hdegree mix).message count table with hmessage
  have hlength : message.length = relation.maxConstraintDegree + 2 := by
    rw [hmessage, Summand.message, List.length_map, List.length_range]
  have hzero : message[0]? = some ((summand hdegree mix).total count
      (Multilinear.fold ((0 : ℕ) : F) table)) := by
    rw [hmessage, Summand.message, List.getElem?_map, List.getElem?_range (Nat.succ_pos _)]
    rfl
  have hone : message[1]? = some ((summand hdegree mix).total count
      (Multilinear.fold ((1 : ℕ) : F) table)) := by
    rw [hmessage, Summand.message, List.getElem?_map, List.getElem?_range (by omega)]
    rfl
  have hsum : (summand hdegree mix).total count (Multilinear.fold ((0 : ℕ) : F) table) +
      (summand hdegree mix).total count (Multilinear.fold ((1 : ℕ) : F) table) = claim := by
    refine Eq.trans ?_ hclaim.symm
    rw [← (summand hdegree mix).honest_zero_add_one, (summand hdegree mix).eval_honest,
      (summand hdegree mix).eval_honest, Nat.cast_zero, Nat.cast_one]
  refine ⟨message, ?_, rfl, fun x => ?_⟩
  · refine Except.bind_eq_ok.mpr
      ⟨_, parallelRound_message hcomputes hdegree mix threadCount hspans, ?_⟩
    exact Except.bind_eq_ok.mpr ⟨_, someOr_eq_ok.mpr hzero, Except.bind_eq_ok.mpr
      ⟨_, someOr_eq_ok.mpr hone, Except.check_eq_ok.mpr
        ⟨rejectIf_eq_ok.mpr (not_not_intro hsum), rfl⟩⟩⟩
  · have hne : message ≠ [] := List.ne_nil_of_length_pos (hlength.symm ▸ Nat.succ_pos _)
    have heval : evaluateLagrange message x =
        .ok ((summand hdegree mix).total count (Multilinear.fold x table)) := by
      rw [← (summand hdegree mix).eval_honest,
        ← interpolant_message (summand hdegree mix) hnodes count table]
      exact (evaluateLagrangeWith_eq_ok hne).mpr ⟨hlength.symm ▸ hnodes, rfl⟩
    refine ⟨(columns.map (foldPairs x), foldPairs x weights,
      (summand hdegree mix).total count (Multilinear.fold x table)), ?_, hspans.foldPairs x, rfl,
      rowsOf_foldPairs hspans x⟩
    have hweights : foldLayer weights x = .ok (foldPairs x weights) := by
      rw [foldLayer, foldBinaryLayer_eq hspans.weights_eq]
      rfl
    exact Except.bind_eq_ok.mpr ⟨_, heval, Except.bind_eq_ok.mpr
      ⟨_, foldColumns_eq hspans.column_eq x, Except.bind_eq_ok.mpr ⟨_, hweights, rfl⟩⟩⟩

omit [DecidableEq F] hcomputes in
/-- The loop goes on for as long as a coordinate is left. -/
theorem more_eq {count : ℕ} {tables : RoundTables F}
    {table : ℕ → F × (Fin relation.columnCount → F)}
    (hstands : Stands hdegree mix count tables table) :
    decide (1 < tables.2.1.length) = decide (0 < count) ∧ count ≤ tables.2.1.length := by
  rw [hstands.spans.weights_eq]
  refine ⟨decide_eq_decide.mpr ?_, Nat.lt_two_pow_self.le⟩
  rw [Nat.one_lt_two_pow_iff, Nat.pos_iff_ne_zero]

omit [DecidableEq F] hcomputes in
/-- The last row holds the extensions of the weights and the columns. -/
theorem extension_rowsOf {columns : List (List F)} (weights : ℕ → F) (point : List F) :
    extension point (rowsOf relation.columnCount columns weights) =
      (extension point weights, fun column : Fin relation.columnCount =>
        extension point (tableOf (columns.getD column []))) := by
  refine Prod.ext ?_ (funext fun column => ?_)
  · exact Multilinear.map_extension (LinearMap.fst F F (Fin relation.columnCount → F)) point _
  · exact Multilinear.map_extension
      (LinearMap.proj column ∘ₗ LinearMap.snd F F (Fin relation.columnCount → F)) point _

omit [DecidableEq F] hcomputes in
theorem ofFn_extension {columns : List (List F)} (hcolumns : columns.length = relation.columnCount)
    (weights : ℕ → F) (point : List F) :
    List.ofFn (extension point (rowsOf relation.columnCount columns weights)).2 =
      columns.map (fun column => extension point (tableOf column)) := by
  rw [extension_rowsOf]
  refine List.ext_getElem (by simp [hcolumns]) fun column hcolumn hcolumn' => ?_
  rw [List.length_map] at hcolumn'
  simp [List.getElem?_eq_getElem hcolumn']

variable (transcript : AkitaTranscript F)

/-- The honest run of the mixed constraints of weighted rows. -/
noncomputable def run (count : ℕ) (columns : List (List F)) (weights : List F)
    (state : transcript.State) : List (List F) × List F × transcript.State :=
  honestRun (channel transcript) (summand hdegree mix) count 0
    (rowsOf relation.columnCount columns (tableOf weights)) state

/-- The prover makes the honest run when the weighted sum of the mixed constraints is zero. -/
theorem proveSumcheck_eq (threadCount : ℕ)
    (hnodes : DistinctNodes F (relation.maxConstraintDegree + 2)) {columns : List (List F)}
    {weights : List F} {count : ℕ} (hspans : Spans relation (count + 1) columns weights)
    (hzero : (summand hdegree mix).total (count + 1)
      (rowsOf relation.columnCount columns (tableOf weights)) = 0) (state : transcript.State) :
    let run := run hdegree mix transcript (count + 1) columns weights state
    proveSumcheck transcript threadCount relation columns weights mix state =
      .ok ((run.1, run.2.1, columns.map (fun column => extension run.2.1 (tableOf column))),
        run.2.2) := by
  intro run
  have hstands : Stands hdegree mix (count + 1) (columns, weights, 0)
      (rowsOf relation.columnCount columns (tableOf weights)) := ⟨hspans, hzero.symm, rfl⟩
  have hround := round_represents hcomputes hdegree mix threadCount hnodes
  obtain ⟨rounds, ⟨columns', weights', claim'⟩, hrun, hrounds, hlast⟩ :=
    proveFrom_eq (channel transcript) (fun _ _ _ hstands => more_eq hdegree mix hstands) hround
      hround hstands state
  obtain ⟨hspans', hclaim', htable'⟩ := hlast
  rw [List.map_id] at hrounds
  have hrow := congrFun htable' 0
  rw [foldAll_zero] at hrow
  have hopened : columns'.mapM (fun column => someOr column.head? UniformError.shape) =
      .ok (rowOf columns' 0) :=
    mapM_eq_ok fun column hcolumn => by
      obtain ⟨value, rfl⟩ := List.length_eq_one_iff.mp (hspans'.column_eq column hcolumn)
      rfl
  have hweight : weights'.head? = some (tableOf weights' 0) := by
    obtain ⟨value, rfl⟩ := List.length_eq_one_iff.mp hspans'.weights_eq
    rfl
  have hvalues : rowOf columns' 0 =
      columns.map (fun column => extension run.2.1 (tableOf column)) := by
    rw [← ofFn_extension hspans.columns_eq (tableOf weights), ← ofFn_rowsOf hspans'.columns_eq
      (tableOf weights'), ← hrow]
    rfl
  have hterminal : claim' = tableOf weights' 0 *
      mixedConstraints relation constraint mix (rowOf columns' 0) := by
    refine hclaim'.trans ?_
    rw [(summand hdegree mix).total_zero, htable', ← ofFn_rowsOf hspans'.columns_eq
      (tableOf weights')]
    rfl
  have hlength : (rowOf columns' 0).length = relation.columnCount :=
    (List.length_map _).trans hspans'.columns_eq
  have hshape : ¬ (weights.length < 2 ∨ ¬ weights.length.isPowerOfTwo ∨
      ∃ column ∈ columns, column.length ≠ weights.length) := by
    have hweights := hspans.weights_eq
    have hpos := Nat.two_pow_pos count
    rintro (hshort | hpower | ⟨column, hcolumn, hlong⟩)
    · rw [hweights, pow_succ] at hshort
      omega
    · exact hpower ⟨_, hweights⟩
    · exact hlong ((hspans.column_eq column hcolumn).trans hweights.symm)
  refine Except.check_eq_ok.mpr ⟨rejectIf_eq_ok.mpr hshape, Except.bind_eq_ok.mpr ⟨_, hrun,
    Except.bind_eq_ok.mpr ⟨_, hopened, Except.bind_eq_ok.mpr ⟨_, someOr_eq_ok.mpr hweight,
      Except.bind_eq_ok.mpr ⟨_, combinedRelationWithScratch_eq hcomputes mix hlength,
        Except.check_eq_ok.mpr ⟨rejectIf_eq_ok.mpr (not_not_intro hterminal), ?_⟩⟩⟩⟩⟩⟩
  rw [hvalues, hrounds]
  rfl

end Prover

/-! ## The row point -/

omit [DecidableEq F] in
theorem length_equalityEvaluations (point : List F) :
    (equalityEvaluations point).length = 2 ^ point.length := by
  induction point using List.reverseRecOn with
  | nil => rfl
  | append_singleton point x ih =>
    rw [equalityEvaluations, List.foldl_append]
    show (List.map _ (equalityEvaluations point) ++ List.map _ (equalityEvaluations point)).length = _
    rw [List.length_append, List.length_map, List.length_map, ih, List.length_append,
      List.length_singleton, pow_succ, mul_two]

omit [DecidableEq F] in
/-- The weights of the rows are the values of the equality polynomial. -/
theorem tableOf_equalityEvaluations (point : List F) :
    ∀ index < 2 ^ point.length, tableOf (equalityEvaluations point) index = weight point index := by
  induction point using List.reverseRecOn with
  | nil =>
    intro index hindex
    obtain rfl : index = 0 := by simpa using hindex
    rfl
  | append_singleton point x ih =>
    intro index hindex
    have hlength := length_equalityEvaluations point
    rw [List.length_append, List.length_singleton, pow_succ] at hindex
    have hsplit : equalityEvaluations (point ++ [x]) =
        (equalityEvaluations point).map (fun value => value * (1 - x)) ++
          (equalityEvaluations point).map (fun value => value * x) := by
      rw [equalityEvaluations, List.foldl_append]
      rfl
    rw [hsplit, Multilinear.weight_concat, tableOf, List.getD_eq_getElem?_getD,
      List.getElem?_append, List.length_map, hlength]
    -- the last coordinate chooses the half of the list
    obtain hlow | hhigh := Nat.lt_or_ge index (2 ^ point.length)
    · rw [if_pos hlow, Nat.div_eq_of_lt hlow, List.getElem?_map,
        List.getElem?_eq_getElem (hlow.trans_eq hlength.symm), ← ih index hlow,
        tableOf_eq (hlow.trans_eq hlength.symm)]
      rfl
    · have hrest : index - 2 ^ point.length < 2 ^ point.length := by omega
      have hbit : index / 2 ^ point.length = 1 := by
        rw [Nat.div_eq_sub_div (Nat.two_pow_pos _) hhigh, Nat.div_eq_of_lt hrest]
      have hweight : weight point index = weight point (index - 2 ^ point.length) := by
        rw [← Multilinear.weight_add_pow point (index - 2 ^ point.length),
          Nat.sub_add_cancel hhigh]
      rw [if_neg (not_lt.mpr hhigh), hbit, hweight, ← ih _ hrest, List.getElem?_map,
        List.getElem?_eq_getElem (hrest.trans_eq hlength.symm),
        tableOf_eq (hrest.trans_eq hlength.symm)]
      rfl

omit [DecidableEq F] in
theorem equalityEvaluation_eq {left right : List F} (hlength : left.length = right.length) :
    equalityEvaluation left right = .ok (extension right (weight left)) := by
  have hfold (start : F) (left right : List F) (hlength : left.length = right.length) :
      (left.zip right).foldl (fun product entry =>
        product * (entry.1 * entry.2 + (1 - entry.1) * (1 - entry.2))) start =
        start * Multilinear.equality left right := by
    induction left generalizing start right with
    | nil => simp [Multilinear.equality]
    | cons x left ih =>
      cases right with
      | nil => cases hlength
      | cons y right =>
        rw [List.zip_cons_cons, List.foldl_cons, ih _ right (Nat.succ.inj hlength),
          Multilinear.equality, mul_assoc]
  refine Except.check_eq_ok.mpr ⟨rejectIf_eq_ok.mpr (not_not_intro hlength), ?_⟩
  rw [hfold 1 left right hlength, one_mul, Multilinear.extension_weight hlength]
  rfl

/-! ## The verifier -/

theorem checkMessage_verifies (degree : ℕ) :
    Verifies degree (checkMessage (F := F) (degree + 2)) evaluateLagrange where
  check_eq_ok {message claim} hlength := by
    match message, hlength with
    | atZero :: atOne :: rest, hlength =>
      rw [checkMessage, Except.check_eq_ok, rejectIf_eq_ok, not_not]
      exact ⟨fun h => not_not.mp (rejectIf_eq_ok.mp h.2),
        fun h => ⟨hlength, rejectIf_eq_ok.mpr (not_not_intro h)⟩⟩
  evaluate_eq_ok hlength := by
    have hne := List.ne_nil_of_length_pos (Nat.lt_of_lt_of_eq (Nat.succ_pos _) hlength.symm)
    rw [evaluateLagrange, evaluateLagrangeWith_eq_ok hne, hlength]

section Verifier

variable (hcomputes : Computes relation constraint) (hdegree : LineDegree relation constraint)
  (mix : F) (transcript : AkitaTranscript F)

include hcomputes

/-- The verifier accepts the honest run of rows weighted by the equality polynomial of its point. -/
theorem replaySumcheck_honest (hnodes : DistinctNodes F (relation.maxConstraintDegree + 2))
    {columns : List (List F)} (hcolumns : columns.length = relation.columnCount)
    {rowPoint : List F}
    (hzero : (summand hdegree mix).total rowPoint.length (rowsOf relation.columnCount columns
      (tableOf (equalityEvaluations rowPoint))) = 0) (state : transcript.State) :
    let run := run hdegree mix transcript rowPoint.length columns (equalityEvaluations rowPoint)
      state
    replaySumcheck transcript relation run.1
        (columns.map (fun column => extension run.2.1 (tableOf column))) rowPoint mix state =
      .ok (run.2.1, run.2.2) := by
  intro run
  obtain ⟨hrounds, hpoint⟩ := length_honestRun (channel transcript) (summand hdegree mix)
    rowPoint.length 0 (rowsOf relation.columnCount columns
      (tableOf (equalityEvaluations rowPoint))) state
  have hreplay := replay_honestRun (channel transcript)
    (checkMessage_verifies relation.maxConstraintDegree) (summand hdegree mix) hnodes
    rowPoint.length 0 (rowsOf relation.columnCount columns
      (tableOf (equalityEvaluations rowPoint))) state
  rw [hzero] at hreplay
  have hopened : (columns.map (fun column => extension run.2.1 (tableOf column))).length =
      relation.columnCount := (List.length_map _).trans hcolumns
  have hweights : extension run.2.1 (tableOf (equalityEvaluations rowPoint)) =
      extension run.2.1 (weight rowPoint) := by
    refine Multilinear.extension_congr fun index hindex => ?_
    exact tableOf_equalityEvaluations rowPoint index (hpoint ▸ hindex)
  refine Except.check_eq_ok.mpr ⟨rejectIf_eq_ok.mpr
      (not_or.mpr ⟨not_not_intro hrounds, not_not_intro hopened⟩),
    Except.bind_eq_ok.mpr ⟨_, hreplay, Except.bind_eq_ok.mpr
      ⟨_, equalityEvaluation_eq hpoint.symm, Except.bind_eq_ok.mpr
        ⟨_, combinedRelation_eq hcomputes mix hopened, Except.check_eq_ok.mpr
          ⟨rejectIf_eq_ok.mpr (not_not_intro ?_), rfl⟩⟩⟩⟩⟩
  show (summand hdegree mix).value (extension run.2.1 (rowsOf relation.columnCount columns
    (tableOf (equalityEvaluations rowPoint)))) = extension run.2.1 (weight rowPoint) * _
  rw [← hweights, ← ofFn_extension hcolumns (tableOf (equalityEvaluations rowPoint)),
    extension_rowsOf]
  rfl

/-- What the verifier accepts are accepted rounds from zero to the weighted mixed constraints of the
opened values. -/
theorem replaySumcheck_accepts {rounds : List (List F)} {openedValues rowPoint point : List F}
    {state state' : transcript.State}
    (hreplay : replaySumcheck transcript relation rounds openedValues rowPoint mix state =
      .ok (point, state')) :
    rounds.length = rowPoint.length ∧ openedValues.length = relation.columnCount ∧
      point.length = rounds.length ∧
      Accepts 0 (roundsOf rounds point) (extension point (weight rowPoint) *
        mixedConstraints relation constraint mix openedValues) ∧
      ∀ round ∈ roundsOf rounds point,
        round.1.natDegree ≤ relation.maxConstraintDegree + 1 := by
  obtain ⟨hshape, hreplay⟩ := Except.check_eq_ok.mp hreplay
  obtain ⟨⟨final, point', state''⟩, hrounds, hreplay⟩ := Except.bind_eq_ok.mp hreplay
  obtain ⟨terminalWeight, hweight, hreplay⟩ := Except.bind_eq_ok.mp hreplay
  obtain ⟨terminalRelation, hrelation, hreplay⟩ := Except.bind_eq_ok.mp hreplay
  obtain ⟨hfinal, hreplay⟩ := Except.check_eq_ok.mp hreplay
  cases hreplay
  rw [rejectIf_eq_ok, not_or, not_not, not_not] at hshape
  rw [rejectIf_eq_ok, not_not] at hfinal
  have hlengths : ∀ message ∈ rounds, message.length = relation.maxConstraintDegree + 2 := by
    intro message hmessage
    obtain ⟨claim, hcheck⟩ := checked_of_replay (channel transcript) hrounds message hmessage
    exact not_not.mp (rejectIf_eq_ok.mp (Except.check_eq_ok.mp hcheck).1)
  obtain ⟨hpoint, haccepts, hdegrees⟩ := replay_accepts (channel transcript)
    (checkMessage_verifies relation.maxConstraintDegree) hlengths hrounds
  rw [equalityEvaluation_eq (hshape.1.symm.trans hpoint.symm)] at hweight
  rw [combinedRelation_eq hcomputes mix hshape.2] at hrelation
  cases hweight
  cases hrelation
  exact ⟨hshape.1, hshape.2, hpoint, hfinal ▸ haccepts, hdegrees⟩

end Verifier

/-! ## The guarantees -/

/-- The sum over all rows of the mixed constraints, weighted by the equality polynomial. -/
def weightedConstraints (relation : UniformRelation F) (constraint : List F → List F) (mix : F)
    (rowPoint : List F) (columns : List (List F)) : F :=
  ∑ index ∈ range (2 ^ rowPoint.length),
    weight rowPoint index * mixedConstraints relation constraint mix (rowOf columns index)

/-- All constraints vanish in all rows of a table over a number of coordinates. -/
def Satisfies (relation : UniformRelation F) (constraint : List F → List F) (count : ℕ)
    (columns : List (List F)) : Prop :=
  columns.length = relation.columnCount ∧ (∀ column ∈ columns, column.length = 2 ^ count) ∧
    ∀ index < 2 ^ count, ∀ value ∈ constraint (rowOf columns index), value = 0

omit [DecidableEq F] in
theorem total_eq_weightedConstraints (hdegree : LineDegree relation constraint) (mix : F)
    {columns : List (List F)} (hcolumns : columns.length = relation.columnCount)
    {rowPoint : List F} {weights : ℕ → F}
    (hweights : ∀ index < 2 ^ rowPoint.length, weights index = weight rowPoint index) :
    (summand hdegree mix).total rowPoint.length
        (rowsOf relation.columnCount columns weights) =
      weightedConstraints relation constraint mix rowPoint columns := by
  rw [Summand.total, Multilinear.cubeSum, weightedConstraints]
  refine sum_congr rfl fun index hindex => ?_
  rw [← hweights index (mem_range.mp hindex), ← ofFn_rowsOf hcolumns weights]
  rfl

omit [DecidableEq F] in
/-- A satisfied table has no weighted constraints. -/
theorem Satisfies.weightedConstraints_eq {columns : List (List F)} {rowPoint : List F}
    (hsatisfies : Satisfies relation constraint rowPoint.length columns) (mix : F) :
    weightedConstraints relation constraint mix rowPoint columns = 0 := by
  refine sum_eq_zero fun index hindex => ?_
  have hmixed : mixedConstraints relation constraint mix (rowOf columns index) = 0 := by
    refine sum_eq_zero fun entry _ => ?_
    have hvalue : (constraint (rowOf columns index)).getD entry 0 = 0 := by
      rw [List.getD_eq_getElem?_getD]
      cases hentry : (constraint (rowOf columns index))[entry]? with
      | none => rfl
      | some value =>
        exact hsatisfies.2.2 index (mem_range.mp hindex) value (List.mem_of_getElem? hentry)
    rw [hvalue, mul_zero]
  rw [hmixed, mul_zero]

/-- The prover and the verifier agree on a satisfied table of at least two rows. -/
theorem proveSumcheck_complete (hcomputes : Computes relation constraint)
    (hdegree : LineDegree relation constraint)
    (hnodes : DistinctNodes F (relation.maxConstraintDegree + 2))
    (transcript : AkitaTranscript F) (threadCount : ℕ) {columns : List (List F)}
    {rowPoint : List F} (hpoint : rowPoint ≠ [])
    (hsatisfies : Satisfies relation constraint rowPoint.length columns) (mix : F)
    (state : transcript.State) :
    ∃ rounds point openedValues state',
      proveSumcheck transcript threadCount relation columns (equalityEvaluations rowPoint) mix
        state = .ok ((rounds, point, openedValues), state') ∧
      replaySumcheck transcript relation rounds openedValues rowPoint mix state =
        .ok (point, state') ∧
      openedValues = columns.map (fun column => extension point (tableOf column)) := by
  have hzero : (summand hdegree mix).total rowPoint.length (rowsOf relation.columnCount columns
      (tableOf (equalityEvaluations rowPoint))) = 0 := by
    rw [total_eq_weightedConstraints hdegree mix hsatisfies.1
      (tableOf_equalityEvaluations rowPoint), hsatisfies.weightedConstraints_eq]
  obtain ⟨count, hcount⟩ : ∃ count, rowPoint.length = count + 1 :=
    Nat.exists_eq_succ_of_ne_zero (List.length_pos_iff.mpr hpoint).ne'
  have hreplay := replaySumcheck_honest hcomputes hdegree mix transcript hnodes hsatisfies.1 hzero
    state
  have hspans : Spans relation (count + 1) columns (equalityEvaluations rowPoint) :=
    ⟨hsatisfies.1, hcount ▸ hsatisfies.2.1, hcount ▸ length_equalityEvaluations rowPoint⟩
  rw [hcount] at hzero hreplay
  exact ⟨_, _, _, _, proveSumcheck_eq hcomputes hdegree mix transcript threadCount hnodes hspans
    hzero state, hreplay, rfl⟩

/-- Accepted rounds with true opened values show that the weighted constraints sum to zero, unless
some challenge is a root of the difference of a message and the honest one. -/
theorem replaySumcheck_sound (hcomputes : Computes relation constraint)
    (hdegree : LineDegree relation constraint) (transcript : AkitaTranscript F)
    {columns rounds : List (List F)} {openedValues rowPoint point : List F} {mix : F}
    {state state' : transcript.State}
    (hreplay : replaySumcheck transcript relation rounds openedValues rowPoint mix state =
      .ok (point, state'))
    (hopened : openedValues = columns.map (fun column => extension point (tableOf column))) :
    weightedConstraints relation constraint mix rowPoint columns = 0 ∨
      Escapes (summand hdegree mix) (rowsOf relation.columnCount columns (weight rowPoint))
        (roundsOf rounds point) := by
  obtain ⟨hrounds, hvalues, hpoint, haccepts, hdegrees⟩ :=
    replaySumcheck_accepts hcomputes mix transcript hreplay
  have hcolumns : columns.length = relation.columnCount := by
    rw [← hvalues, hopened, List.length_map]
  have hfinal : extension point (weight rowPoint) *
      mixedConstraints relation constraint mix openedValues =
      (summand hdegree mix).value
        (extension point (rowsOf relation.columnCount columns (weight rowPoint))) := by
    rw [hopened, ← ofFn_extension hcolumns (weight rowPoint), extension_rowsOf]
    rfl
  have hsound := sound_roundsOf (summand hdegree mix) _ hpoint haccepts hdegrees hfinal
  rw [hrounds, total_eq_weightedConstraints hdegree mix hcolumns (fun _ _ => rfl)] at hsound
  exact hsound.imp_left Eq.symm

/-- The zerocheck is complete for tables of at least two rows, and sound up to a challenge that is a
root of a nonzero polynomial of degree at most the degree of the constraints plus one: the
difference of the polynomial that was sent and the honest one. -/
theorem zerocheck (relation : UniformRelation F) (constraint : List F → List F)
    (hcomputes : Computes relation constraint) (hdegree : LineDegree relation constraint)
    (transcript : AkitaTranscript F) :
    (DistinctNodes F (relation.maxConstraintDegree + 2) →
      ∀ (threadCount : ℕ) (columns : List (List F)) (rowPoint : List F) (mix : F)
        (state : transcript.State), rowPoint ≠ [] →
        Satisfies relation constraint rowPoint.length columns →
        ∃ rounds point openedValues state',
          proveSumcheck transcript threadCount relation columns (equalityEvaluations rowPoint) mix
            state = .ok ((rounds, point, openedValues), state') ∧
          replaySumcheck transcript relation rounds openedValues rowPoint mix state =
            .ok (point, state') ∧
          openedValues = columns.map (fun column => extension point (tableOf column))) ∧
    ∀ (columns rounds : List (List F)) (openedValues rowPoint point : List F) (mix : F)
      (state state' : transcript.State),
      replaySumcheck transcript relation rounds openedValues rowPoint mix state =
        .ok (point, state') →
      openedValues = columns.map (fun column => extension point (tableOf column)) →
      weightedConstraints relation constraint mix rowPoint columns = 0 ∨
        Escapes (summand hdegree mix) (rowsOf relation.columnCount columns (weight rowPoint))
          (roundsOf rounds point) := by
  constructor
  · intro hnodes threadCount columns rowPoint mix state hpoint hsatisfies
    exact proveSumcheck_complete hcomputes hdegree hnodes transcript threadCount hpoint hsatisfies
      mix state
  · intro columns rounds openedValues rowPoint point mix state state' hreplay hopened
    exact replaySumcheck_sound hcomputes hdegree transcript hreplay hopened

/-! ## A relation of one column -/

/-- The relation of the tests of the sumcheck: a column of zeros and ones. -/
def booleanColumn (F : Type) [Field F] : UniformRelation F where
  columnCount := 1
  constraintCount := 1
  maxConstraintDegree := 2
  constraintOutput := .overwritten
  evaluate row constraints := do
    let value ← someOr row.head? .shape
    match constraints with
    | [] => .error .shape
    | _ :: rest => .ok (value * (value - 1) :: rest)

/-- The constraint of the column. -/
def booleanConstraint (row : List F) : List F := row.map (fun value => value * (value - 1))

omit [DecidableEq F] in
theorem booleanColumn_computes : Computes (booleanColumn F) booleanConstraint where
  length_constraint hrow := (List.length_map _).trans hrow
  evaluate_eq hrow hbuffer _ := by
    obtain ⟨value, rfl⟩ := List.length_eq_one_iff.mp hrow
    obtain ⟨old, rfl⟩ := List.length_eq_one_iff.mp hbuffer
    rfl

omit [DecidableEq F] in
theorem booleanColumn_lineDegree : LineDegree (booleanColumn F) booleanConstraint := by
  intro low high hlow hhigh index hindex
  obtain ⟨first, rfl⟩ := List.length_eq_one_iff.mp hlow
  obtain ⟨second, rfl⟩ := List.length_eq_one_iff.mp hhigh
  obtain rfl := Nat.lt_one_iff.mp hindex
  refine ⟨linePolynomial first second * (linePolynomial first second - 1), ?_, fun x => ?_⟩
  · show _ ≤ 1 + 1
    refine natDegree_mul_le.trans (add_le_add (natDegree_linePolynomial_le _ _) ?_)
    exact (natDegree_sub_le _ _).trans (max_le (natDegree_linePolynomial_le _ _) (by simp))
  · rw [eval_mul, eval_sub, eval_linePolynomial, eval_one]
    rfl

/-- A column of two rows, and its honest rounds. -/
theorem zerocheck_booleanColumn :
    ∃ rounds point openedValues state',
      proveSumcheck (sumTranscript ℚ) 1 (booleanColumn ℚ) [[0, 1]] (equalityEvaluations [3]) 7
        (0 : ℚ) = .ok ((rounds, point, openedValues), state') ∧
      replaySumcheck (sumTranscript ℚ) (booleanColumn ℚ) rounds openedValues [3] 7 (0 : ℚ) =
        .ok (point, state') ∧
      (weightedConstraints (booleanColumn ℚ) booleanConstraint 7 [3] [[0, 1]] = 0 ∨
        Escapes (summand (booleanColumn_lineDegree (F := ℚ)) 7)
          (rowsOf 1 [[0, 1]] (weight [3])) (roundsOf rounds point)) := by
  obtain ⟨hcomplete, hsound⟩ := zerocheck (booleanColumn ℚ) booleanConstraint
    booleanColumn_computes booleanColumn_lineDegree (sumTranscript ℚ)
  have hsatisfies : Satisfies (booleanColumn ℚ) booleanConstraint 1 [[0, 1]] := by
    refine ⟨rfl, by simp, fun index hindex => ?_⟩
    match index, hindex with
    | 0, _ => simp [booleanConstraint, rowOf, tableOf]
    | 1, _ => simp [booleanConstraint, rowOf, tableOf]
  obtain ⟨rounds, point, openedValues, state', hprove, hreplay, hopened⟩ := hcomplete
    (fun _ _ _ _ hequal => Nat.cast_injective hequal) 1 [[0, 1]] [3] 7 (0 : ℚ)
    (List.cons_ne_nil _ _) hsatisfies
  exact ⟨rounds, point, openedValues, state', hprove, hreplay,
    hsound [[0, 1]] rounds openedValues [3] point 7 (0 : ℚ) state' hreplay hopened⟩

/-- A satisfied column of one row has no rounds, and its prover refuses the table. -/
theorem proveSumcheck_singleRow :
    Computes (booleanColumn ℚ) booleanConstraint ∧
      LineDegree (booleanColumn ℚ) booleanConstraint ∧
      Satisfies (booleanColumn ℚ) booleanConstraint 0 [[1]] ∧
      proveSumcheck (sumTranscript ℚ) 1 (booleanColumn ℚ) [[1]] (equalityEvaluations []) 7 (0 : ℚ) =
        .error .shape := by
  refine ⟨booleanColumn_computes, booleanColumn_lineDegree, ⟨rfl, by simp, ?_⟩, ?_⟩
  · intro index hindex
    obtain rfl : index = 0 := by simpa using hindex
    simp [booleanConstraint, rowOf, tableOf]
  · have hshort : (equalityEvaluations ([] : List ℚ)).length < 2 := Nat.one_lt_two
    unfold proveSumcheck
    rw [rejectIf, if_pos (Or.inl hshort)]
    rfl

end Uniform

end Zksm83
