import Zksm83.Shout.Reduction

/-!
# Address binding

The second sumcheck of a lookup is about products of columns that are read with a scale and an
offset: the selector with the coefficient of its slot, and the equality polynomials of the address
bits. Read `terms_sharedTerms` and `bound_sound` first: what the prover sums, and what the verifier
learns from the values at the end.
-/

namespace Zksm83

open Finset Sumcheck SumOfProductsSumcheck TableLookup
open Multilinear (extension weight equality)

namespace Shout

variable {F : Type} [Field F]

/-! ## Columns with a scale and an offset -/

structure AffineColumn (F : Type) where
  column : ℕ
  scale : F
  offset : F
  deriving DecidableEq

/-- The value of a column at a row or a point, scaled and offset. -/
def AffineColumn.value (affine : AffineColumn F) (values : ℕ → F) : F :=
  affine.scale * values affine.column + affine.offset

/-- The equality polynomial of a column of bits and a coordinate, scaled. -/
def bitColumn (scale : F) (column : ℕ) (point : F) : AffineColumn F :=
  ⟨column, scale * (2 * point - 1), scale * (1 - point)⟩

theorem bitColumn_value (scale : F) (column : ℕ) (point : F) (values : ℕ → F) :
    (bitColumn scale column point).value values = scale * bitEquality (values column) point := by
  rw [AffineColumn.value, bitColumn, bitEquality]
  ring

/-- The equality polynomials of columns of bits and a point. -/
def bitColumns (bits : List ℕ) (point : List F) : List (AffineColumn F) :=
  (bits.zip point).map (fun entry => bitColumn 1 entry.1 entry.2)

theorem prod_bitColumns (bits : List ℕ) (point : List F) (values : ℕ → F) :
    ((bitColumns bits point).map (fun affine => affine.value values)).prod =
      equality (bits.map values) point := by
  induction bits generalizing point with
  | nil => rfl
  | cons bit bits ih =>
    cases point with
    | nil => rfl
    | cons x point =>
      rw [bitColumns, List.zip_cons_cons, List.map_cons, List.map_cons, List.prod_cons,
        ← bitColumns, ih, bitColumn_value, one_mul, List.map_cons, equality, bitEquality]

theorem extension_affine (affine : AffineColumn F) (point : List F) (table : ℕ → ℕ → F) :
    extension point (fun row => affine.value (fun column => table column row)) =
      affine.value (fun column => extension point (table column)) := by
  unfold AffineColumn.value
  rw [Multilinear.extension_add, extension_mul, Multilinear.extension_const]

/-- The tables of terms of columns. -/
def affineFunctions (table : ℕ → ℕ → F) (terms : List (List (AffineColumn F))) :
    List (List (ℕ → F)) :=
  terms.map (fun term => term.map (fun affine row => affine.value (fun column => table column row)))

/-- The values of terms at a point, behind the value of the factor that they share. -/
def finalValues (shared : F) (terms : List (List (AffineColumn F))) (values : ℕ → F) :
    List (List F) :=
  terms.map (fun term => shared :: term.map (fun affine => affine.value values))

theorem finalValues_extension {cyclePoint point : List F} (hlength : cyclePoint.length = point.length)
    (terms : List (List (AffineColumn F))) (table : ℕ → ℕ → F) :
    finalValues (equality cyclePoint point) terms (fun column => extension point (table column)) =
      (affineFunctions table terms).map (fun list =>
        extension point (weight cyclePoint) :: list.map (extension point)) := by
  rw [finalValues, affineFunctions, List.map_map, ← Multilinear.extension_weight hlength]
  refine List.map_congr_left fun term _ => congrArg (List.cons _) ?_
  rw [List.map_map]
  exact List.map_congr_left fun affine _ => (extension_affine affine point table).symm

/-- The values at the end depend on the columns of the terms only. -/
theorem finalValues_congr {shared : F} {terms : List (List (AffineColumn F))}
    {values values' : ℕ → F}
    (hsame : ∀ term ∈ terms, ∀ affine ∈ term, values affine.column = values' affine.column) :
    finalValues shared terms values = finalValues shared terms values' := by
  refine List.map_congr_left fun term hterm => congrArg (List.cons shared) ?_
  exact List.map_congr_left fun affine haffine => by
    rw [AffineColumn.value, AffineColumn.value, hsame term hterm affine haffine]

theorem column_of_mem_bitColumns {bits : List ℕ} {point : List F} {affine : AffineColumn F}
    (haffine : affine ∈ bitColumns bits point) : affine.column ∈ bits := by
  obtain ⟨entry, hentry, rfl⟩ := List.mem_map.mp haffine
  exact (List.of_mem_zip hentry).1

/-! ## Readers -/

/-- The product of a term is what its reader has at a row, with the equality polynomial of the
address. -/
def Binds (table : ℕ → ℕ → F) (tablePoint : List F) (reader : Reader F)
    (term : List (AffineColumn F)) : Prop :=
  ∀ row, (term.map (fun affine => affine.value (fun column => table column row))).prod =
    reader.coefficient * reader.selector row * equality (reader.address row) tablePoint

theorem termValue_binds {table : ℕ → ℕ → F} {tablePoint : List F} {readers : List (Reader F)}
    {terms : List (List (AffineColumn F))}
    (hbinds : List.Forall₂ (Binds table tablePoint) readers terms) (row : ℕ) :
    termValue (affineFunctions table terms) row =
      mixedEntries readers (fun address => equality address tablePoint) row := by
  induction hbinds with
  | nil => rfl
  | @cons reader term readers terms hbind _ ih =>
    rw [affineFunctions, List.map_cons, termValue, List.map_cons, List.sum_cons, ← affineFunctions,
      ← termValue, ih, List.map_map, mixedEntries, mixedEntries, List.map_cons, List.sum_cons,
      ← hbind row]
    rfl

/-- The mix of the readers' values at a point. -/
theorem extension_mixedValues (readers : List (Reader F)) (point : List F) :
    extension point (mixedValues readers) =
      (readers.map (fun reader => reader.coefficient * extension point reader.value)).sum := by
  unfold mixedValues
  rw [extension_list_sum]
  exact congrArg List.sum (List.map_congr_left fun reader _ => extension_mul _ _ _)

/-! ## Columns in memory -/

/-- The weights of the rows in memory, and behind them the columns. -/
def memoryOf (weights : List F) (columns : List (List F)) (address : ℕ) : F :=
  ((weights :: columns).getD (address / weights.length) []).getD (address % weights.length) 0

def weightSource (rowCount : ℕ) : FactorSource := .borrowed ⟨0, rowCount⟩

def columnSource (rowCount index : ℕ) : FactorSource := .borrowed ⟨(index + 1) * rowCount, rowCount⟩

def AffineColumn.factor (affine : AffineColumn F) (rowCount : ℕ) : SumcheckFactor F :=
  .affine (columnSource rowCount affine.column) affine.scale affine.offset

/-- A factor that reads a column, which must have the given number of rows. -/
def columnFactor [DecidableEq F] (columns : List (List F)) (rowCount : ℕ)
    (affine : AffineColumn F) : Except LookupError (SumcheckFactor F) := do
  let _ ← column columns affine.column rowCount
  return affine.factor rowCount

/-- The factors of a term: the weights and the columns. -/
def factorTerm (rowCount : ℕ) (term : List (AffineColumn F)) : List (SumcheckFactor F) :=
  .values (weightSource rowCount) :: term.map (fun affine => affine.factor rowCount)

section Memory

variable {weights : List F} {columns : List (List F)} {row : ℕ}

theorem memoryOf_weight (hrow : row < weights.length) :
    memoryOf weights columns row = tableOf weights row := by
  rw [memoryOf, Nat.div_eq_of_lt hrow, Nat.mod_eq_of_lt hrow]
  rfl

theorem memoryOf_column (index : ℕ) (hrow : row < weights.length) :
    memoryOf weights columns ((index + 1) * weights.length + row) =
      tableOf (columns.getD index []) row := by
  have hpos : 0 < weights.length := (Nat.zero_le row).trans_lt hrow
  rw [memoryOf, Nat.add_comm, Nat.add_mul_div_right _ _ hpos, Nat.div_eq_of_lt hrow,
    Nat.add_mul_mod_self_right, Nat.mod_eq_of_lt hrow, Nat.zero_add, List.getD_cons_succ]
  rfl

theorem value_factor (affine : AffineColumn F) (hrow : row < weights.length) :
    (affine.factor weights.length).value (memoryOf weights columns) row =
      affine.value (fun index => tableOf (columns.getD index []) row) := by
  show affine.scale * memoryOf weights columns ((affine.column + 1) * weights.length + row) +
    affine.offset = _
  rw [memoryOf_column _ hrow]
  rfl

end Memory

section Terms

variable {cyclePoint : List F} {columns : List (List F)} {terms : List (List (AffineColumn F))}
  {factors : ℕ}

omit [Field F] in
/-- The terms that an honest prover sums. -/
theorem terms_sharedTerms (hne : terms ≠ []) (hfactors : ∀ term ∈ terms, term.length = factors)
    (count : ℕ) : SharedTerms count factors (terms.map (factorTerm (2 ^ count))) where
  nonempty := fun hempty => hne (List.map_eq_nil_iff.mp hempty)
  factors_eq := by
    refine List.forall_mem_map.mpr fun term hterm => ?_
    rw [factorTerm, List.length_cons, List.length_map, hfactors term hterm]
  spans := by
    refine List.forall_mem_map.mpr fun term _ => List.forall_mem_cons.mpr ⟨rfl, ?_⟩
    exact List.forall_mem_map.mpr fun affine _ => rfl
  shared := ⟨⟨0, 2 ^ count⟩, List.forall_mem_map.mpr fun term _ => ⟨_, _, rfl, rfl⟩⟩

/-- In memory, the shared factor is the equality polynomial of the point of the rows. -/
theorem sharedFunction_terms (hne : terms ≠ []) {row : ℕ} (hrow : row < 2 ^ cyclePoint.length) :
    sharedFunction (memoryOf (Uniform.equalityEvaluations cyclePoint) columns)
      (terms.map (factorTerm (2 ^ cyclePoint.length))) row = weight cyclePoint row := by
  obtain ⟨term, rest, rfl⟩ := List.exists_cons_of_ne_nil hne
  have hlength := Uniform.length_equalityEvaluations cyclePoint
  show memoryOf _ columns (0 + row) = _
  rw [Nat.zero_add, memoryOf_weight (hrow.trans_eq hlength.symm),
    Uniform.tableOf_equalityEvaluations cyclePoint row hrow]

variable (columns terms) in
/-- In memory, the other factors are the columns. -/
theorem map_otherFunctions {α : Type} (read : (ℕ → F) → α)
    (hread : ∀ f f' : ℕ → F, (∀ row < 2 ^ cyclePoint.length, f row = f' row) → read f = read f') :
    (otherFunctions (memoryOf (Uniform.equalityEvaluations cyclePoint) columns)
      (terms.map (factorTerm (2 ^ cyclePoint.length)))).map (fun list => list.map read) =
    (affineFunctions (fun index => tableOf (columns.getD index [])) terms).map
      (fun list => list.map read) := by
  have hlength := Uniform.length_equalityEvaluations cyclePoint
  rw [otherFunctions, affineFunctions, List.map_map, List.map_map, List.map_map]
  refine List.map_congr_left fun term _ => ?_
  simp only [Function.comp_apply, factorTerm, List.tail_cons, List.map_map]
  refine List.map_congr_left fun affine _ => hread _ _ fun row hrow => ?_
  rw [← hlength]
  exact value_factor affine (hrow.trans_eq hlength.symm)

end Terms

/-! ## The sumcheck of the addresses -/

variable [DecidableEq F] {transcript : AkitaTranscript F} {cyclePoint : List F}
  {columns : List (List F)} {terms : List (List (AffineColumn F))} {factors : ℕ}

/-- A sumcheck over the rows that a prover made and its verifier accepts. -/
structure Bound (transcript : AkitaTranscript F) (cyclePoint : List F) (table : ℕ → ℕ → F)
    (terms : List (List (AffineColumn F))) (factors : ℕ) (state : transcript.State)
    (proof : Proof F) (claim : F) (point : List F) (state' : transcript.State) : Prop where
  point_length : point.length = cyclePoint.length
  claim_eq : claim = extension cyclePoint (termValue (affineFunctions table terms))
  finalTerms_eq : proof.finalTerms =
    finalValues (equality cyclePoint point) terms (fun column => extension point (table column))
  verifies : DistinctNodes F (factors + 2) →
    verify transcript proof claim cyclePoint.length terms.length (factors + 1) state =
      .ok (point, state')

/-- The prover succeeds on terms of columns. -/
theorem proveSharedFirst_bound (hne : terms ≠ [])
    (hfactors : ∀ term ∈ terms, term.length = factors) (hpos : 0 < factors)
    (state : transcript.State) :
    ∃ output, proveSharedFirst transcript
        (memoryOf (Uniform.equalityEvaluations cyclePoint) columns)
        (terms.map (factorTerm (2 ^ cyclePoint.length))) state = .ok output ∧
      Bound transcript cyclePoint (fun index => tableOf (columns.getD index [])) terms factors state
        output.1.1 output.1.2.1 output.1.2.2 output.2 := by
  obtain ⟨output, hprove, hproved⟩ := @proveSharedFirst_proved F _ _ transcript
    (memoryOf (Uniform.equalityEvaluations cyclePoint) columns) _ _ _
    (terms_sharedTerms hne hfactors cyclePoint.length) hpos state
  have hpoint := hproved.point_length
  refine ⟨output, hprove, hpoint, ?_, ?_, fun hnodes => ?_⟩
  · rw [hproved.claim_eq, extension]
    refine sum_congr rfl fun row hrow => ?_
    have hrow := mem_range.mp hrow
    have hothers := map_otherFunctions columns terms (fun f : ℕ → F => f row)
      fun _ _ heq => heq row hrow
    have hvalues := congrArg (fun lists => (lists.map List.prod).sum) hothers
    simp only [List.map_map, Function.comp_def] at hvalues
    rw [sharedFunction_terms hne hrow, smul_eq_mul]
    exact congrArg _ hvalues
  · have hothers := map_otherFunctions columns terms (extension output.1.2.2) fun _ _ heq =>
        Multilinear.extension_congr fun row hrow => heq row (hpoint ▸ hrow)
    have hshared : extension output.1.2.2 (sharedFunction
        (memoryOf (Uniform.equalityEvaluations cyclePoint) columns)
        (terms.map (factorTerm (2 ^ cyclePoint.length)))) =
        extension output.1.2.2 (weight cyclePoint) :=
      Multilinear.extension_congr fun row hrow => sharedFunction_terms hne (hpoint ▸ hrow)
    have hconses := congrArg (List.map (List.cons (extension output.1.2.2 (weight cyclePoint))))
      hothers
    simp only [List.map_map, Function.comp_def] at hconses
    rw [hproved.finalTerms_eq, hshared, finalValues_extension hpoint.symm]
    exact hconses
  · have hverify := hproved.verifies hnodes
    rwa [List.length_map] at hverify

end Shout

end Zksm83
