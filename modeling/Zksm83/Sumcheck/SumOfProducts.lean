import Zksm83.Sumcheck.Product

/-!
# The sumcheck of a sum of products

A sum of products of equally many factors, where all products share their first factor. A factor is
a table, an affine function of one, a constant, or a linear combination of tables and the row index;
after the first fold it is a list or a constant. Read `SumcheckFactor.holds` and
`SumcheckFactor.fold_holds` first: whatever a factor is stored as, it holds the table it stands for,
and its fold holds the folded table. After `sumcheck.rs`, `sumcheck/factor.rs` and
`sumcheck/rounds.rs`.
-/

namespace Zksm83

open Finset Sumcheck
open Multilinear (extension line)

namespace SumOfProductsSumcheck

variable {F : Type} [Field F]

/-! ## Factors -/

/-- Field elements that are stored one after the other: where they begin, and how many they are. -/
structure Slice where
  pointer : ℕ
  length : ℕ
  deriving DecidableEq, Repr

inductive FactorSource where
  | borrowed (slice : Slice)
  | shared (slice : Slice)
  deriving DecidableEq, Repr

def FactorSource.slice : FactorSource → Slice
  | .borrowed slice => slice
  | .shared slice => slice

/-- A factor of the first round, which names tables without copying them. -/
inductive SumcheckFactor (F : Type) where
  | values (source : FactorSource)
  | affine (source : FactorSource) (scale offset : F)
  | constant (value : F) (len : ℕ)
  | linearCombination (sources : List (FactorSource × F)) (indexScale offset : F) (len : ℕ)
  deriving DecidableEq

inductive FoldedFactor (F : Type) where
  | table (values : List F)
  | constant (value : F) (len : ℕ)
  deriving DecidableEq

/-- What the rounds read of a factor. -/
structure SumcheckTable (T F : Type) where
  tableLen : T → ℕ
  tableValue : T → ℕ → Except ProductSumcheckError F

/-- A value of a slice. The field elements in memory do not change while they are borrowed. -/
def sliceValue (memory : ℕ → F) (source : FactorSource) (index : ℕ) :
    Except ProductSumcheckError F :=
  if index < source.slice.length then .ok (memory (source.slice.pointer + index))
  else .error .foldingShape

def constantValue (value : F) (len index : ℕ) : Except ProductSumcheckError F :=
  if len ≤ index then .error .foldingShape else .ok value

/-- The factors of the first round over the field elements in memory. -/
def factorTable (memory : ℕ → F) : SumcheckTable (SumcheckFactor F) F where
  tableLen
    | .values source => source.slice.length
    | .affine source _ _ => source.slice.length
    | .constant _ len => len
    | .linearCombination _ _ _ len => len
  tableValue
    | .values source, index => sliceValue memory source index
    | .affine source scale offset, index => do
      let value ← sliceValue memory source index
      return scale * value + offset
    | .constant value len, index => constantValue value len index
    | .linearCombination sources indexScale offset len, index => do
      rejectIf (len ≤ index) .foldingShape
      sources.foldlM (fun value source => do
        let term ← sliceValue memory source.1 index
        return value + source.2 * term) (offset + indexScale * (index : F))

def foldedTable : SumcheckTable (FoldedFactor F) F where
  tableLen
    | .table values => values.length
    | .constant _ len => len
  tableValue
    | .table values, index => someOr values[index]? .foldingShape
    | .constant value len, index => constantValue value len index

/-- Two factors name the same table in memory. -/
def SumcheckFactor.sameTable : SumcheckFactor F → SumcheckFactor F → Bool
  | .values left, .values right => decide (left.slice = right.slice)
  | _, _ => false

/-- The first fold of a factor. -/
def SumcheckFactor.fold (memory : ℕ → F) (factor : SumcheckFactor F) (challenge : F) :
    Except ProductSumcheckError (FoldedFactor F) :=
  match factor with
  | .constant value len => do
    rejectIf (len < 2 ∨ len % 2 ≠ 0) .foldingShape
    return .constant value (len / 2)
  | factor => do
    let len := (factorTable memory).tableLen factor
    rejectIf (len < 2 ∨ len % 2 ≠ 0) .foldingShape
    let values ← (List.range (len / 2)).mapM (fun pair => do
      let low ← (factorTable memory).tableValue factor (pair * 2)
      let high ← (factorTable memory).tableValue factor (pair * 2 + 1)
      return low + challenge * (high - low))
    return .table values

def FoldedFactor.fold (factor : FoldedFactor F) (challenge : F) :
    Except ProductSumcheckError (FoldedFactor F) :=
  match factor with
  | .table values => do
    let values ← ProductSumcheck.fold values challenge
    return .table values
  | .constant value len => do
    rejectIf (len < 2 ∨ len % 2 ≠ 0) .foldingShape
    return .constant value (len / 2)

/-! ## Rounds -/

section Rounds

variable {T : Type} (table : SumcheckTable T F)

/-- The number of terms, of factors and of rows. -/
def validateTerms (terms : List (List T)) : Except ProductSumcheckError (ℕ × ℕ × ℕ) := do
  let firstTerm ← someOr terms.head? .emptyFactors
  let firstFactor ← someOr firstTerm.head? .emptyFactors
  let len := table.tableLen firstFactor
  rejectIf (len = 0 ∨ ¬ len.isPowerOfTwo) .nonPowerOfTwo
  rejectIf (∃ term ∈ terms, term.length ≠ firstTerm.length ∨
    ∃ factor ∈ term, table.tableLen factor ≠ len) .lengthMismatch
  return (terms.length, firstTerm.length, len)

def productAt (factors : List T) (index : ℕ) : Except ProductSumcheckError F :=
  factors.foldlM (fun product factor => do
    let value ← table.tableValue factor index
    return product * value) 1

/-- The sum of the products of all terms, at one row. -/
def termSumAt (terms : List (List T)) (index : ℕ) : Except ProductSumcheckError F :=
  terms.foldlM (fun sum factors => do
    let product ← productAt table factors index
    return sum + product) 0

def sharedSumOfTermProducts (shared : T) (terms : List (List T)) :
    Except ProductSumcheckError F := do
  let (_, _, length) ← validateTerms table terms
  rejectIf (table.tableLen shared ≠ length) .lengthMismatch
  (List.range length).foldlM (fun sum index => do
    let termSum ← termSumAt table terms index
    let value ← table.tableValue shared index
    return sum + value * termSum) 0

def interpolationPoints (count : ℕ) : List F := (List.range count).map (fun point : ℕ => (point : F))

/-- The value at a point of the line through the two values of a pair. -/
def nodeValue (points : List F) (zero one : F) (index : ℕ) : F :=
  match index with
  | 0 => zero
  | 1 => one
  | _ => zero + points.getD index 0 * (one - zero)

/-- The products of a term at all points, over a pair of rows. -/
def accumulateFactors (factors : List T) (pairIndex : ℕ) (points products : List F) :
    Except ProductSumcheckError (List F) :=
  factors.foldlM (fun products factor => do
    let zero ← table.tableValue factor (pairIndex * 2)
    let one ← table.tableValue factor (pairIndex * 2 + 1)
    return products.mapIdx (fun index product => product * nodeValue points zero one index)) products

/-- A pair of rows is added to the evaluations at all points; the products are scratch space. -/
def accumulateSharedPair (shared : T) (terms : List (List T)) (pairIndex : ℕ) (points : List F)
    (evaluations products : List F) : Except ProductSumcheckError (List F × List F) := do
  rejectIf (points.length ≠ evaluations.length ∨ points.length ≠ products.length ∨
    points.length < 2) .proofShape
  let sharedZero ← table.tableValue shared (pairIndex * 2)
  let sharedOne ← table.tableValue shared (pairIndex * 2 + 1)
  terms.foldlM (fun scratch factors => do
    let products ← accumulateFactors table factors pairIndex points
      (List.replicate scratch.2.length 1)
    return ((scratch.1.zip products).mapIdx (fun index values =>
      values.1 + nodeValue points sharedZero sharedOne index * values.2), products))
    (evaluations, products)

def sharedSumProductRound (shared : T) (terms : List (List T)) :
    Except ProductSumcheckError (List F) := do
  let (_, factorCount, length) ← validateTerms table terms
  rejectIf (table.tableLen shared ≠ length) .lengthMismatch
  rejectIf (length = 1) .foldingShape
  let evaluationCount := factorCount + 2
  let points := interpolationPoints evaluationCount
  let scratch ← (List.range (length / 2)).foldlM (fun scratch pairIndex =>
    accumulateSharedPair table shared terms pairIndex points scratch.1 scratch.2)
    (List.replicate evaluationCount 0, List.replicate evaluationCount 1)
  return scratch.1

end Rounds

/-! ## The prover -/

/-- A proof for a sum of products of equally many factors. -/
structure Proof (F : Type) where
  rounds : List (List F)
  finalTerms : List (List F)
  deriving DecidableEq

abbrev Output (F : Type) : Type := Proof F × F × List F

/-- The first factor of all terms, and the other factors of each term. -/
def splitSharedFirst (terms : List (List (SumcheckFactor F))) :
    Except ProductSumcheckError (SumcheckFactor F × List (List (SumcheckFactor F))) :=
  match terms with
  | (shared :: first) :: terms => do
    let stripped ← terms.mapM (fun term =>
      match term with
      | candidate :: factors => do
        rejectIf (shared.sameTable candidate = false) .lengthMismatch
        return factors
      | [] => .error .emptyFactors)
    return (shared, first :: stripped)
  | _ => .error .emptyFactors

/-- The tables of a round: the shared factor, the other factors of each term, and the number of
rows. -/
abbrev Tables (T : Type) : Type := T × List (List T) × ℕ

section Transcript

variable (transcript : AkitaTranscript F)

def channel : Channel F transcript.State :=
  roundChannel transcript (asciiBytes "sum-of-products-sumcheck")
    (asciiBytes "sum-of-products-sumcheck-challenge")

def finishSharedSumOfProducts {T : Type} (table : SumcheckTable T F) (shared : T)
    (terms : List (List T)) (rounds : List (List F)) (claim : F) (point : List F)
    (state : transcript.State) :
    Except ProductSumcheckError (Output F × transcript.State) := do
  let sharedValue ← table.tableValue shared 0
  let finalTerms ← terms.mapM (fun term => do
    let factors ← term.mapM (fun factor => table.tableValue factor 0)
    return sharedValue :: factors)
  return ((⟨rounds, finalTerms⟩, claim, point), absorbTermFinals transcript finalTerms state)

/-- Both kinds of tables are folded factor by factor. -/
def foldTables {T : Type} (fold : T → F → Except ProductSumcheckError (FoldedFactor F))
    (challenge : F) (tables : Tables T) :
    Except ProductSumcheckError (Tables (FoldedFactor F)) := do
  let shared ← fold tables.1 challenge
  let terms ← tables.2.1.mapM (fun term => term.mapM (fun factor => fold factor challenge))
  return (shared, terms, tables.2.2 / 2)

def proveRounds (memory : ℕ → F) (tables : Tables (SumcheckFactor F)) (state : transcript.State) :
    Except ProductSumcheckError (List (List F) × List F × Tables (FoldedFactor F) ×
      transcript.State) :=
  proveFrom (channel transcript) id
    (fun tables => sharedSumProductRound (factorTable memory) tables.1 tables.2.1)
    (fun _ => foldTables (SumcheckFactor.fold memory))
    (fun tables => decide (1 < tables.2.2))
    (fun tables => sharedSumProductRound foldedTable tables.1 tables.2.1)
    (fun _ => foldTables FoldedFactor.fold)
    (fun tables => tables.2.2) tables state

def proveSharedFirst (memory : ℕ → F) (terms : List (List (SumcheckFactor F)))
    (state : transcript.State) : Except ProductSumcheckError (Output F × transcript.State) := do
  let (shared, terms) ← splitSharedFirst terms
  let (_, _, currentLen) ← validateTerms (factorTable memory) terms
  rejectIf ((factorTable memory).tableLen shared ≠ currentLen) .lengthMismatch
  let claim ← sharedSumOfTermProducts (factorTable memory) shared terms
  let _ ← ProductSumcheck.variableCount currentLen
  if currentLen = 1 then
    finishSharedSumOfProducts transcript (factorTable memory) shared terms [] claim [] state
  else
    let (rounds, point, (shared, terms, _), state) ←
      proveRounds transcript memory (shared, terms, currentLen) state
    finishSharedSumOfProducts transcript foldedTable shared terms rounds claim point state

/-! ## The verifier -/

def validateShape (proof : Proof F) (rounds terms factors : ℕ) :
    Except ProductSumcheckError Unit :=
  rejectIf (proof.rounds.length ≠ rounds ∨ proof.finalTerms.length ≠ terms ∨
    (∃ term ∈ proof.finalTerms, term.length ≠ factors) ∨
    ∃ round ∈ proof.rounds, round.length ≠ factors + 1) .proofShape

def terminalTermSum (terms : List (List F)) : F :=
  (terms.map (fun term => term.foldl (fun product factor => product * factor) 1)).foldl
    (fun sum term => sum + term) 0

def verify [DecidableEq F] (proof : Proof F) (initialClaim : F)
    (expectedRounds expectedTerms expectedFactors : ℕ) (state : transcript.State) :
    Except ProductSumcheckError (List F × transcript.State) := do
  validateShape proof expectedRounds expectedTerms expectedFactors
  let (claim, point, state) ← replay (channel transcript) checkRound evaluateLagrange 0
    initialClaim proof.rounds state
  rejectIf (claim ≠ terminalTermSum proof.finalTerms) .finalClaimMismatch
  return (point, absorbTermFinals transcript proof.finalTerms state)

end Transcript

/-! ## The table of a factor -/

/-- What a factor stands for. -/
def SumcheckFactor.value (memory : ℕ → F) : SumcheckFactor F → ℕ → F
  | .values source, index => memory (source.slice.pointer + index)
  | .affine source scale offset, index => scale * memory (source.slice.pointer + index) + offset
  | .constant value _, _ => value
  | .linearCombination sources indexScale offset _, index =>
    offset + indexScale * (index : F) +
      (sources.map (fun source => source.2 * memory (source.1.slice.pointer + index))).sum

/-- A factor over a number of coordinates. The tables of a linear combination may be longer. -/
def SumcheckFactor.Spans (count : ℕ) : SumcheckFactor F → Prop
  | .values source => source.slice.length = 2 ^ count
  | .affine source _ _ => source.slice.length = 2 ^ count
  | .constant _ len => len = 2 ^ count
  | .linearCombination sources _ _ len =>
    len = 2 ^ count ∧ ∀ source ∈ sources, 2 ^ count ≤ source.1.slice.length

/-- The rounds read these values of a factor. -/
def Holds {T : Type} (table : SumcheckTable T F) (count : ℕ) (factor : T) (f : ℕ → F) : Prop :=
  table.tableLen factor = 2 ^ count ∧
    ∀ index < 2 ^ count, table.tableValue factor index = .ok (f index)

omit [Field F] in
theorem sliceValue_eq (memory : ℕ → F) {source : FactorSource} {index : ℕ}
    (hindex : index < source.slice.length) :
    sliceValue memory source index = .ok (memory (source.slice.pointer + index)) :=
  if_pos hindex

omit [Field F] in
theorem constantValue_eq (value : F) {len index : ℕ} (hindex : index < len) :
    constantValue value len index = .ok value :=
  if_neg (not_le.mpr hindex)

/-- A factor holds the table that it stands for. -/
theorem SumcheckFactor.holds (memory : ℕ → F) {factor : SumcheckFactor F} {count : ℕ}
    (hspans : factor.Spans count) : Holds (factorTable memory) count factor (factor.value memory) := by
  cases factor with
  | values source =>
    exact ⟨hspans, fun index hindex => sliceValue_eq memory (hindex.trans_eq hspans.symm)⟩
  | affine source scale offset =>
    refine ⟨hspans, fun index hindex => ?_⟩
    exact Except.bind_eq_ok.mpr ⟨_, sliceValue_eq memory (hindex.trans_eq hspans.symm), rfl⟩
  | constant value len =>
    exact ⟨hspans, fun index hindex => constantValue_eq value (hindex.trans_eq hspans.symm)⟩
  | linearCombination sources indexScale offset len =>
    obtain ⟨hlen, hsources⟩ := hspans
    refine ⟨hlen, fun index hindex => ?_⟩
    have hstep (source : FactorSource × F) (hsource : source ∈ sources) (value : F) :
        (do
          let term ← sliceValue memory source.1 index
          return value + source.2 * term : Except ProductSumcheckError F) =
          .ok (value + source.2 * memory (source.1.slice.pointer + index)) :=
      Except.bind_eq_ok.mpr
        ⟨_, sliceValue_eq memory (hindex.trans_le (hsources source hsource)), rfl⟩
    refine Except.check_eq_ok.mpr
      ⟨rejectIf_eq_ok.mpr (not_le.mpr (hindex.trans_eq hlen.symm)), ?_⟩
    rw [foldlM_eq_ok hstep, foldl_add (fun source : FactorSource × F =>
      source.2 * memory (source.1.slice.pointer + index))]
    rfl

theorem forall₂_mem {α β : Type} {relation : α → β → Prop} {first : List α} {second : List β}
    (hrelation : List.Forall₂ relation first second) {value : α} (hvalue : value ∈ first) :
    ∃ value' ∈ second, relation value value' := by
  induction hrelation with
  | nil => exact absurd hvalue List.not_mem_nil
  | cons hhead _ ih =>
    obtain rfl | hvalue := List.mem_cons.mp hvalue
    · exact ⟨_, List.mem_cons_self, hhead⟩
    · obtain ⟨value', hmem, hvalue'⟩ := ih hvalue
      exact ⟨value', List.mem_cons_of_mem _ hmem, hvalue'⟩

theorem not_odd_length {len count : ℕ} (hlen : len = 2 ^ (count + 1)) :
    ¬ (len < 2 ∨ len % 2 ≠ 0) := by
  have hpos := Nat.two_pow_pos count
  rw [hlen, pow_succ]
  omega

theorem line_self (value x : F) : line value value x = value := by
  rw [line, sub_self, smul_zero, add_zero]

/-- A constant stays a constant. -/
theorem constant_fold_holds {T : Type} {table : SumcheckTable T F} {factor : T} {value : F}
    {len count : ℕ} {f : ℕ → F} (hlen : len = 2 ^ (count + 1))
    (hvalue : ∀ index, table.tableValue factor index = constantValue value len index)
    (hholds : Holds table (count + 1) factor f) (x : F) :
    Holds foldedTable count (.constant value (len / 2)) (Multilinear.fold x f) := by
  have hconstant {index : ℕ} (hindex : index < 2 ^ (count + 1)) : f index = value := by
    have hread := hholds.2 index hindex
    rw [hvalue, constantValue_eq value (hindex.trans_eq hlen.symm)] at hread
    exact (Except.ok.inj hread).symm
  refine ⟨half_length hlen, fun index hindex => ?_⟩
  rw [pow_succ] at hconstant
  rw [Multilinear.fold, hconstant (by omega), hconstant (by omega), line_self]
  exact constantValue_eq value (hindex.trans_eq (half_length hlen).symm)

omit [Field F] in
/-- A list of folded values holds the folded table. -/
theorem table_fold_holds {values : List F} {count : ℕ} {f : ℕ → F}
    (hvalues : values = (List.range (2 ^ count)).map f) : Holds foldedTable count (.table values) f := by
  subst hvalues
  refine ⟨by simp [foldedTable], fun index hindex => someOr_eq_ok.mpr ?_⟩
  simp [hindex]

/-- The first fold. -/
theorem SumcheckFactor.fold_holds (memory : ℕ → F) {factor : SumcheckFactor F} {count : ℕ}
    {f : ℕ → F} (hholds : Holds (factorTable memory) (count + 1) factor f) (x : F) :
    ∃ folded, factor.fold memory x = .ok folded ∧
      Holds foldedTable count folded (Multilinear.fold x f) := by
  have hpairs : (List.range ((factorTable memory).tableLen factor / 2)).mapM (fun pair => do
      let low ← (factorTable memory).tableValue factor (pair * 2)
      let high ← (factorTable memory).tableValue factor (pair * 2 + 1)
      return low + x * (high - low)) = .ok ((List.range (2 ^ count)).map (Multilinear.fold x f)) := by
    rw [half_length hholds.1]
    refine mapM_eq_ok fun pair hpair => ?_
    have hlt := List.mem_range.mp hpair
    have hread := hholds.2
    rw [pow_succ] at hread
    refine Except.bind_eq_ok.mpr ⟨_, hread (pair * 2) (by omega), Except.bind_eq_ok.mpr
      ⟨_, hread (pair * 2 + 1) (by omega), ?_⟩⟩
    rw [mul_comm pair]
    rfl
  have hlength := not_odd_length hholds.1
  have htable (hfold : factor.fold memory x = (do
      rejectIf ((factorTable memory).tableLen factor < 2 ∨
        (factorTable memory).tableLen factor % 2 ≠ 0) .foldingShape
      let values ← (List.range ((factorTable memory).tableLen factor / 2)).mapM (fun pair => do
        let low ← (factorTable memory).tableValue factor (pair * 2)
        let high ← (factorTable memory).tableValue factor (pair * 2 + 1)
        return low + x * (high - low))
      return .table values)) :
      ∃ folded, factor.fold memory x = .ok folded ∧
        Holds foldedTable count folded (Multilinear.fold x f) :=
    ⟨_, hfold.trans (Except.check_eq_ok.mpr ⟨rejectIf_eq_ok.mpr hlength,
      Except.bind_eq_ok.mpr ⟨_, hpairs, rfl⟩⟩), table_fold_holds rfl⟩
  cases factor with
  | values source => exact htable rfl
  | affine source scale offset => exact htable rfl
  | constant value len =>
    exact ⟨_, Except.check_eq_ok.mpr ⟨rejectIf_eq_ok.mpr hlength, rfl⟩,
      constant_fold_holds hholds.1 (fun _ => rfl) hholds x⟩
  | linearCombination sources indexScale offset len => exact htable rfl

/-- The folds after the first. -/
theorem FoldedFactor.fold_holds {factor : FoldedFactor F} {count : ℕ} {f : ℕ → F}
    (hholds : Holds foldedTable (count + 1) factor f) (x : F) :
    ∃ folded, factor.fold x = .ok folded ∧
      Holds foldedTable count folded (Multilinear.fold x f) := by
  cases factor with
  | table values =>
    have hlength : values.length = 2 ^ (count + 1) := hholds.1
    refine ⟨_, Except.bind_eq_ok.mpr ⟨_, ProductSumcheck.fold_eq hlength x, rfl⟩,
      table_fold_holds ?_⟩
    have hfolded := length_foldPairs_of_pow hlength x
    refine List.ext_getElem (by simp [hfolded]) fun index hindex hindex' => ?_
    have hlt : index < 2 ^ count := hfolded ▸ hindex
    have hread {index : ℕ} (hindex : index < 2 ^ (count + 1)) : tableOf values index = f index := by
      have hvalue := someOr_eq_ok.mp (hholds.2 index hindex)
      rw [tableOf, List.getD_eq_getElem?_getD, hvalue]
      rfl
    rw [pow_succ] at hread
    rw [← tableOf_eq hindex, tableOf_foldPairs x (hlength ▸ pow_succ_mod_two _), List.getElem_map,
      List.getElem_range, Multilinear.fold, Multilinear.fold, hread (by omega), hread (by omega)]
  | constant value len =>
    exact ⟨_, Except.check_eq_ok.mpr ⟨rejectIf_eq_ok.mpr (not_odd_length hholds.1), rfl⟩,
      constant_fold_holds hholds.1 (fun _ => rfl) hholds x⟩

end SumOfProductsSumcheck

end Zksm83
