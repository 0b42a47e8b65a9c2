import Mathlib.Data.List.GetD
import Zksm83.Sumcheck.SumOfProducts

/-!
# The honest run of a sum of products

The prover of a sum of products makes the honest run of the tables that its factors stand for, and
the verifier accepts that run. Read `proveSharedFirst_eq` first. After `sumcheck.rs` and
`sumcheck/rounds.rs`.
-/

namespace Zksm83

open Finset Sumcheck
open Multilinear (extension line)

namespace SumOfProductsSumcheck

variable {F : Type} [Field F]

/-! ## Rows of tables -/

/-- The tables that a round stands for, row by row. -/
def rowsOf (shared : ℕ → F) (functions : List (List (ℕ → F))) (index : ℕ) : F × (ℕ → ℕ → F) :=
  (shared index, fun term factor => (functions.getD term []).getD factor 0 index)

/-- The terms hold lists of tables. -/
abbrev TermsHold {T : Type} (table : SumcheckTable T F) (count : ℕ) :
    List (List T) → List (List (ℕ → F)) → Prop :=
  List.Forall₂ (List.Forall₂ (Holds table count))

/-- The sum of the products of all terms, in one row. -/
def termValue (functions : List (List (ℕ → F))) (index : ℕ) : F :=
  (functions.map (fun term => (term.map (fun f => f index)).prod)).sum

section Rounds

variable {T : Type} {table : SumcheckTable T F} {count index : ℕ}

theorem productAt_eq {factors : List T} {functions : List (ℕ → F)}
    (hfactors : List.Forall₂ (Holds table count) factors functions) (hindex : index < 2 ^ count) :
    productAt table factors index = .ok (functions.map (fun f => f index)).prod := by
  have hgeneral (start : F) : factors.foldlM (fun product factor => do
      let value ← table.tableValue factor index
      return product * value) start =
      (.ok (start * (functions.map (fun f => f index)).prod) : Except ProductSumcheckError F) := by
    induction hfactors generalizing start with
    | nil =>
      rw [List.map_nil, List.prod_nil, mul_one]
      rfl
    | cons hholds _ ih =>
      rw [List.foldlM_cons, List.map_cons, List.prod_cons, ← mul_assoc]
      exact Except.bind_eq_ok.mpr
        ⟨_, Except.bind_eq_ok.mpr ⟨_, hholds.2 index hindex, rfl⟩, ih _⟩
  rw [productAt, hgeneral, one_mul]

theorem termSumAt_eq {terms : List (List T)} {functions : List (List (ℕ → F))}
    (hterms : TermsHold table count terms functions) (hindex : index < 2 ^ count) :
    termSumAt table terms index = .ok (termValue functions index) := by
  have hgeneral (start : F) : terms.foldlM (fun sum factors => do
      let product ← productAt table factors index
      return sum + product) start =
      (.ok (start + termValue functions index) : Except ProductSumcheckError F) := by
    induction hterms generalizing start with
    | nil =>
      rw [termValue, List.map_nil, List.sum_nil, add_zero]
      rfl
    | cons hfactors _ ih =>
      rw [List.foldlM_cons, termValue, List.map_cons, List.sum_cons, ← add_assoc, ← termValue]
      exact Except.bind_eq_ok.mpr
        ⟨_, Except.bind_eq_ok.mpr ⟨_, productAt_eq hfactors hindex, rfl⟩, ih _⟩
  rw [termSumAt, hgeneral, zero_add]

theorem nodeValue_eq {points : List F} {evaluationCount node : ℕ}
    (hpoints : points = interpolationPoints evaluationCount) (hnode : node < evaluationCount)
    (zero one : F) : nodeValue points zero one node = line zero one (node : F) := by
  match node with
  | 0 => simp [nodeValue]
  | 1 => simp [nodeValue]
  | node + 2 =>
    have hpoint : points.getD (node + 2) 0 = ((node + 2 : ℕ) : F) := by
      subst hpoints
      simp [interpolationPoints, hnode]
    show zero + points.getD (node + 2) 0 * (one - zero) = _
    rw [hpoint, line, smul_eq_mul]

/-- The values at all nodes, as a list. -/
abbrev atNodes (evaluationCount : ℕ) (f : ℕ → F) : List F := (List.range evaluationCount).map f

omit [Field F] in
theorem mapIdx_atNodes (evaluationCount : ℕ) (f : ℕ → F) (g : ℕ → F → F) :
    (atNodes evaluationCount f).mapIdx g = atNodes evaluationCount (fun node => g node (f node)) := by
  refine List.ext_getElem (by simp) fun node hnode hnode' => ?_
  simp

omit [Field F] in
theorem atNodes_congr {evaluationCount : ℕ} {f g : ℕ → F}
    (hagree : ∀ node < evaluationCount, f node = g node) :
    atNodes evaluationCount f = atNodes evaluationCount g :=
  List.map_congr_left fun node hnode => hagree node (List.mem_range.mp hnode)

variable {evaluationCount pair : ℕ}

/-- The products of a term at all nodes. -/
theorem accumulateFactors_eq {factors : List T} {functions : List (ℕ → F)}
    (hfactors : List.Forall₂ (Holds table (count + 1)) factors functions) (hpair : pair < 2 ^ count)
    (f : ℕ → F) :
    accumulateFactors table factors pair (interpolationPoints evaluationCount)
        (atNodes evaluationCount f) =
      .ok (atNodes evaluationCount (fun node => f node *
        (functions.map (fun g => Multilinear.fold (node : F) g pair)).prod)) := by
  have hlow : pair * 2 < 2 ^ (count + 1) := by
    rw [pow_succ]
    omega
  have hhigh : pair * 2 + 1 < 2 ^ (count + 1) := by
    rw [pow_succ]
    omega
  induction hfactors generalizing f with
  | nil => simp [accumulateFactors, pure, Except.pure]
  | @cons factor g factors functions hholds _ ih =>
    have hstep : (do
        let zero ← table.tableValue factor (pair * 2)
        let one ← table.tableValue factor (pair * 2 + 1)
        return (atNodes evaluationCount f).mapIdx (fun index product =>
          product * nodeValue (interpolationPoints evaluationCount) zero one index) :
        Except ProductSumcheckError (List F)) =
        .ok (atNodes evaluationCount (fun node =>
          f node * Multilinear.fold (node : F) g pair)) := by
      refine Except.bind_eq_ok.mpr ⟨_, hholds.2 _ hlow, Except.bind_eq_ok.mpr
        ⟨_, hholds.2 _ hhigh, congrArg Except.ok ?_⟩⟩
      rw [mapIdx_atNodes]
      refine atNodes_congr fun node hnode => ?_
      rw [nodeValue_eq rfl hnode, Multilinear.fold, mul_comm pair]
    have hrest := ih (fun node => f node * Multilinear.fold (node : F) g pair)
    simp only [List.map_cons, List.prod_cons, ← mul_assoc]
    exact Except.bind_eq_ok.mpr ⟨_, hstep, hrest⟩

/-- What a pair of rows adds to the evaluation at a node. -/
def pairValue (shared : ℕ → F) (functions : List (List (ℕ → F))) (node pair : ℕ) : F :=
  Multilinear.fold (node : F) shared pair *
    (functions.map (fun term =>
      (term.map (fun g => Multilinear.fold (node : F) g pair)).prod)).sum

/-- The loop over the terms of a pair of rows. -/
theorem accumulateTerms_eq {terms : List (List T)} {functions : List (List (ℕ → F))}
    (hterms : TermsHold table (count + 1) terms functions) (hpair : pair < 2 ^ count)
    (zero one : F) (f : ℕ → F) {products : List F} (hproducts : products.length = evaluationCount) :
    ∃ products', products'.length = evaluationCount ∧
      terms.foldlM (fun scratch factors => do
        let products ← accumulateFactors table factors pair (interpolationPoints evaluationCount)
          (List.replicate scratch.2.length 1)
        return ((scratch.1.zip products).mapIdx (fun index values => values.1 +
          nodeValue (interpolationPoints evaluationCount) zero one index * values.2), products))
        (atNodes evaluationCount f, products) =
      (.ok (atNodes evaluationCount (fun node => f node + line zero one (node : F) *
        (functions.map (fun term =>
          (term.map (fun g => Multilinear.fold (node : F) g pair)).prod)).sum), products') :
        Except ProductSumcheckError (List F × List F)) := by
  induction hterms generalizing f products with
  | nil => exact ⟨products, hproducts, by simp [pure, Except.pure]⟩
  | @cons factors term terms functions hfactors _ ih =>
    have hones : List.replicate products.length (1 : F) = atNodes evaluationCount (fun _ => 1) := by
      rw [hproducts]
      simp [atNodes]
    have hstep : accumulateFactors table factors pair (interpolationPoints evaluationCount)
        (List.replicate products.length 1) = .ok (atNodes evaluationCount (fun node =>
          (term.map (fun g => Multilinear.fold (node : F) g pair)).prod)) := by
      rw [hones, accumulateFactors_eq hfactors hpair]
      simp only [one_mul]
    have hzip (g : ℕ → F) : ((atNodes evaluationCount f).zip (atNodes evaluationCount g)).mapIdx
        (fun index values => values.1 +
          nodeValue (interpolationPoints evaluationCount) zero one index * values.2) =
        atNodes evaluationCount (fun node => f node + line zero one (node : F) * g node) := by
      refine List.ext_getElem (by simp) fun node hnode hnode' => ?_
      have hlt : node < evaluationCount := by simpa using hnode'
      simp [nodeValue_eq rfl hlt]
    have hnext : (atNodes evaluationCount (fun node =>
        (term.map (fun g => Multilinear.fold (node : F) g pair)).prod)).length =
        evaluationCount := by simp
    obtain ⟨products', hlength, hrest⟩ := ih (fun node => f node + line zero one (node : F) *
      (term.map (fun g => Multilinear.fold (node : F) g pair)).prod) hnext
    refine ⟨products', hlength, ?_⟩
    simp only [List.map_cons, List.sum_cons, mul_add, ← add_assoc]
    refine Except.bind_eq_ok.mpr ⟨_, Except.bind_eq_ok.mpr ⟨_, hstep, rfl⟩, ?_⟩
    simp only [hzip]
    exact hrest

/-- A pair of rows adds its value at every node. -/
theorem accumulateSharedPair_eq {shared : T} {sharedFunction : ℕ → F}
    (hshared : Holds table (count + 1) shared sharedFunction) {terms : List (List T)}
    {functions : List (List (ℕ → F))} (hterms : TermsHold table (count + 1) terms functions)
    (hpair : pair < 2 ^ count) (hcount : 2 ≤ evaluationCount) (f : ℕ → F) {products : List F}
    (hproducts : products.length = evaluationCount) :
    ∃ products', products'.length = evaluationCount ∧
      accumulateSharedPair table shared terms pair (interpolationPoints evaluationCount)
        (atNodes evaluationCount f) products = .ok (atNodes evaluationCount (fun node =>
          f node + pairValue sharedFunction functions node pair), products') := by
  have hlow : pair * 2 < 2 ^ (count + 1) := by
    rw [pow_succ]
    omega
  have hhigh : pair * 2 + 1 < 2 ^ (count + 1) := by
    rw [pow_succ]
    omega
  have hshape : ¬ ((interpolationPoints (F := F) evaluationCount).length ≠
      (atNodes evaluationCount f).length ∨
      (interpolationPoints (F := F) evaluationCount).length ≠ products.length ∨
      (interpolationPoints (F := F) evaluationCount).length < 2) := by
    simp only [interpolationPoints, List.length_map, List.length_range, hproducts]
    omega
  obtain ⟨products', hlength, hloop⟩ := accumulateTerms_eq hterms hpair
    (sharedFunction (pair * 2)) (sharedFunction (pair * 2 + 1)) f hproducts
  refine ⟨products', hlength, Except.check_eq_ok.mpr ⟨rejectIf_eq_ok.mpr hshape,
    Except.bind_eq_ok.mpr ⟨_, hshared.2 _ hlow, Except.bind_eq_ok.mpr
      ⟨_, hshared.2 _ hhigh, ?_⟩⟩⟩⟩
  rw [mul_comm pair] at hloop ⊢
  exact hloop

/-- The loop over the pairs of rows. -/
theorem accumulatePairs_eq {shared : T} {sharedFunction : ℕ → F}
    (hshared : Holds table (count + 1) shared sharedFunction) {terms : List (List T)}
    {functions : List (List (ℕ → F))} (hterms : TermsHold table (count + 1) terms functions)
    (hcount : 2 ≤ evaluationCount) {pairs : ℕ} (hpairs : pairs ≤ 2 ^ count) :
    ∃ products', products'.length = evaluationCount ∧
      (List.range pairs).foldlM (fun scratch pairIndex => accumulateSharedPair table shared terms
        pairIndex (interpolationPoints evaluationCount) scratch.1 scratch.2)
        (List.replicate evaluationCount 0, List.replicate evaluationCount 1) =
      .ok (atNodes evaluationCount (fun node =>
        ∑ pair ∈ range pairs, pairValue sharedFunction functions node pair), products') := by
  induction pairs with
  | zero =>
    refine ⟨List.replicate evaluationCount 1, by simp, ?_⟩
    have hzeros : atNodes evaluationCount (fun node => ∑ pair ∈ range 0,
        pairValue sharedFunction functions node pair) = List.replicate evaluationCount 0 := by
      simp [atNodes]
    rw [hzeros]
    rfl
  | succ pairs ih =>
    obtain ⟨products, hproducts, hbefore⟩ := ih (Nat.le_of_succ_le hpairs)
    obtain ⟨products', hlength, hlast⟩ := accumulateSharedPair_eq hshared hterms
      (Nat.lt_of_succ_le hpairs) hcount
      (fun node => ∑ pair ∈ range pairs, pairValue sharedFunction functions node pair) hproducts
    refine ⟨products', hlength, ?_⟩
    rw [List.range_succ, List.foldlM_append]
    refine Except.bind_eq_ok.mpr ⟨_, hbefore, Except.bind_eq_ok.mpr ⟨_, hlast, ?_⟩⟩
    simp only [sum_range_succ]
    rfl

end Rounds

/-- The tables of all terms with their first coordinate fixed. -/
def foldFunctions (x : F) (functions : List (List (ℕ → F))) : List (List (ℕ → F)) :=
  functions.map (fun term => term.map (Multilinear.fold x))

theorem fold_rowsOf (x : F) (shared : ℕ → F) (functions : List (List (ℕ → F))) :
    Multilinear.fold x (rowsOf shared functions) =
      rowsOf (Multilinear.fold x shared) (foldFunctions x functions) := by
  have hzero : Multilinear.fold x (0 : ℕ → F) = 0 := by
    funext index
    simp [Multilinear.fold, line]
  have hentry (term factor : ℕ) : ((foldFunctions x functions).getD term []).getD factor 0 =
      Multilinear.fold x ((functions.getD term []).getD factor 0) := by
    have hterm : (foldFunctions x functions).getD term [] =
        (functions.getD term []).map (Multilinear.fold x) :=
      List.getD_map functions [] (fun list : List (ℕ → F) => list.map (Multilinear.fold x))
    have hfactor := List.getD_map (functions.getD term []) 0 (Multilinear.fold x) (n := factor)
    rw [hzero] at hfactor
    rw [hterm, hfactor]
  funext index
  refine Prod.ext rfl ?_
  funext term factor
  exact (congrFun (hentry term factor) index).symm

/-- The entry of a term and a factor. -/
def entry (term factor : ℕ) : (ℕ → ℕ → F) →ₗ[F] F where
  toFun row := row term factor
  map_add' _ _ := rfl
  map_smul' _ _ := rfl

/-- The shared factor times the sum of the products of the terms. -/
noncomputable def summand (terms factors : ℕ) : Summand F (F × (ℕ → ℕ → F)) (factors + 1) :=
  (Summand.sumOfProducts (range terms) (range factors) entry (card_range factors).le).weighted

/-- The lists have the given numbers of terms and of factors. -/
def Shape (terms factors : ℕ) {α : Type} (lists : List (List α)) : Prop :=
  lists.length = terms ∧ ∀ list ∈ lists, list.length = factors

theorem summand_value {terms factors : ℕ} {functions : List (List (ℕ → F))}
    (hshape : Shape terms factors functions) (shared : ℕ → F) (index : ℕ) :
    (summand terms factors).value (rowsOf shared functions index) =
      shared index * termValue functions index := by
  obtain ⟨rfl, hfactors⟩ := hshape
  show shared index * ∑ term ∈ range functions.length, ∏ factor ∈ range factors,
    (functions.getD term []).getD factor 0 index = _
  rw [termValue, ← Fin.sum_univ_fun_getElem, sum_range]
  congr 1
  refine sum_congr rfl fun term _ => ?_
  have hmem : functions[(term : ℕ)] ∈ functions := List.getElem_mem term.isLt
  rw [← List.getElem_eq_getD [], ← hfactors _ hmem, ← Fin.prod_univ_fun_getElem, prod_range]
  exact prod_congr rfl fun factor _ => by rw [← List.getElem_eq_getD 0]

theorem shape_foldFunctions {terms factors : ℕ} {functions : List (List (ℕ → F))}
    (hshape : Shape terms factors functions) (x : F) :
    Shape terms factors (foldFunctions x functions) := by
  refine ⟨(List.length_map _).trans hshape.1, fun list hlist => ?_⟩
  obtain ⟨term, hterm, rfl⟩ := List.mem_map.mp hlist
  exact (List.length_map _).trans (hshape.2 term hterm)

theorem total_fold_rowsOf {terms factors : ℕ} {functions : List (List (ℕ → F))}
    (hshape : Shape terms factors functions) (shared : ℕ → F) (count node : ℕ) :
    (summand terms factors).total count (Multilinear.fold (node : F) (rowsOf shared functions)) =
      ∑ pair ∈ range (2 ^ count), pairValue shared functions node pair := by
  rw [fold_rowsOf, Summand.total, Multilinear.cubeSum]
  refine sum_congr rfl fun pair _ => ?_
  rw [summand_value (shape_foldFunctions hshape _), pairValue, termValue, foldFunctions,
    List.map_map]
  simp only [Function.comp_def, List.map_map]

/-! ## The prover makes the honest run -/

/-- The tables of a round over a number of coordinates, with their rows. -/
structure Stands {T : Type} (table : SumcheckTable T F) (terms factors count : ℕ)
    (tables : Tables T) (rows : ℕ → F × (ℕ → ℕ → F)) : Prop where
  length : tables.2.2 = 2 ^ count
  terms_pos : 0 < terms
  factors_pos : 0 < factors
  holds : ∃ shared functions, Holds table count tables.1 shared ∧
    TermsHold table count tables.2.1 functions ∧ Shape terms factors functions ∧
    rows = rowsOf shared functions

section Stands

variable {T : Type} {table : SumcheckTable T F} {terms factors count : ℕ}

omit [Field F] in
theorem validateTerms_eq {tableTerms : List (List T)} {functions : List (List (ℕ → F))}
    (hholds : TermsHold table count tableTerms functions) (hshape : Shape terms factors functions)
    (hterms : 0 < terms) (hfactors : 0 < factors) :
    validateTerms table tableTerms = .ok (terms, factors, 2 ^ count) := by
  have hlength : tableTerms.length = terms := hholds.length_eq.trans hshape.1
  have hall : ∀ term ∈ tableTerms, term.length = factors ∧
      ∀ factor ∈ term, table.tableLen factor = 2 ^ count := by
    intro term hterm
    obtain ⟨list, hlist, hterm⟩ := forall₂_mem hholds hterm
    refine ⟨hterm.length_eq.trans (hshape.2 list hlist), fun factor hfactor => ?_⟩
    obtain ⟨f, -, hfactor⟩ := forall₂_mem hterm hfactor
    exact hfactor.1
  obtain ⟨firstTerm, rest, rfl⟩ := List.exists_cons_of_length_pos (hlength ▸ hterms)
  obtain ⟨hfirst, hlen⟩ := hall firstTerm List.mem_cons_self
  obtain ⟨firstFactor, factorRest, rfl⟩ := List.exists_cons_of_length_pos (hfirst ▸ hfactors)
  have hfirstLen := hlen firstFactor List.mem_cons_self
  refine Except.bind_eq_ok.mpr ⟨_, rfl, Except.bind_eq_ok.mpr ⟨_, rfl, Except.check_eq_ok.mpr
    ⟨rejectIf_eq_ok.mpr ?_, Except.check_eq_ok.mpr ⟨rejectIf_eq_ok.mpr ?_, ?_⟩⟩⟩⟩
  · rw [hfirstLen]
    exact not_or.mpr ⟨(Nat.two_pow_pos count).ne', not_not_intro ⟨count, rfl⟩⟩
  · rintro ⟨term, hterm, hbad | ⟨factor, hfactor, hbad⟩⟩
    · exact hbad ((hall term hterm).1.trans hfirst.symm)
    · exact hbad (((hall term hterm).2 factor hfactor).trans hfirstLen.symm)
  · rw [hlength, hfirst, hfirstLen]
    rfl

variable {tables : Tables T} {rows : ℕ → F × (ℕ → ℕ → F)}

/-- The claim is the true sum. -/
theorem sharedSumOfTermProducts_eq (hstands : Stands table terms factors count tables rows) :
    sharedSumOfTermProducts table tables.1 tables.2.1 =
      .ok ((summand terms factors).total count rows) := by
  obtain ⟨shared, functions, hshared, hholds, hshape, rfl⟩ := hstands.holds
  refine Except.bind_eq_ok.mpr ⟨_, validateTerms_eq hholds hshape hstands.terms_pos
    hstands.factors_pos, Except.check_eq_ok.mpr
      ⟨rejectIf_eq_ok.mpr (not_not_intro hshared.1), ?_⟩⟩
  have hstep (index : ℕ) (hindex : index ∈ List.range (2 ^ count)) (sum : F) :
      (do
        let termSum ← termSumAt table tables.2.1 index
        let value ← table.tableValue tables.1 index
        return sum + value * termSum : Except ProductSumcheckError F) =
        .ok (sum + shared index * termValue functions index) := by
    have hlt := List.mem_range.mp hindex
    exact Except.bind_eq_ok.mpr ⟨_, termSumAt_eq hholds hlt, Except.bind_eq_ok.mpr
      ⟨_, hshared.2 index hlt, rfl⟩⟩
  rw [foldlM_eq_ok hstep, foldl_add (fun index => shared index * termValue functions index),
    zero_add, sum_map_range, Summand.total, Multilinear.cubeSum]
  simp only [summand_value hshape]

/-- The message of a round holds the values of the honest polynomial. -/
theorem sharedSumProductRound_eq (hstands : Stands table terms factors (count + 1) tables rows) :
    sharedSumProductRound table tables.1 tables.2.1 =
      .ok ((summand terms factors).message count rows) := by
  obtain ⟨shared, functions, hshared, hholds, hshape, rfl⟩ := hstands.holds
  have hlong : 2 ^ (count + 1) ≠ 1 := by
    have hpos := Nat.two_pow_pos count
    rw [pow_succ]
    omega
  have hhalf : 2 ^ (count + 1) / 2 = 2 ^ count := half_length rfl
  obtain ⟨products, -, hloop⟩ :=
    accumulatePairs_eq hshared hholds (Nat.le_add_left 2 factors) hhalf.le
  refine Except.bind_eq_ok.mpr ⟨_, validateTerms_eq hholds hshape hstands.terms_pos
    hstands.factors_pos, Except.check_eq_ok.mpr ⟨rejectIf_eq_ok.mpr (not_not_intro hshared.1),
      Except.check_eq_ok.mpr ⟨rejectIf_eq_ok.mpr hlong,
        Except.bind_eq_ok.mpr ⟨_, hloop, congrArg Except.ok ?_⟩⟩⟩⟩
  rw [hhalf]
  exact atNodes_congr fun node _ => (total_fold_rowsOf hshape shared count node).symm

/-- Folding all factors folds all tables. -/
theorem foldTerms_holds {fold : T → F → Except ProductSumcheckError (FoldedFactor F)}
    (hfold : ∀ {factor : T} {f : ℕ → F}, Holds table (count + 1) factor f → ∀ x, ∃ folded,
      fold factor x = .ok folded ∧ Holds foldedTable count folded (Multilinear.fold x f))
    {tableTerms : List (List T)} {functions : List (List (ℕ → F))}
    (hholds : TermsHold table (count + 1) tableTerms functions) (x : F) :
    ∃ folded, tableTerms.mapM (fun term => term.mapM (fun factor => fold factor x)) = .ok folded ∧
      TermsHold foldedTable count folded (foldFunctions x functions) := by
  have hterm {term : List T} {list : List (ℕ → F)}
      (hterm : List.Forall₂ (Holds table (count + 1)) term list) :
      ∃ folded, term.mapM (fun factor => fold factor x) = .ok folded ∧
        List.Forall₂ (Holds foldedTable count) folded (list.map (Multilinear.fold x)) := by
    induction hterm with
    | nil => exact ⟨[], rfl, .nil⟩
    | cons hhead _ ih =>
      obtain ⟨folded, hfolded, hhead⟩ := hfold hhead x
      obtain ⟨rest, hrest, htail⟩ := ih
      refine ⟨folded :: rest, ?_, .cons hhead htail⟩
      rw [List.mapM_cons]
      exact Except.bind_eq_ok.mpr ⟨_, hfolded, Except.bind_eq_ok.mpr ⟨_, hrest, rfl⟩⟩
  induction hholds with
  | nil => exact ⟨[], rfl, .nil⟩
  | cons hhead _ ih =>
    obtain ⟨folded, hfolded, hhead⟩ := hterm hhead
    obtain ⟨rest, hrest, htail⟩ := ih
    refine ⟨folded :: rest, ?_, .cons hhead htail⟩
    rw [List.mapM_cons]
    exact Except.bind_eq_ok.mpr ⟨_, hfolded, Except.bind_eq_ok.mpr ⟨_, hrest, rfl⟩⟩

/-- A round computes the honest message and folds all factors, whatever they are stored as. -/
theorem round_represents {fold : T → F → Except ProductSumcheckError (FoldedFactor F)}
    (hfold : ∀ {count : ℕ} {factor : T} {f : ℕ → F}, Holds table (count + 1) factor f → ∀ x,
      ∃ folded, fold factor x = .ok folded ∧
        Holds foldedTable count folded (Multilinear.fold x f)) :
    RoundRepresents (summand (F := F) terms factors) id (Stands table terms factors)
      (Stands foldedTable terms factors)
      (fun tables => sharedSumProductRound table tables.1 tables.2.1)
      (fun _ => foldTables fold) := by
  intro count tables rows hstands
  refine ⟨_, sharedSumProductRound_eq hstands, rfl, fun x => ?_⟩
  obtain ⟨shared, functions, hshared, hholds, hshape, rfl⟩ := hstands.holds
  obtain ⟨folded, hfolded, hsharedFolded⟩ := hfold hshared x
  obtain ⟨rest, hrest, htermsFolded⟩ := foldTerms_holds hfold hholds x
  refine ⟨_, Except.bind_eq_ok.mpr ⟨_, hfolded, Except.bind_eq_ok.mpr ⟨_, hrest, rfl⟩⟩, ?_⟩
  exact {
    length := half_length hstands.length
    terms_pos := hstands.terms_pos
    factors_pos := hstands.factors_pos
    holds := ⟨_, _, hsharedFolded, htermsFolded, shape_foldFunctions hshape x,
      fold_rowsOf x shared functions⟩ }

theorem more_eq {tables : Tables T} {rows : ℕ → F × (ℕ → ℕ → F)}
    (hstands : Stands table terms factors count tables rows) :
    decide (1 < tables.2.2) = decide (0 < count) ∧ count ≤ tables.2.2 := by
  rw [hstands.length]
  refine ⟨decide_eq_decide.mpr ?_, Nat.lt_two_pow_self.le⟩
  rw [Nat.one_lt_two_pow_iff, Nat.pos_iff_ne_zero]

/-- The values of the factors of each term in the first row, behind the shared value. -/
def firstRow (sharedValue : F) (functions : List (List (ℕ → F))) : List (List F) :=
  functions.map (fun list => sharedValue :: list.map (fun f => f 0))

omit [Field F] in
/-- The values of the terms in the first row. -/
theorem finalTerms_eq {tableTerms : List (List T)} {functions : List (List (ℕ → F))}
    (hholds : TermsHold table 0 tableTerms functions) (sharedValue : F) :
    tableTerms.mapM (fun term => do
      let factors ← term.mapM (fun factor => table.tableValue factor 0)
      return sharedValue :: factors) = .ok (firstRow sharedValue functions) := by
  have hterm {term : List T} {list : List (ℕ → F)}
      (hterm : List.Forall₂ (Holds table 0) term list) :
      term.mapM (fun factor => table.tableValue factor 0) = .ok (list.map (fun f => f 0)) := by
    induction hterm with
    | nil => rfl
    | cons hhead _ ih =>
      rw [List.mapM_cons]
      exact Except.bind_eq_ok.mpr ⟨_, hhead.2 0 (by norm_num), Except.bind_eq_ok.mpr ⟨_, ih, rfl⟩⟩
  induction hholds with
  | nil => rfl
  | cons hhead _ ih =>
    rw [List.mapM_cons]
    exact Except.bind_eq_ok.mpr ⟨_, Except.bind_eq_ok.mpr ⟨_, hterm hhead, rfl⟩,
      Except.bind_eq_ok.mpr ⟨_, ih, rfl⟩⟩

/-- Lists of one shape are determined by their entries. -/
theorem firstRow_ext {sharedValue : F} {functions functions' : List (List (ℕ → F))}
    (hshape : Shape terms factors functions) (hshape' : Shape terms factors functions')
    (hentries : ∀ term < terms, ∀ factor < factors,
      (functions.getD term []).getD factor 0 0 = (functions'.getD term []).getD factor 0 0) :
    firstRow sharedValue functions = firstRow sharedValue functions' := by
  refine List.ext_getElem (by simp [firstRow, hshape.1, hshape'.1]) fun term hterm hterm' => ?_
  simp only [firstRow, List.length_map] at hterm hterm'
  have hfirst := hshape.2 _ (List.getElem_mem hterm)
  have hsecond := hshape'.2 _ (List.getElem_mem hterm')
  simp only [firstRow, List.getElem_map, List.cons.injEq, true_and]
  refine List.ext_getElem (by simp [hfirst, hsecond]) fun factor hfactor hfactor' => ?_
  rw [List.length_map] at hfactor hfactor'
  have hentry := hentries term (hshape.1 ▸ hterm) factor (hfirst ▸ hfactor)
  rw [List.getElem_map, List.getElem_map]
  rwa [← List.getElem_eq_getD [], ← List.getElem_eq_getD [], ← List.getElem_eq_getD 0,
    ← List.getElem_eq_getD 0] at hentry

/-- The tables of all terms, folded at all coordinates. -/
theorem foldAll_rowsOf (point : List F) (shared : ℕ → F) (functions : List (List (ℕ → F))) :
    Multilinear.foldAll point (rowsOf shared functions) =
      rowsOf (Multilinear.foldAll point shared)
        (functions.map (fun list => list.map (Multilinear.foldAll point))) := by
  induction point generalizing shared functions with
  | nil =>
    show rowsOf shared functions = rowsOf shared (functions.map (fun list => list.map id))
    simp
  | cons x point ih =>
    rw [Multilinear.foldAll_cons, fold_rowsOf, ih, foldFunctions, List.map_map]
    simp only [Function.comp_def, List.map_map]
    rfl

/-- The last tables hold the values of the extensions. -/
theorem finishSharedSumOfProducts_eq (transcript : AkitaTranscript F) {shared : ℕ → F}
    {functions : List (List (ℕ → F))} (hshape : Shape terms factors functions) {point : List F}
    (hstands : Stands table terms factors 0 tables
      (Multilinear.foldAll point (rowsOf shared functions)))
    (rounds : List (List F)) (claim : F) (challenges : List F) (state : transcript.State) :
    let finalTerms := functions.map (fun list =>
      extension point shared :: list.map (extension point))
    finishSharedSumOfProducts transcript table tables.1 tables.2.1 rounds claim challenges state =
      .ok ((⟨rounds, finalTerms⟩, claim, challenges),
        absorbTermFinals transcript finalTerms state) := by
  obtain ⟨shared', functions', hshared, hholds, hshape', hrows⟩ := hstands.holds
  rw [foldAll_rowsOf] at hrows
  have hrow := congrFun hrows 0
  have hvalue : shared' 0 = extension point shared := by
    rw [← Multilinear.foldAll_zero]
    exact (congrArg Prod.fst hrow).symm
  have hfolded : Shape terms factors
      (functions.map (fun list => list.map (Multilinear.foldAll point))) := by
    refine ⟨(List.length_map _).trans hshape.1, fun list hlist => ?_⟩
    obtain ⟨term, hterm, rfl⟩ := List.mem_map.mp hlist
    exact (List.length_map _).trans (hshape.2 term hterm)
  have hfinal : firstRow (shared' 0) functions' =
      functions.map (fun list => extension point shared :: list.map (extension point)) := by
    rw [hvalue, ← firstRow_ext hfolded hshape' fun term _ factor _ =>
      congrFun (congrFun (congrArg Prod.snd hrow) term) factor]
    simp only [firstRow, List.map_map, Function.comp_def, Multilinear.foldAll_zero]
  intro finalTerms
  refine Except.bind_eq_ok.mpr ⟨_, hshared.2 0 (by norm_num), Except.bind_eq_ok.mpr
    ⟨_, finalTerms_eq hholds _, ?_⟩⟩
  rw [hfinal]
  rfl

end Stands

/-! ## The prover -/

/-- Terms of equally many factors over a number of coordinates, all of which begin with the same
table in memory. -/
structure SharedTerms (count factors : ℕ) (terms : List (List (SumcheckFactor F))) : Prop where
  nonempty : terms ≠ []
  factors_eq : ∀ term ∈ terms, term.length = factors + 1
  spans : ∀ term ∈ terms, ∀ factor ∈ term, factor.Spans count
  shared : ∃ slice, ∀ term ∈ terms, ∃ source rest,
    term = SumcheckFactor.values source :: rest ∧ source.slice = slice

section Prover

variable (memory : ℕ → F) (terms : List (List (SumcheckFactor F)))

/-- The table of the shared factor. -/
def sharedFunction : ℕ → F := ((terms.headD []).headD (.constant 0 0)).value memory

/-- The tables of the other factors of each term. -/
def otherFunctions : List (List (ℕ → F)) :=
  terms.map (fun term => term.tail.map (SumcheckFactor.value memory))

variable {memory terms} {count factors : ℕ}

theorem SharedTerms.head_value (memory : ℕ → F) (hterms : SharedTerms count factors terms)
    {term : List (SumcheckFactor F)} (hterm : term ∈ terms) :
    term.map (SumcheckFactor.value memory) =
      sharedFunction memory terms :: term.tail.map (SumcheckFactor.value memory) := by
  obtain ⟨slice, hshared⟩ := hterms.shared
  obtain ⟨first, rest, rfl⟩ := List.exists_cons_of_ne_nil hterms.nonempty
  obtain ⟨source, factors', rfl, hsource⟩ := hshared first List.mem_cons_self
  obtain ⟨source', factors'', rfl, hsource'⟩ := hshared term hterm
  have hsame : (SumcheckFactor.values source').value memory =
      (SumcheckFactor.values source).value memory := by
    funext index
    simp only [SumcheckFactor.value, hsource, hsource']
  rw [List.map_cons, hsame]
  rfl

theorem SharedTerms.split (hterms : SharedTerms count factors terms) :
    ∃ shared, splitSharedFirst terms = .ok (shared, terms.map List.tail) ∧
      Holds (factorTable memory) count shared (sharedFunction memory terms) := by
  obtain ⟨slice, hshared⟩ := hterms.shared
  obtain ⟨first, rest, rfl⟩ := List.exists_cons_of_ne_nil hterms.nonempty
  obtain ⟨source, factors', rfl, hsource⟩ := hshared first List.mem_cons_self
  have hspans := hterms.spans _ List.mem_cons_self _ List.mem_cons_self
  refine ⟨.values source, Except.bind_eq_ok.mpr ⟨rest.map List.tail, mapM_eq_ok ?_, rfl⟩,
    SumcheckFactor.holds memory hspans⟩
  intro term hterm
  obtain ⟨source', factors'', rfl, hsource'⟩ := hshared term (List.mem_cons_of_mem _ hterm)
  have hsame : (SumcheckFactor.values source).sameTable (SumcheckFactor.values source' :
      SumcheckFactor F) = true := decide_eq_true (hsource.trans hsource'.symm)
  exact Except.check_eq_ok.mpr ⟨rejectIf_eq_ok.mpr (by simp [hsame]), rfl⟩

theorem SharedTerms.shape_otherFunctions (hterms : SharedTerms count factors terms) :
    Shape terms.length factors (otherFunctions memory terms) := by
  refine ⟨List.length_map _, fun list hlist => ?_⟩
  obtain ⟨term, hterm, rfl⟩ := List.mem_map.mp hlist
  rw [List.length_map, List.length_tail, hterms.factors_eq term hterm, Nat.add_sub_cancel]

theorem SharedTerms.stands (hterms : SharedTerms count factors terms) (hfactors : 0 < factors)
    {shared : SumcheckFactor F}
    (hshared : Holds (factorTable memory) count shared (sharedFunction memory terms)) :
    Stands (factorTable memory) terms.length factors count
      (shared, terms.map List.tail, 2 ^ count)
      (rowsOf (sharedFunction memory terms) (otherFunctions memory terms)) where
  length := rfl
  terms_pos := List.length_pos_of_ne_nil hterms.nonempty
  factors_pos := hfactors
  holds := by
    refine ⟨_, _, hshared, ?_, hterms.shape_otherFunctions, rfl⟩
    show List.Forall₂ (List.Forall₂ _) (terms.map List.tail) (otherFunctions memory terms)
    unfold otherFunctions
    rw [List.forall₂_map_left_iff, List.forall₂_map_right_iff, List.forall₂_same]
    intro term hterm
    rw [List.forall₂_map_right_iff, List.forall₂_same]
    exact fun factor hfactor =>
      SumcheckFactor.holds memory (hterms.spans term hterm factor (List.mem_of_mem_tail hfactor))

variable (transcript : AkitaTranscript F)

/-- The honest run of the terms. -/
noncomputable def run (memory : ℕ → F) (terms : List (List (SumcheckFactor F)))
    (factors count : ℕ) (state : transcript.State) :
    List (List F) × List F × transcript.State :=
  honestRun (channel transcript) (summand terms.length factors) count 0
    (rowsOf (sharedFunction memory terms) (otherFunctions memory terms)) state

/-- The extensions of all factors at a point. -/
def extensions (memory : ℕ → F) (terms : List (List (SumcheckFactor F))) (point : List F) :
    List (List F) :=
  terms.map (fun term => term.map (fun factor => extension point (factor.value memory)))

theorem SharedTerms.extensions_eq (hterms : SharedTerms count factors terms) (point : List F) :
    (otherFunctions memory terms).map (fun list =>
      extension point (sharedFunction memory terms) :: list.map (extension point)) =
      extensions memory terms point := by
  rw [otherFunctions, List.map_map]
  refine List.map_congr_left fun term hterm => ?_
  have hhead := congrArg (List.map (extension point)) (hterms.head_value memory hterm)
  rw [List.map_map] at hhead
  exact hhead.symm

/-- The prover makes the honest run of the tables that the factors stand for. -/
theorem proveSharedFirst_eq (hterms : SharedTerms count factors terms) (hfactors : 0 < factors)
    (state : transcript.State) :
    let run := run transcript memory terms factors count state
    proveSharedFirst transcript memory terms state =
      .ok ((⟨run.1, extensions memory terms run.2.1⟩, (summand terms.length factors).total count
        (rowsOf (sharedFunction memory terms) (otherFunctions memory terms)), run.2.1),
        absorbTermFinals transcript (extensions memory terms run.2.1) run.2.2) := by
  intro run
  obtain ⟨shared, hsplit, hshared⟩ := @SharedTerms.split F _ memory terms count factors hterms
  have hstands := hterms.stands hfactors hshared
  obtain ⟨_, _, _, hholds, hshape, _⟩ := hstands.holds
  have hvalid := validateTerms_eq hholds hshape hstands.terms_pos hstands.factors_pos
  have hclaim := sharedSumOfTermProducts_eq hstands
  have hvariables : ProductSumcheck.variableCount (2 ^ count) = .ok (2 ^ count).log2 :=
    Except.check_eq_ok.mpr ⟨rejectIf_eq_ok.mpr (not_or.mpr
      ⟨(Nat.two_pow_pos count).ne', not_not_intro ⟨count, rfl⟩⟩), rfl⟩
  have hall : Shape terms.length factors (otherFunctions memory terms) :=
    hterms.shape_otherFunctions
  refine Except.bind_eq_ok.mpr ⟨_, hsplit, Except.bind_eq_ok.mpr ⟨_, hvalid, Except.check_eq_ok.mpr
    ⟨rejectIf_eq_ok.mpr (not_not_intro hshared.1), Except.bind_eq_ok.mpr ⟨_, hclaim,
      Except.bind_eq_ok.mpr ⟨_, hvariables, ?_⟩⟩⟩⟩⟩
  rw [← hterms.extensions_eq]
  cases count with
  | zero =>
    rw [if_pos (pow_zero 2)]
    have hlast : Stands (factorTable memory) terms.length factors 0
        (shared, terms.map List.tail, 2 ^ 0) (Multilinear.foldAll ([] : List F)
          (rowsOf (sharedFunction memory terms) (otherFunctions memory terms))) := hstands
    exact finishSharedSumOfProducts_eq transcript hall hlast [] _ [] state
  | succ count =>
    have hlong : 2 ^ (count + 1) ≠ 1 := by
      have hpos := Nat.two_pow_pos count
      rw [pow_succ]
      omega
    obtain ⟨rounds, ⟨shared', tableTerms, length⟩, hrun, hrounds, hlast⟩ :=
      proveFrom_eq (channel transcript) (fun count _ _ htables => more_eq htables)
        (round_represents (fun hholds x => SumcheckFactor.fold_holds memory hholds x))
        (round_represents (fun hholds x => FoldedFactor.fold_holds hholds x)) hstands state
    rw [if_neg hlong]
    rw [List.map_id] at hrounds
    refine Except.bind_eq_ok.mpr ⟨_, hrun, ?_⟩
    subst hrounds
    exact finishSharedSumOfProducts_eq transcript hall hlast _ _ _ _

end Prover

/-! ## The verifier -/

theorem terminalTermSum_eq (terms : List (List F)) :
    terminalTermSum terms = (terms.map List.prod).sum := by
  have hprod (term : List F) : term.foldl (fun product factor => product * factor) 1 = term.prod :=
    List.prod_eq_foldl.symm
  simp only [terminalTermSum, hprod]
  exact List.sum_eq_foldl.symm

section Verifier

variable [DecidableEq F] {transcript : AkitaTranscript F} {memory : ℕ → F}
  {terms : List (List (SumcheckFactor F))} {count factors : ℕ}

/-- The verifier accepts the honest run, and derives the same challenges. -/
theorem verify_honest (hterms : SharedTerms count factors terms)
    (hnodes : DistinctNodes F (factors + 2)) (state : transcript.State) :
    let run := run transcript memory terms factors count state
    let finalTerms := extensions memory terms run.2.1
    verify transcript ⟨run.1, finalTerms⟩ ((summand terms.length factors).total count
        (rowsOf (sharedFunction memory terms) (otherFunctions memory terms))) count terms.length
        (factors + 1) state =
      .ok (run.2.1, absorbTermFinals transcript finalTerms run.2.2) := by
  intro run finalTerms
  have hlength := (length_honestRun (channel transcript) (summand terms.length factors) count 0
    (rowsOf (sharedFunction memory terms) (otherFunctions memory terms)) state).1
  have hreplay := replay_honestRun (channel transcript) (checkRound_verifies factors)
    (summand terms.length factors) hnodes count 0
    (rowsOf (sharedFunction memory terms) (otherFunctions memory terms)) state
  have hshape : validateShape ⟨run.1, finalTerms⟩ count terms.length (factors + 1) = .ok () := by
    refine rejectIf_eq_ok.mpr ?_
    rintro (hbad | hbad | ⟨term, hterm, hbad⟩ | ⟨round, hround, hbad⟩)
    · exact hbad hlength
    · exact hbad (List.length_map _)
    · obtain ⟨term, hmem, rfl⟩ := List.mem_map.mp hterm
      exact hbad ((List.length_map _).trans (hterms.factors_eq term hmem))
    · exact hbad (length_of_mem_honestRun _ _ hround)
  have hterminal : (summand terms.length factors).value (extension run.2.1
      (rowsOf (sharedFunction memory terms) (otherFunctions memory terms))) =
      terminalTermSum finalTerms := by
    have hfolded : Shape terms.length factors ((otherFunctions memory terms).map
        (fun list => list.map (Multilinear.foldAll run.2.1))) := by
      refine ⟨(List.length_map _).trans hterms.shape_otherFunctions.1, fun list hlist => ?_⟩
      obtain ⟨term, hterm, rfl⟩ := List.mem_map.mp hlist
      exact (List.length_map _).trans (hterms.shape_otherFunctions.2 term hterm)
    rw [terminalTermSum_eq, ← Multilinear.foldAll_zero, foldAll_rowsOf, summand_value hfolded,
      termValue, ← List.sum_map_mul_left]
    show _ = ((extensions memory terms run.2.1).map List.prod).sum
    rw [← hterms.extensions_eq]
    simp only [List.map_map, Function.comp_def, Multilinear.foldAll_zero, List.prod_cons]
  exact Except.check_eq_ok.mpr ⟨hshape, Except.bind_eq_ok.mpr ⟨_, hreplay, Except.check_eq_ok.mpr
    ⟨rejectIf_eq_ok.mpr (not_not_intro hterminal), rfl⟩⟩⟩

/-- What the verifier accepts are accepted rounds of the protocol. -/
theorem verify_accepts {proof : Proof F} {claim : F} {rounds terms : ℕ}
    {state state' : transcript.State} {point : List F}
    (hverify : verify transcript proof claim rounds terms factors state = .ok (point, state')) :
    proof.rounds.length = rounds ∧ point.length = rounds ∧ proof.finalTerms.length = terms ∧
      (∀ term ∈ proof.finalTerms, term.length = factors) ∧
      Accepts claim (roundsOf proof.rounds point) (proof.finalTerms.map List.prod).sum ∧
      ∀ round ∈ roundsOf proof.rounds point, round.1.natDegree ≤ factors := by
  obtain ⟨hshape, hverify⟩ := Except.check_eq_ok.mp hverify
  obtain ⟨⟨final, point', state''⟩, hreplay, hverify⟩ := Except.bind_eq_ok.mp hverify
  obtain ⟨hfinal, hverify⟩ := Except.check_eq_ok.mp hverify
  cases hverify
  rw [rejectIf_eq_ok, not_not, terminalTermSum_eq] at hfinal
  have hshape := rejectIf_eq_ok.mp hshape
  simp only [not_or, not_not, not_exists, not_and] at hshape
  obtain ⟨hrounds, hterms, hfactors, hmessages⟩ := hshape
  refine ⟨hrounds, ?_⟩
  cases factors with
  | zero =>
    -- a message of one value is not accepted, so there is no round
    match hrounds' : proof.rounds with
    | [] =>
      rw [hrounds'] at hreplay hrounds
      cases hreplay
      exact ⟨hrounds, hterms, hfactors, hfinal, nofun⟩
    | message :: rest =>
      rw [hrounds'] at hreplay hmessages
      obtain ⟨_, _, hcheck, -⟩ := (replay_cons (channel transcript)).mp hreplay
      obtain ⟨value, rfl⟩ := List.length_eq_one_iff.mp (hmessages message List.mem_cons_self)
      cases hcheck
  | succ factors =>
    obtain ⟨hpoint, haccepts, hdegree⟩ := replay_accepts (channel transcript)
      (checkRound_verifies factors) hmessages hreplay
    exact ⟨hpoint.trans hrounds, hterms, hfactors, hfinal ▸ haccepts, hdegree⟩

end Verifier

end SumOfProductsSumcheck

end Zksm83
