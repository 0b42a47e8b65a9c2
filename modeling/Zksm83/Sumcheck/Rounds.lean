import Zksm83.Argument.FieldFold
import Zksm83.Library.SumcheckRun
import Zksm83.Receipt.Wire

/-!
# Rounds of a sumcheck

What the sumchecks share: the transcript that absorbs the messages, and the interpolation of a
message, which succeeds exactly when the nodes are different in the field. After `sumcheck.rs`.
-/

namespace Zksm83

open Finset Sumcheck

/-- The transcript of the proof library: it absorbs labelled bytes and field elements, and gives
challenges. -/
structure AkitaTranscript (F : Type) where
  State : Type
  appendBytes : List Byte → List Byte → State → State
  appendField : List Byte → F → State → State
  challengeScalar : List Byte → State → F × State

inductive ProductSumcheckError where
  | emptyFactors
  | emptyTable
  | lengthMismatch
  | nonPowerOfTwo
  | proofShape
  | roundClaimMismatch
  | finalClaimMismatch
  | nonInvertibleInterpolation
  | foldingShape
  | fieldFold (error : FieldFoldError)
  deriving DecidableEq, Repr

section Folds

variable {α β ε M : Type*} [AddCommMonoid M]

theorem foldlM_eq_ok {f : β → α → Except ε β} {g : β → α → β} {values : List α}
    (hstep : ∀ value ∈ values, ∀ result, f result value = .ok (g result value)) (start : β) :
    values.foldlM f start = .ok (values.foldl g start) := by
  induction values generalizing start with
  | nil => rfl
  | cons value values ih =>
    rw [List.foldlM_cons, hstep value List.mem_cons_self]
    exact ih (fun value hvalue => hstep value (List.mem_cons_of_mem _ hvalue)) _

theorem mapM_eq_ok {α β ε : Type} {f : α → Except ε β} {g : α → β} {values : List α}
    (hstep : ∀ value ∈ values, f value = .ok (g value)) :
    values.mapM f = .ok (values.map g) := by
  induction values with
  | nil => rfl
  | cons value values ih =>
    rw [List.mapM_cons]
    exact Except.bind_eq_ok.mpr ⟨_, hstep value List.mem_cons_self, Except.bind_eq_ok.mpr
      ⟨_, ih (fun value hvalue => hstep value (List.mem_cons_of_mem _ hvalue)), rfl⟩⟩

theorem foldl_add (f : α → M) (values : List α) (start : M) :
    values.foldl (fun sum value => sum + f value) start = start + (values.map f).sum := by
  induction values generalizing start with
  | nil => simp
  | cons value values ih => rw [List.foldl_cons, ih, List.map_cons, List.sum_cons, add_assoc]

theorem sum_map_range (f : ℕ → M) (count : ℕ) :
    ((List.range count).map f).sum = ∑ index ∈ range count, f index := by
  induction count with
  | zero => rfl
  | succ count ih => rw [List.range_succ, List.map_append, List.sum_append, ih,
      Finset.sum_range_succ, List.map_singleton, List.sum_singleton]

end Folds

variable {F : Type} [Field F]

/-! ## Tables as lists -/

/-- The table of a list of values. -/
def tableOf (values : List F) : ℕ → F := fun index => values.getD index 0

theorem tableOf_eq {values : List F} {index : ℕ} (hindex : index < values.length) :
    tableOf values index = values[index] :=
  (List.getElem_eq_getD 0).symm

/-- Folding a list folds its table. -/
theorem tableOf_foldPairs (challenge : F) {values : List F} (heven : values.length % 2 = 0) :
    tableOf (FieldFold.foldPairs challenge values) =
      Multilinear.fold challenge (tableOf values) := by
  funext index
  induction values using FieldFold.foldPairs.induct generalizing index with
  | case1 low high rest ih =>
    have hrest : rest.length % 2 = 0 := by
      rw [List.length_cons, List.length_cons] at heven
      omega
    cases index with
    | zero => rfl
    | succ index => exact ih hrest index
  | case2 values hshort =>
    match values, hshort with
    | [], _ => simp [FieldFold.foldPairs, tableOf, Multilinear.fold, Multilinear.line]
    | [_], _ => simp at heven
    | low :: high :: rest, hshort => exact absurd rfl (hshort low high rest)

theorem length_foldPairs_of_pow {values : List F} {count : ℕ}
    (hlength : values.length = 2 ^ (count + 1)) (challenge : F) :
    (FieldFold.foldPairs challenge values).length = 2 ^ count := by
  rw [FieldFold.length_foldPairs, hlength, pow_succ, Nat.mul_div_cancel _ (by norm_num)]

theorem pow_succ_mod_two (count : ℕ) : 2 ^ (count + 1) % 2 = 0 := by
  rw [pow_succ, Nat.mul_mod_left]

theorem half_length {len count : ℕ} (hlen : len = 2 ^ (count + 1)) : len / 2 = 2 ^ count := by
  rw [hlen, pow_succ, Nat.mul_div_cancel _ (by norm_num)]

theorem tableOf_foldAll {point : List F} {values : List F}
    (hlength : values.length = 2 ^ point.length) :
    tableOf (FieldFold.foldAll values point) = Multilinear.foldAll point (tableOf values) := by
  induction point generalizing values with
  | nil => rfl
  | cons x point ih =>
    rw [List.length_cons] at hlength
    rw [Multilinear.foldAll_cons, ← tableOf_foldPairs x (hlength ▸ pow_succ_mod_two _)]
    exact ih (length_foldPairs_of_pow hlength x)

/-- `evaluateMle` evaluates the multilinear extension. -/
theorem evaluateMle_extension {values point : List F} (hshort : point.length < 64)
    (hlength : values.length = 2 ^ point.length) :
    FieldFold.evaluateMle values point = .ok (Multilinear.extension point (tableOf values)) := by
  have hsingle := (FieldFold.foldlM_foldBinaryLayer point hlength).2
  obtain ⟨value, hvalue⟩ := List.length_eq_one_iff.mp hsingle
  rw [FieldFold.evaluateMle_eq hshort hlength, ← Multilinear.foldAll_zero,
    ← tableOf_foldAll hlength, hvalue]
  rfl

variable [DecidableEq F]

/-! ## Interpolation -/

/-- The numerator and the denominator of a Lagrange basis polynomial at a point. -/
def lagrangeFraction (count index : ℕ) (point : F) : F × F :=
  (List.range count).foldl (fun fraction other =>
    if other = index then fraction
    else (fraction.1 * (point - (other : F)), fraction.2 * ((index : F) - (other : F)))) (1, 1)

/-- The value at a point of the polynomial through values at zero, one, two and so on. -/
def evaluateLagrangeWith {ε : Type} (empty nonInvertible : ε) (evaluations : List F) (point : F) :
    Except ε F :=
  if evaluations = [] then .error empty
  else (List.range evaluations.length).foldlM (fun result index =>
    let fraction := lagrangeFraction evaluations.length index point
    if fraction.2 = 0 then .error nonInvertible
    else .ok (result + evaluations.getD index 0 * fraction.1 * fraction.2⁻¹)) 0

def evaluateLagrange : List F → F → Except ProductSumcheckError F :=
  evaluateLagrangeWith .proofShape .nonInvertibleInterpolation

omit [DecidableEq F] in
theorem lagrangeFraction_eq (count index : ℕ) (point : F) :
    lagrangeFraction count index point =
      (∏ other ∈ (range count).erase index, (point - (other : F)),
        ∏ other ∈ (range count).erase index, ((index : F) - (other : F))) := by
  induction count with
  | zero => rfl
  | succ count ih =>
    have hstep : lagrangeFraction (count + 1) index point =
        if count = index then lagrangeFraction count index point
        else ((lagrangeFraction count index point).1 * (point - (count : F)),
          (lagrangeFraction count index point).2 * ((index : F) - (count : F))) := by
      rw [lagrangeFraction, List.range_succ, List.foldl_append]
      rfl
    rw [hstep, ih, Finset.range_add_one]
    by_cases hindex : count = index
    · subst hindex
      rw [if_pos rfl, erase_insert notMem_range_self, erase_eq_of_notMem notMem_range_self]
    · have hmem : count ∉ (range count).erase index :=
        fun h => notMem_range_self (mem_of_mem_erase h)
      rw [if_neg hindex, erase_insert_of_ne hindex, prod_insert hmem, prod_insert hmem]
      exact Prod.ext (mul_comm _ _) (mul_comm _ _)

omit [DecidableEq F] in
/-- The nodes are different exactly when no denominator vanishes. -/
theorem distinctNodes_iff (count : ℕ) :
    DistinctNodes F count ↔ ∀ index < count,
      ∏ other ∈ (range count).erase index, ((index : F) - (other : F)) ≠ 0 := by
  constructor
  · intro hnodes index hindex
    refine prod_ne_zero_iff.mpr fun other hother => sub_ne_zero.mpr fun hequal => ?_
    obtain ⟨hne, hother⟩ := mem_erase.mp hother
    exact hne (hnodes (mem_coe.mpr (mem_range.mpr hindex)) hother hequal).symm
  · intro hproducts index hindex other hother hequal
    by_contra hne
    have hmem : other ∈ (range count).erase index := mem_erase.mpr ⟨Ne.symm hne, hother⟩
    exact hproducts index (mem_range.mp hindex)
      (prod_eq_zero hmem (sub_eq_zero.mpr hequal))

omit [DecidableEq F] in
theorem eval_interpolant_eq_sum (evaluations : List F) (point : F) :
    (interpolant evaluations).eval point = ∑ index ∈ range evaluations.length,
      evaluations.getD index 0 * (lagrangeFraction evaluations.length index point).1 *
        (lagrangeFraction evaluations.length index point).2⁻¹ := by
  rw [interpolant, Lagrange.interpolate_apply, Polynomial.eval_finsetSum]
  refine sum_congr rfl fun index _ => ?_
  rw [Polynomial.eval_mul, Polynomial.eval_C, Lagrange.basis, Polynomial.eval_prod,
    lagrangeFraction_eq]
  simp only [Lagrange.basisDivisor, Polynomial.eval_mul, Polynomial.eval_C, Polynomial.eval_sub,
    Polynomial.eval_X, prod_mul_distrib, prod_inv_distrib]
  ring

/-- A fold that adds guarded terms. -/
theorem foldlM_guarded_eq_ok {ε : Type} {error : ε} {guards terms : ℕ → F} {count : ℕ}
    {value : F} :
    (List.range count).foldlM (fun result index =>
        if guards index = 0 then .error error else .ok (result + terms index)) 0 =
      (.ok value : Except ε F) ↔
      (∀ index < count, guards index ≠ 0) ∧ value = ∑ index ∈ range count, terms index := by
  induction count generalizing value with
  | zero =>
    refine ⟨fun h => ?_, fun h => ?_⟩
    · cases h
      exact ⟨nofun, rfl⟩
    · rw [h.2]
      rfl
  | succ count ih =>
    rw [List.range_succ, List.foldlM_append, Except.bind_eq_ok]
    constructor
    · rintro ⟨before, hbefore, hlast⟩
      obtain ⟨hguards, rfl⟩ := ih.mp hbefore
      by_cases hguard : guards count = 0
      · rw [List.foldlM_cons, if_pos hguard] at hlast
        cases hlast
      · simp only [List.foldlM_cons, List.foldlM_nil, if_neg hguard] at hlast
        cases hlast
        refine ⟨fun index hindex => ?_, (sum_range_succ _ _).symm⟩
        obtain hindex | rfl := Nat.lt_succ_iff_lt_or_eq.mp hindex
        · exact hguards index hindex
        · exact hguard
    · rintro ⟨hguards, rfl⟩
      refine ⟨_, ih.mpr ⟨fun index hindex => hguards index (Nat.lt_succ_of_lt hindex), rfl⟩, ?_⟩
      simp only [List.foldlM_cons, List.foldlM_nil, if_neg (hguards count (Nat.lt_succ_self _)),
        sum_range_succ]
      rfl

/-- Interpolation evaluates the polynomial through the values, and fails on nodes that coincide. -/
theorem evaluateLagrangeWith_eq_ok {ε : Type} {empty nonInvertible : ε} {evaluations : List F}
    (hne : evaluations ≠ []) {point value : F} :
    evaluateLagrangeWith empty nonInvertible evaluations point = .ok value ↔
      DistinctNodes F evaluations.length ∧ value = (interpolant evaluations).eval point := by
  rw [evaluateLagrangeWith, if_neg hne, eval_interpolant_eq_sum, distinctNodes_iff]
  simp only [foldlM_guarded_eq_ok, lagrangeFraction_eq]

/-! ## The transcript -/

section Transcript

variable (transcript : AkitaTranscript F)

def absorbRound (label : List Byte) (roundIndex : ℕ) (evaluations : List F)
    (state : transcript.State) : transcript.State :=
  let state := transcript.appendBytes label (leBytes 8 roundIndex) state
  let state := transcript.appendBytes (asciiBytes "sumcheck-evaluation-count")
    (leBytes 8 evaluations.length) state
  evaluations.foldl (fun state evaluation =>
    transcript.appendField (asciiBytes "sumcheck-evaluation") evaluation state) state

def absorbFinals (label : List Byte) (finals : List F) (state : transcript.State) :
    transcript.State :=
  let state := transcript.appendBytes label (leBytes 8 finals.length) state
  finals.foldl (fun state value =>
    transcript.appendField (asciiBytes "sumcheck-final") value state) state

def absorbTermFinals (terms : List (List F)) (state : transcript.State) : transcript.State :=
  let state := transcript.appendBytes (asciiBytes "sum-of-products-term-count")
    (leBytes 8 terms.length) state
  terms.foldl (fun state term =>
    let state := transcript.appendBytes (asciiBytes "sum-of-products-factor-count")
      (leBytes 8 term.length) state
    term.foldl (fun state factor =>
      transcript.appendField (asciiBytes "sum-of-products-final") factor state) state) state

/-- The channel of the rounds with the given labels. -/
def roundChannel (label challengeLabel : List Byte) : Channel F transcript.State where
  absorb := absorbRound transcript label
  challenge := transcript.challengeScalar challengeLabel

/-- A transcript that adds up what it absorbs. -/
def sumTranscript (F : Type) [Field F] : AkitaTranscript F where
  State := F
  appendBytes label bytes state := state + (label.length : F) + (bytes.length : F)
  appendField label value state := 2 * state + value + (label.length : F)
  challengeScalar label state := (state + (label.length : F), state + 1)

end Transcript

/-! ## The checks of a round -/

/-- The verifier compares the sum of the first two values of a message with the claim. -/
def checkRound (message : List F) (claim : F) : Except ProductSumcheckError Unit :=
  match message with
  | atZero :: atOne :: _ => rejectIf (atZero + atOne ≠ claim) .roundClaimMismatch
  | _ => .error .proofShape

theorem checkRound_eq_ok {message : List F} {claim : F} (hlength : 2 ≤ message.length) :
    checkRound message claim = .ok () ↔ message.getD 0 0 + message.getD 1 0 = claim := by
  match message, hlength with
  | atZero :: atOne :: _, _ => exact rejectIf_eq_ok.trans not_not

theorem checkRound_verifies (degree : ℕ) :
    Verifies degree (checkRound (F := F)) evaluateLagrange where
  check_eq_ok hlength := checkRound_eq_ok (by omega)
  evaluate_eq_ok hlength := by
    have hne := List.ne_nil_of_length_pos (Nat.lt_of_lt_of_eq (Nat.succ_pos _) hlength.symm)
    rw [evaluateLagrange, evaluateLagrangeWith_eq_ok hne, hlength]

end Zksm83
