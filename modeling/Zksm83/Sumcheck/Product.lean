import Zksm83.Sumcheck.Rounds

/-!
# The product sumcheck

The sum over the hypercube of the product of two tables. The prover folds two lists, and the
verifier replays three values a round. Read `prove_eq` first: the prover makes the honest run of the
product of two tables. After `sumcheck.rs` and `sumcheck/rounds.rs`.
-/

namespace Zksm83

open Finset Sumcheck FieldFold
open Multilinear (extension foldAll_zero line)

namespace ProductSumcheck

variable {F : Type} [Field F]

/-- A proof that a sum over the hypercube is an inner product of two tables. -/
structure Proof (F : Type) where
  rounds : List (Vector F 3)
  finalLeft : F
  finalRight : F
  deriving DecidableEq

def validateTables (left right : List F) : Except ProductSumcheckError Unit := do
  rejectIf (left = []) .emptyTable
  rejectIf (left.length ≠ right.length) .lengthMismatch
  rejectIf (¬ left.length.isPowerOfTwo) .nonPowerOfTwo

def innerProduct (left right : List F) : Except ProductSumcheckError F := do
  validateTables left right
  return (left.zip right).foldl (fun sum pair => sum + pair.1 * pair.2) 0

/-- The values of a list in pairs; a trailing value is dropped. -/
def chunkPairs : List F → List (F × F)
  | low :: high :: rest => (low, high) :: chunkPairs rest
  | _ => []

def productPair (leftPair rightPair : F × F) (points : Vector F 3) : Vector F 3 :=
  points.map (fun point =>
    let leftAt := leftPair.1 + point * (leftPair.2 - leftPair.1)
    let rightAt := rightPair.1 + point * (rightPair.2 - rightPair.1)
    leftAt * rightAt)

def addMessages (left right : Vector F 3) : Vector F 3 := left.zipWith (· + ·) right

def productPoints : Vector F 3 := #v[((0 : ℕ) : F), ((1 : ℕ) : F), ((2 : ℕ) : F)]

/-- The message of a round, summed over the pairs of rows. -/
def productRound (left right : List F) : Except ProductSumcheckError (Vector F 3) := do
  validateTables left right
  rejectIf (left.length = 1) .foldingShape
  return ((chunkPairs left).zip (chunkPairs right)).foldl
    (fun message pairs => addMessages message (productPair pairs.1 pairs.2 productPoints))
    (Vector.replicate 3 0)

def foldBorrowed (values : List F) (challenge : F) : Except ProductSumcheckError (List F) :=
  (foldBinaryLayer values challenge).mapError .fieldFold

def fold (table : List F) (challenge : F) : Except ProductSumcheckError (List F) := do
  rejectIf (table.length ≤ 1 ∨ ¬ table.length.isPowerOfTwo) .foldingShape
  (foldBinaryLayer table challenge).mapError .fieldFold

def variableCount (length : ℕ) : Except ProductSumcheckError ℕ := do
  rejectIf (length = 0 ∨ ¬ length.isPowerOfTwo) .nonPowerOfTwo
  return length.log2

def firstValue (values : List F) : Except ProductSumcheckError F :=
  match values with
  | value :: _ => .ok value
  | [] => .error .emptyTable

section Transcript

variable (transcript : AkitaTranscript F)

def channel : Channel F transcript.State :=
  roundChannel transcript (asciiBytes "product-sumcheck") (asciiBytes "product-sumcheck-challenge")

/-- What a prover returns: the proof, the claim and the challenges. -/
abbrev Output (F : Type) : Type := Proof F × F × List F

def finishProductSumcheck (left right : List F) (rounds : List (Vector F 3)) (claim : F)
    (point : List F) (state : transcript.State) :
    Except ProductSumcheckError (Output F × transcript.State) := do
  let finalLeft ← firstValue left
  let finalRight ← firstValue right
  let state := absorbFinals transcript (asciiBytes "product-sumcheck-final")
    [finalLeft, finalRight] state
  return ((⟨rounds, finalLeft, finalRight⟩, claim, point), state)

/-- The rounds: the first folds borrowed tables, the others fold the lists in place. -/
def proveRounds (tables : List F × List F) (state : transcript.State) :
    Except ProductSumcheckError (List (Vector F 3) × List F × (List F × List F) ×
      transcript.State) :=
  proveFrom (channel transcript) Vector.toList
    (fun tables => productRound tables.1 tables.2)
    (fun _ challenge tables => do
      let left ← foldBorrowed tables.1 challenge
      let right ← foldBorrowed tables.2 challenge
      return (left, right))
    (fun tables => decide (1 < tables.1.length))
    (fun tables => productRound tables.1 tables.2)
    (fun _ challenge tables => do
      let left ← fold tables.1 challenge
      let right ← fold tables.2 challenge
      return (left, right))
    (fun tables => tables.1.length) tables state

def prove (left right : List F) (state : transcript.State) :
    Except ProductSumcheckError (Output F × transcript.State) := do
  validateTables left right
  let claim ← innerProduct left right
  let _ ← variableCount left.length
  if left.length = 1 then
    finishProductSumcheck transcript left right [] claim [] state
  else
    let (rounds, point, (left, right), state) ← proveRounds transcript (left, right) state
    finishProductSumcheck transcript left right rounds claim point state

end Transcript

/-! ## The honest run -/

/-- The rows of two tables. -/
def rowsOf (tables : List F × List F) (index : ℕ) : F × F :=
  (tableOf tables.1 index, tableOf tables.2 index)

/-- Two tables over a number of coordinates, with their rows. -/
def Stands (count : ℕ) (tables : List F × List F) (table : ℕ → F × F) : Prop :=
  tables.1.length = 2 ^ count ∧ tables.2.length = 2 ^ count ∧ table = rowsOf tables

/-- The product of the two values of a row. -/
noncomputable def summand : Summand F (F × F) 2 :=
  .sumOfProducts (univ : Finset Unit) (univ : Finset Bool)
    (fun _ left => bif left then LinearMap.fst F F F else LinearMap.snd F F F) (by decide)

@[simp] theorem summand_value (row : F × F) : summand.value row = row.1 * row.2 := by
  simp [summand, Summand.sumOfProducts]

theorem chunkPairs_eq (values : List F) :
    chunkPairs values = (List.range (values.length / 2)).map
      (fun index => (tableOf values (2 * index), tableOf values (2 * index + 1))) := by
  induction values using chunkPairs.induct with
  | case1 low high rest ih =>
    have hlength : (low :: high :: rest).length / 2 = rest.length / 2 + 1 := by
      rw [List.length_cons, List.length_cons]
      omega
    rw [chunkPairs, ih, hlength, List.range_succ_eq_map, List.map_cons, List.map_map]
    rfl
  | case2 values hshort =>
    match values, hshort with
    | [], _ => simp [chunkPairs]
    | [_], _ => simp [chunkPairs]
    | low :: high :: rest, hshort => exact absurd rfl (hshort low high rest)

/-- Messages are added value by value. -/
theorem foldl_addMessages {α : Type} (values : List α) (message : α → Vector F 3)
    (start : Vector F 3) :
    values.foldl (fun sum value => addMessages sum (message value)) start =
      #v[start[0] + (values.map (fun value => (message value)[0])).sum,
        start[1] + (values.map (fun value => (message value)[1])).sum,
        start[2] + (values.map (fun value => (message value)[2])).sum] := by
  induction values generalizing start with
  | nil =>
    refine Vector.ext fun node hnode => ?_
    match node, hnode with
    | 0, _ => simp
    | 1, _ => simp
    | 2, _ => simp
  | cons value values ih =>
    rw [List.foldl_cons, ih]
    simp [addMessages, add_assoc]

theorem toList_message (count : ℕ) (table : ℕ → F × F) :
    summand.message count table =
      [summand.total count (Multilinear.fold ((0 : ℕ) : F) table),
        summand.total count (Multilinear.fold ((1 : ℕ) : F) table),
        summand.total count (Multilinear.fold ((2 : ℕ) : F) table)] := rfl

section

variable {left right : List F} {count : ℕ} (hleft : left.length = 2 ^ count)
  (hright : right.length = 2 ^ count)

include hleft hright

omit [Field F] in
theorem validateTables_eq : validateTables left right = .ok () := by
  have hne : left ≠ [] := List.ne_nil_of_length_pos (hleft ▸ Nat.two_pow_pos count)
  exact Except.check_eq_ok.mpr ⟨rejectIf_eq_ok.mpr hne, Except.check_eq_ok.mpr
    ⟨rejectIf_eq_ok.mpr (not_not_intro (hleft.trans hright.symm)),
      rejectIf_eq_ok.mpr (not_not_intro ⟨count, hleft⟩)⟩⟩

theorem innerProduct_eq :
    innerProduct left right = .ok (summand.total count (rowsOf (left, right))) := by
  have hzip : left.zip right =
      (List.range (2 ^ count)).map (fun index => rowsOf (left, right) index) := by
    refine List.ext_getElem (by simp [hleft, hright]) fun index hindex hindex' => ?_
    rw [List.length_map, List.length_range] at hindex'
    simp [rowsOf, tableOf, List.getElem_eq_getD (0 : F)]
  refine Except.bind_eq_ok.mpr ⟨(), validateTables_eq hleft hright, congrArg Except.ok ?_⟩
  rw [foldl_add (fun pair : F × F => pair.1 * pair.2), zero_add, hzip, List.map_map, sum_map_range]
  simp [Summand.total, Multilinear.cubeSum]

end

/-- The message of a round holds the values of the honest polynomial. -/
theorem productRound_eq {left right : List F} {count : ℕ} (hleft : left.length = 2 ^ (count + 1))
    (hright : right.length = 2 ^ (count + 1)) :
    ∃ message, productRound left right = .ok message ∧
      message.toList = summand.message count (rowsOf (left, right)) := by
  have hlong : left.length ≠ 1 := by
    have hpos := Nat.two_pow_pos count
    rw [hleft, pow_succ]
    omega
  have hhalf : 2 ^ (count + 1) / 2 = 2 ^ count := by
    rw [pow_succ, Nat.mul_div_cancel _ (by norm_num)]
  refine ⟨_, Except.check_eq_ok.mpr ⟨validateTables_eq hleft hright, Except.check_eq_ok.mpr
    ⟨rejectIf_eq_ok.mpr hlong, rfl⟩⟩, ?_⟩
  have hpairs : (chunkPairs left).zip (chunkPairs right) =
      (List.range (2 ^ count)).map (fun index =>
        ((tableOf left (2 * index), tableOf left (2 * index + 1)),
          (tableOf right (2 * index), tableOf right (2 * index + 1)))) := by
    rw [chunkPairs_eq, chunkPairs_eq, hleft, hright, hhalf, List.zip_map']
  have htotal (node : ℕ) :
      summand.total count (Multilinear.fold (node : F) (rowsOf (left, right))) =
        ((List.range (2 ^ count)).map (fun index =>
          line (tableOf left (2 * index)) (tableOf left (2 * index + 1)) (node : F) *
            line (tableOf right (2 * index)) (tableOf right (2 * index + 1)) (node : F))).sum := by
    rw [sum_map_range, Summand.total, Multilinear.cubeSum]
    refine sum_congr rfl fun index _ => ?_
    rw [summand_value]
    rfl
  rw [hpairs, foldl_addMessages, toList_message, htotal, htotal, htotal]
  simp [productPair, productPoints, line, Function.comp_def]

/-! ## The prover -/

theorem rowsOf_foldPairs (challenge : F) {tables : List F × List F} {count : ℕ}
    (hleft : tables.1.length = 2 ^ (count + 1)) (hright : tables.2.length = 2 ^ (count + 1)) :
    Multilinear.fold challenge (rowsOf tables) =
      rowsOf (foldPairs challenge tables.1, foldPairs challenge tables.2) := by
  funext index
  simp only [rowsOf, tableOf_foldPairs challenge (hleft ▸ pow_succ_mod_two _),
    tableOf_foldPairs challenge (hright ▸ pow_succ_mod_two _)]
  rfl

theorem Stands.foldPairs {tables : List F × List F} {table : ℕ → F × F} {count : ℕ}
    (hstands : Stands (count + 1) tables table) (challenge : F) :
    Stands count (FieldFold.foldPairs challenge tables.1, FieldFold.foldPairs challenge tables.2)
      (Multilinear.fold challenge table) := by
  obtain ⟨hleft, hright, rfl⟩ := hstands
  exact ⟨length_foldPairs_of_pow hleft challenge, length_foldPairs_of_pow hright challenge,
    rowsOf_foldPairs challenge hleft hright⟩

theorem fold_eq {table : List F} {count : ℕ} (hlength : table.length = 2 ^ (count + 1))
    (challenge : F) : fold table challenge = .ok (foldPairs challenge table) := by
  have hlong : 1 < table.length := by
    have hpos := Nat.two_pow_pos count
    rw [hlength, pow_succ]
    omega
  refine Except.check_eq_ok.mpr ⟨rejectIf_eq_ok.mpr ?_, ?_⟩
  · exact not_or.mpr ⟨not_le.mpr hlong, not_not_intro ⟨_, hlength⟩⟩
  · rw [foldBinaryLayer_eq hlength]
    rfl

/-- The loop goes on for as long as a coordinate is left. -/
theorem more_eq {tables : List F × List F} {table : ℕ → F × F} {count : ℕ}
    (hstands : Stands count tables table) :
    decide (1 < tables.1.length) = decide (0 < count) ∧ count ≤ tables.1.length := by
  rw [hstands.1]
  refine ⟨decide_eq_decide.mpr ?_, Nat.lt_two_pow_self.le⟩
  rw [Nat.one_lt_two_pow_iff, Nat.pos_iff_ne_zero]

theorem foldBorrowed_eq {values : List F} {count : ℕ} (hlength : values.length = 2 ^ (count + 1))
    (challenge : F) : foldBorrowed values challenge = .ok (foldPairs challenge values) := by
  rw [foldBorrowed, foldBinaryLayer_eq hlength]
  rfl

/-- A round computes the honest message and folds both tables, whichever way it folds a table. -/
theorem round_represents {foldTable : List F → F → Except ProductSumcheckError (List F)}
    (hfold : ∀ {values : List F} {count : ℕ}, values.length = 2 ^ (count + 1) → ∀ challenge,
      foldTable values challenge = .ok (foldPairs challenge values)) :
    RoundRepresents (summand (F := F)) Vector.toList Stands Stands
      (fun tables => productRound tables.1 tables.2)
      (fun _ challenge tables => do
        let left ← foldTable tables.1 challenge
        let right ← foldTable tables.2 challenge
        return (left, right)) := by
  rintro count tables table ⟨hleft, hright, rfl⟩
  obtain ⟨message, hmessage, hvalues⟩ := productRound_eq hleft hright
  refine ⟨message, hmessage, hvalues, fun challenge => ⟨_, ?_, Stands.foldPairs
    ⟨hleft, hright, rfl⟩ challenge⟩⟩
  exact Except.bind_eq_ok.mpr ⟨_, hfold hleft challenge, Except.bind_eq_ok.mpr
    ⟨_, hfold hright challenge, rfl⟩⟩

section Prover

variable (transcript : AkitaTranscript F)

/-- The honest run of the product of two tables. -/
noncomputable def run (count : ℕ) (left right : List F) (state : transcript.State) :
    List (List F) × List F × transcript.State :=
  honestRun (channel transcript) summand count 0 (rowsOf (left, right)) state

/-- What a prover returns that makes the honest run with the given rounds: the values of the
extensions, the true sum, and the challenges. -/
noncomputable def honestOutput (rounds : List (Vector F 3)) (count : ℕ) (left right : List F)
    (state : transcript.State) : Output F × transcript.State :=
  let run := run transcript count left right state
  let finalLeft := extension run.2.1 (tableOf left)
  let finalRight := extension run.2.1 (tableOf right)
  ((⟨rounds, finalLeft, finalRight⟩, summand.total count (rowsOf (left, right)), run.2.1),
    absorbFinals transcript (asciiBytes "product-sumcheck-final") [finalLeft, finalRight] run.2.2)

variable {transcript}

/-- Rows over no coordinates are the last values. -/
theorem finishProductSumcheck_eq {left right : List F} (rounds : List (Vector F 3)) (claim : F)
    (point : List F) (state : transcript.State) {table : ℕ → F × F}
    (hstands : Stands 0 (left, right) table) :
    finishProductSumcheck transcript left right rounds claim point state =
      .ok ((⟨rounds, (table 0).1, (table 0).2⟩, claim, point),
        absorbFinals transcript (asciiBytes "product-sumcheck-final")
          [(table 0).1, (table 0).2] state) := by
  obtain ⟨hleft, hright, rfl⟩ := hstands
  obtain ⟨first, rfl⟩ := List.length_eq_one_iff.mp hleft
  obtain ⟨second, rfl⟩ := List.length_eq_one_iff.mp hright
  rfl

/-- The rows after all folds hold the extensions of both tables. -/
theorem foldAll_rowsOf (point : List F) (left right : List F) :
    Multilinear.foldAll point (rowsOf (left, right)) 0 =
      (extension point (tableOf left), extension point (tableOf right)) := by
  rw [foldAll_zero]
  refine Prod.ext ?_ ?_
  · exact Multilinear.map_extension (LinearMap.fst F F F) point _
  · exact Multilinear.map_extension (LinearMap.snd F F F) point _

omit [Field F] in
theorem variableCount_eq {left : List F} {count : ℕ} (hleft : left.length = 2 ^ count) :
    variableCount left.length = .ok left.length.log2 := by
  have hpos : left.length ≠ 0 := by
    rw [hleft]
    exact (Nat.two_pow_pos count).ne'
  exact Except.check_eq_ok.mpr ⟨rejectIf_eq_ok.mpr
    (not_or.mpr ⟨hpos, not_not_intro ⟨count, hleft⟩⟩), rfl⟩

/-- The prover makes the honest run. -/
theorem prove_eq {left right : List F} {count : ℕ} (hleft : left.length = 2 ^ count)
    (hright : right.length = 2 ^ count) (state : transcript.State) :
    ∃ rounds : List (Vector F 3),
      rounds.map Vector.toList = (run transcript count left right state).1 ∧
      prove transcript left right state = .ok (honestOutput transcript rounds count left right
        state) := by
  have hvalid := validateTables_eq hleft hright
  have hclaim := innerProduct_eq hleft hright
  have hvariables := variableCount_eq hleft
  have hstands : Stands count (left, right) (rowsOf (left, right)) := ⟨hleft, hright, rfl⟩
  cases count with
  | zero =>
    refine ⟨[], rfl, Except.check_eq_ok.mpr ⟨hvalid, Except.bind_eq_ok.mpr ⟨_, hclaim,
      Except.bind_eq_ok.mpr ⟨_, hvariables, ?_⟩⟩⟩⟩
    rw [if_pos (hleft.trans (pow_zero 2)), finishProductSumcheck_eq [] _ [] state hstands]
    have hfinals := foldAll_rowsOf [] left right
    rw [Multilinear.foldAll_nil] at hfinals
    rw [hfinals]
    rfl
  | succ count =>
    have hlong : left.length ≠ 1 := by
      have hpos := Nat.two_pow_pos count
      rw [hleft, pow_succ]
      omega
    obtain ⟨rounds, ⟨left', right'⟩, hrun, hrounds, hlast⟩ := proveFrom_eq (channel transcript)
      (fun count _ _ htables => more_eq htables) (round_represents foldBorrowed_eq)
      (round_represents fold_eq) hstands state
    refine ⟨rounds, hrounds, Except.check_eq_ok.mpr ⟨hvalid, Except.bind_eq_ok.mpr ⟨_, hclaim,
      Except.bind_eq_ok.mpr ⟨_, hvariables, ?_⟩⟩⟩⟩
    rw [if_neg hlong]
    refine Except.bind_eq_ok.mpr
      ⟨_, hrun, (finishProductSumcheck_eq _ _ _ _ hlast).trans ?_⟩
    rw [foldAll_rowsOf]
    rfl

end Prover

/-! ## The verifier -/

section Verifier

variable [DecidableEq F] (transcript : AkitaTranscript F)

def verify (proof : Proof F) (initialClaim : F) (expectedRounds : ℕ) (state : transcript.State) :
    Except ProductSumcheckError (List F × transcript.State) := do
  rejectIf (proof.rounds.length ≠ expectedRounds) .proofShape
  let (claim, point, state) ← replay (channel transcript) checkRound evaluateLagrange 0
    initialClaim (proof.rounds.map Vector.toList) state
  rejectIf (claim ≠ proof.finalLeft * proof.finalRight) .finalClaimMismatch
  return (point, absorbFinals transcript (asciiBytes "product-sumcheck-final")
    [proof.finalLeft, proof.finalRight] state)

variable {transcript}

/-- The verifier accepts the honest run, and derives the same challenges. -/
theorem verify_honest (hnodes : DistinctNodes F 3) {rounds : List (Vector F 3)} {count : ℕ}
    {left right : List F} {state : transcript.State}
    (hrounds : rounds.map Vector.toList = (run transcript count left right state).1) :
    let output := honestOutput transcript rounds count left right state
    verify transcript output.1.1 output.1.2.1 count state = .ok (output.1.2.2, output.2) := by
  have hlength : rounds.length = count := by
    have hrun := (length_honestRun (channel transcript) summand count 0 (rowsOf (left, right))
      state).1
    rw [← hrun, ← List.length_map, hrounds]
    rfl
  have hreplay := replay_honestRun (channel transcript) (checkRound_verifies 1) summand hnodes
    count 0 (rowsOf (left, right)) state
  refine Except.check_eq_ok.mpr ⟨rejectIf_eq_ok.mpr (not_not_intro hlength),
    Except.bind_eq_ok.mpr ⟨_, hrounds ▸ hreplay, Except.check_eq_ok.mpr
      ⟨rejectIf_eq_ok.mpr (not_not_intro ?_), rfl⟩⟩⟩
  rw [← foldAll_zero, foldAll_rowsOf, summand_value]
  rfl

/-- What the verifier accepts are accepted rounds of the protocol. -/
theorem verify_accepts {proof : Proof F} {claim : F} {count : ℕ} {state state' : transcript.State}
    {point : List F} (hverify : verify transcript proof claim count state = .ok (point, state')) :
    let rounds := roundsOf (proof.rounds.map Vector.toList) point
    proof.rounds.length = count ∧ point.length = count ∧
      Accepts claim rounds (proof.finalLeft * proof.finalRight) ∧
      ∀ round ∈ rounds, round.1.natDegree ≤ 2 := by
  obtain ⟨hlength, hverify⟩ := Except.check_eq_ok.mp hverify
  obtain ⟨⟨final, point', state''⟩, hreplay, hverify⟩ := Except.bind_eq_ok.mp hverify
  obtain ⟨hfinal, hverify⟩ := Except.check_eq_ok.mp hverify
  cases hverify
  rw [rejectIf_eq_ok, not_not] at hlength hfinal
  obtain ⟨hpoint, haccepts, hdegree⟩ := replay_accepts (channel transcript) (checkRound_verifies 1)
    (by simp) hreplay
  rw [List.length_map, hlength] at hpoint
  exact ⟨hlength, hpoint, hfinal ▸ haccepts, hdegree⟩

end Verifier

end ProductSumcheck

end Zksm83
