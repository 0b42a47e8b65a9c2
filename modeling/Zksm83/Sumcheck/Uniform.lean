import Mathlib.Data.List.DropRight
import Zksm83.Sumcheck.Rounds

/-!
# The sumcheck of a uniform relation

A relation constrains every row of a table alone. Its sumcheck shows that the constraints, mixed by
powers of a challenge, vanish in all rows, weighted by the equality polynomial of a random point.
The rounds are computed in chunks of row pairs. After `uniform/sumcheck.rs`, `uniform/relation.rs`
and `uniform.rs`.
-/

namespace Zksm83

open Sumcheck FieldFold

inductive UniformError where
  | emptyRelation
  | shape
  | witnessUnsatisfied (row constraint : ℕ)
  | unsatisfied
  | sumcheck
  | terminalMismatch
  | zeroChallenge
  | nonInvertibleInterpolation
  | fieldFold (error : FieldFoldError)
  deriving DecidableEq, Repr

/-- Who initializes the buffer of constraint values. -/
inductive ConstraintOutput where
  | zeroInitialized
  | overwritten
  deriving DecidableEq, Repr

/-- A relation on single rows: it writes the values of its constraints into a buffer. -/
structure UniformRelation (F : Type) where
  columnCount : ℕ
  constraintCount : ℕ
  maxConstraintDegree : ℕ
  constraintOutput : ConstraintOutput
  evaluate : List F → List F → Except UniformError (List F)

namespace Uniform

variable {F : Type} [Field F] [DecidableEq F]

/-! ## The mixed constraints of a row -/

def initializeConstraintOutput (relation : UniformRelation F) (constraints : List F) : List F :=
  match relation.constraintOutput with
  | .zeroInitialized => List.replicate constraints.length 0
  | .overwritten => constraints

/-- The values without the zeros at their end. -/
def trimZeroSuffix (values : List F) : List F := values.rdropWhile (fun value => decide (value = 0))

/-- The powers of a challenge, from a given one on. -/
def constraintPowersFrom (power : F) : ℕ → F → List F
  | 0, _ => []
  | count + 1, mix => power :: constraintPowersFrom (power * mix) count mix

def constraintPowers (count : ℕ) (mix : F) : List F := constraintPowersFrom 1 count mix

/-- The mixed constraints of a row, with the buffer after the call. -/
def combinedRelationWithPowers (relation : UniformRelation F) (row constraintPowers : List F)
    (constraints : List F) : Except UniformError (F × List F) := do
  rejectIf (row.length ≠ relation.columnCount) .shape
  rejectIf (constraints.length ≠ relation.constraintCount ∨
    constraintPowers.length ≠ relation.constraintCount) .shape
  let constraints ← relation.evaluate row (initializeConstraintOutput relation constraints)
  let combined := ((trimZeroSuffix constraints).zip constraintPowers).foldl
    (fun combined entry => if entry.1 ≠ 0 then combined + entry.2 * entry.1 else combined) 0
  return (combined, constraints)

def combinedRelationWithScratch (relation : UniformRelation F) (row : List F) (constraintMix : F)
    (constraints : List F) : Except UniformError (F × List F) :=
  combinedRelationWithPowers relation row
    (constraintPowers relation.constraintCount constraintMix) constraints

def combinedRelation (relation : UniformRelation F) (row : List F) (constraintMix : F) :
    Except UniformError F := do
  let (combined, _) ← combinedRelationWithScratch relation row constraintMix
    (List.replicate relation.constraintCount 0)
  return combined

/-! ## Rounds -/

def pairLowAndDelta (values : List F) (pairIndex : ℕ) : Except UniformError (F × F) := do
  let low ← someOr values[pairIndex * 2]? .shape
  let high ← someOr values[pairIndex * 2 + 1]? .shape
  return (low, high - low)

/-- The first row of a pair, and its difference to the second. -/
def loadPairRows (columns : List (List F)) (pairIndex : ℕ) :
    Except UniformError (List F × List F) := do
  let pairs ← columns.mapM (fun column => pairLowAndDelta column pairIndex)
  return (pairs.map Prod.fst, pairs.map Prod.snd)

def interpolateLoadedRow (lowRow rowDeltas : List F) (point : F) : List F :=
  lowRow.zipWith (fun low delta => low + point * delta) rowDeltas

def interpolateLoadedRowAtOne (lowRow rowDeltas : List F) : List F :=
  lowRow.zipWith (fun low delta => low + delta) rowDeltas

section Pair

variable (relation : UniformRelation F) (constraintPowers lowRow rowDeltas : List F)
  (weightLow weightDelta : F)

/-- The row and the weight of a pair at a point. -/
def pairAt (pointIndex : ℕ) (point : F) : List F × F :=
  match pointIndex with
  | 0 => (lowRow, weightLow)
  | 1 => (interpolateLoadedRowAtOne lowRow rowDeltas, weightLow + weightDelta)
  | _ => (interpolateLoadedRow lowRow rowDeltas point, weightLow + point * weightDelta)

/-- A pair of rows is added to the evaluations, point by point, from a given point on. -/
def accumulatePoints : ℕ → List (F × F) → List F → Except UniformError (List F × List F)
  | _, [], constraints => .ok ([], constraints)
  | pointIndex, (point, evaluation) :: rest, constraints => do
    let (row, weight) := pairAt lowRow rowDeltas weightLow weightDelta pointIndex point
    let (value, constraints) ← combinedRelationWithPowers relation row constraintPowers constraints
    let (evaluations, constraints) ← accumulatePoints (pointIndex + 1) rest constraints
    return ((evaluation + weight * value) :: evaluations, constraints)

end Pair

/-- A pair of rows is added to a message. The buffer of constraint values is used again. -/
def accumulatePair (relation : UniformRelation F) (columns : List (List F)) (weights : List F)
    (points constraintPowers : List F) (pairIndex : ℕ) (message constraints : List F) :
    Except UniformError (List F × List F) := do
  let (lowRow, rowDeltas) ← loadPairRows columns pairIndex
  let (weightLow, weightDelta) ← pairLowAndDelta weights pairIndex
  accumulatePoints relation constraintPowers lowRow rowDeltas weightLow weightDelta 0
    (points.zip message) constraints

/-- The message of some of the pairs. -/
def accumulatePairs (relation : UniformRelation F) (columns : List (List F)) (weights : List F)
    (points constraintPowers : List F) (pairs : List ℕ) : Except UniformError (List F) := do
  let (message, _) ← pairs.foldlM (fun scratch pairIndex => accumulatePair relation columns weights
    points constraintPowers pairIndex scratch.1 scratch.2)
    (List.replicate points.length 0, List.replicate relation.constraintCount 0)
  return message

def sumcheckRoundPrecomputed (relation : UniformRelation F) (columns : List (List F))
    (weights : List F) (points constraintPowers : List F) : Except UniformError (List F) :=
  accumulatePairs relation columns weights points constraintPowers
    (List.range (weights.length / 2))

def evaluatePairChunk (relation : UniformRelation F) (columns : List (List F)) (weights : List F)
    (points constraintPowers : List F) (chunk pairsPerChunk : ℕ) : Except UniformError (List F) :=
  let start := chunk * pairsPerChunk
  let final := min (start + pairsPerChunk) (weights.length / 2)
  accumulatePairs relation columns weights points constraintPowers
    (List.range' start (final - start))

def mergeRoundMessages (left right : List F) : Except UniformError (List F) := do
  rejectIf (left.length ≠ right.length) .shape
  return left.zipWith (· + ·) right

def validateRoundShape (relation : UniformRelation F) (columns : List (List F)) (weights : List F)
    (evaluationCount : ℕ) : Except UniformError Unit :=
  rejectIf (evaluationCount = 0 ∨ columns.length ≠ relation.columnCount ∨
    (∃ column ∈ columns, column.length ≠ weights.length) ∨ weights.length < 2 ∨
    weights.length % 2 ≠ 0) .shape

abbrev parallelSumcheckPairThreshold : ℕ := 64
abbrev sumcheckChunksPerThread : ℕ := 4

/-- The message of a round. Many pairs are divided into chunks for the threads. -/
def parallelSumcheckRoundPrecomputed (threadCount : ℕ) (relation : UniformRelation F)
    (columns : List (List F)) (weights : List F) (points constraintPowers : List F) :
    Except UniformError (List F) := do
  validateRoundShape relation columns weights points.length
  rejectIf (constraintPowers.length ≠ relation.constraintCount) .shape
  let pairCount := weights.length / 2
  if pairCount < parallelSumcheckPairThreshold ∨ threadCount = 1 then
    sumcheckRoundPrecomputed relation columns weights points constraintPowers
  else
    let desiredChunks := max 1 (min (threadCount * sumcheckChunksPerThread) pairCount)
    let pairsPerChunk := (pairCount + desiredChunks - 1) / desiredChunks
    let chunkCount := (pairCount + pairsPerChunk - 1) / pairsPerChunk
    (List.range chunkCount).foldlM (fun message chunk => do
      let part ← evaluatePairChunk relation columns weights points constraintPowers chunk
        pairsPerChunk
      mergeRoundMessages message part) (List.replicate points.length 0)

/-! ## The prover -/

def interpolationPoints (count : ℕ) : List F := (List.range count).map (fun point : ℕ => (point : F))

def evaluateLagrange : List F → F → Except UniformError F :=
  evaluateLagrangeWith .sumcheck .nonInvertibleInterpolation

def foldLayer (values : List F) (challenge : F) : Except UniformError (List F) :=
  (foldBinaryLayer values challenge).mapError .fieldFold

def foldColumns (columns : List (List F)) (challenge : F) : Except UniformError (List (List F)) :=
  columns.mapM (fun column => foldLayer column challenge)

/-- The product of the weights of all coordinates, the first of which is the lowest bit. -/
def equalityEvaluations (point : List F) : List F :=
  point.foldl (fun evaluations coordinate =>
    evaluations.map (fun value => value * (1 - coordinate)) ++
      evaluations.map (fun value => value * coordinate)) [1]

def equalityEvaluation (left right : List F) : Except UniformError F := do
  rejectIf (left.length ≠ right.length) .shape
  return (left.zip right).foldl (fun product entry =>
    product * (entry.1 * entry.2 + (1 - entry.1) * (1 - entry.2))) 1

/-- The columns, the weights and the claim of a round. -/
abbrev RoundTables (F : Type) : Type := List (List F) × List F × F

/-- The message of a round, which has to add up to the claim. -/
def proveRound (threadCount : ℕ) (relation : UniformRelation F) (points constraintPowers : List F)
    (tables : RoundTables F) : Except UniformError (List F) := do
  let message ← parallelSumcheckRoundPrecomputed threadCount relation tables.1 tables.2.1 points
    constraintPowers
  let atZero ← someOr message[0]? .sumcheck
  let atOne ← someOr message[1]? .sumcheck
  rejectIf (atZero + atOne ≠ tables.2.2) .unsatisfied
  return message

def foldRound (message : List F) (challenge : F) (tables : RoundTables F) :
    Except UniformError (RoundTables F) := do
  let claim ← evaluateLagrange message challenge
  let columns ← foldColumns tables.1 challenge
  let weights ← foldLayer tables.2.1 challenge
  return (columns, weights, claim)

section Transcript

variable (transcript : AkitaTranscript F)

def absorbRound (roundIndex : ℕ) (message : List F) (state : transcript.State) :
    transcript.State :=
  let state := transcript.appendBytes (asciiBytes "sumcheck-round-index") (leBytes 8 roundIndex)
    state
  message.foldl (fun state value =>
    transcript.appendField (asciiBytes "sumcheck-round-evaluation") value state) state

def channel : Channel F transcript.State where
  absorb := absorbRound transcript
  challenge := transcript.challengeScalar (asciiBytes "sumcheck-round")

/-- The rounds, the challenges, and the values of the columns there. -/
abbrev SumcheckOutput (F : Type) : Type := List (List F) × List F × List F

def proveSumcheck (threadCount : ℕ) (relation : UniformRelation F) (columns : List (List F))
    (weights : List F) (constraintMix : F) (state : transcript.State) :
    Except UniformError (SumcheckOutput F × transcript.State) := do
  rejectIf (weights.length < 2 ∨ ¬ weights.length.isPowerOfTwo ∨
    ∃ column ∈ columns, column.length ≠ weights.length) .shape
  let points := interpolationPoints (relation.maxConstraintDegree + 2)
  let powers := constraintPowers relation.constraintCount constraintMix
  let (rounds, point, (columns, weights, claim), state) ← proveFrom (channel transcript) id
    (proveRound threadCount relation points powers) foldRound
    (fun tables => decide (1 < tables.2.1.length))
    (proveRound threadCount relation points powers) foldRound
    (fun tables => tables.2.1.length) (columns, weights, 0) state
  let openedValues ← columns.mapM (fun column => someOr column.head? .shape)
  let terminalWeight ← someOr weights.head? .shape
  let (terminalRelation, _) ← combinedRelationWithScratch relation openedValues constraintMix
    (List.replicate relation.constraintCount 0)
  rejectIf (claim ≠ terminalWeight * terminalRelation) .terminalMismatch
  return ((rounds, point, openedValues), state)

/-! ## The verifier -/

/-- The checks of a message. -/
def checkMessage (expectedMessageLen : ℕ) (message : List F) (claim : F) :
    Except UniformError Unit := do
  rejectIf (message.length ≠ expectedMessageLen) .sumcheck
  let atZero ← someOr message[0]? .sumcheck
  let atOne ← someOr message[1]? .sumcheck
  rejectIf (atZero + atOne ≠ claim) .sumcheck

def replaySumcheck (relation : UniformRelation F) (rounds : List (List F))
    (openedValues rowPoint : List F) (constraintMix : F) (state : transcript.State) :
    Except UniformError (List F × transcript.State) := do
  let expectedMessageLen := relation.maxConstraintDegree + 2
  rejectIf (rounds.length ≠ rowPoint.length ∨ openedValues.length ≠ relation.columnCount) .shape
  let (claim, openingPoint, state) ← replay (channel transcript) (checkMessage expectedMessageLen)
    evaluateLagrange 0 0 rounds state
  let terminalWeight ← equalityEvaluation rowPoint openingPoint
  let terminalRelation ← combinedRelation relation openedValues constraintMix
  rejectIf (claim ≠ terminalWeight * terminalRelation) .terminalMismatch
  return (openingPoint, state)

end Transcript

end Uniform

end Zksm83
