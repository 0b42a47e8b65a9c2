import Zksm83.Argument.FieldBatch
import Zksm83.Argument.FieldFold
import Zksm83.Cpu.Relation
import Zksm83.NativeField

/-!
# Continuity of packed blocks

The rows of a trace carry their own index and the state before and after their block. Tagged tokens
of these states are compared through inverse columns: every active row contributes the inverse of
its after token and of its before token, and the sums of the two columns differ by the claimed
initial and final states. After `continuity.rs`.
-/

namespace Zksm83

open Constraint BlockMetadata BlockBoundary BlockFrontend

abbrev uniformRowCount : ℕ := 2 ^ uniformNumVariables

instance neZeroUniformRowCount : NeZero uniformRowCount := ⟨by decide⟩

/-- The public encoding of a machine state. -/
structure NativeStateBoundary where
  scalars : Fin stateScalarCount → UInt64

structure NativeExecutionClaim where
  activeRowCount : UInt64
  transitionCount : UInt64
  initialState : NativeStateBoundary
  finalState : NativeStateBoundary

namespace Continuity

inductive ContinuityError where
  | shape
  | zeroChallenge
  | zeroDenominator
  | unsatisfied
  deriving DecidableEq, Repr

structure ContinuityChallenges where
  stateMix : NativeField
  inversePoint : NativeField

abbrev packedInverseColumnCount : ℕ := 5

/-- The capacity and resource bounds of a public claim. -/
def validate (claim : NativeExecutionClaim) : Except ContinuityError Unit :=
  let maximum := claim.activeRowCount.toNat * basicBlockInstructionBound
  if 2 ^ 64 ≤ maximum then .error .shape
  else if claim.activeRowCount.toNat = 0 ∨ uniformRowCount < claim.activeRowCount.toNat ∨
      claim.transitionCount.toNat < claim.activeRowCount.toNat ∨
      maximum < claim.transitionCount.toNat then .error .shape
  else .ok ()

section Relation

variable {R : Type*}

/-- A state scalar before or after the block of a row. -/
def rowState (row : Row R) (after : Bool) (scalar : ℕ) : R :=
  if scalar < localStateScalarCount then
    localStateValue (boundaryPlane row) (if after then basicBlockInstructionBound else 0) scalar
  else deviceStateValue (boundaryPlane row) after scalar

variable [Add R] [Sub R] [Mul R] [NatCast R]

/-- The mixing powers of the state scalars, the first power first. -/
def stateMixPower (mix : R) : ℕ → R
  | 0 => ((1 : ℕ) : R) * mix
  | scalar + 1 => stateMixPower mix scalar * mix

/-- The token of the state before or after the block of a row. -/
def stateTokenFromLayoutRow (row : Row R) (after : Bool) (tag mix : R) : R :=
  (List.range stateScalarCount).foldl
    (fun token scalar => token + stateMixPower mix scalar * rowState row after scalar) tag

def joinLimbs (low high : R) : R :=
  low + (((2 ^ 64 - 1 : ℕ) : R) + ((1 : ℕ) : R)) * high

def inverseFromRow (row : Row R) (start : ℕ) : R := joinLimbs (row start) (row (start + 1))

/-- The number of machine transitions of a row: one on machine rows, the active lanes otherwise. -/
def transitionValue (row : Row R) : R :=
  (List.range basicBlockInstructionBound).foldl (fun expected lane => expected + laneValue row lane)
    (blockActiveValue row - instructionValue row)

/-- The constraints of `ContinuityRelation` on a trace row followed by its inverse columns. -/
def evaluate (stateMix inversePoint : R) (row : Row R) : List R :=
  let active := blockActiveValue row
  let rowIndex := BlockMemory.memoryRowIndexValue row
  let after := stateTokenFromLayoutRow row true (rowIndex + ((1 : ℕ) : R)) stateMix
  let before := stateTokenFromLayoutRow row false rowIndex stateMix
  let start := BlockCpu.columnCount
  [(inversePoint - after) * inverseFromRow row start - active,
    (inversePoint - before) * inverseFromRow row (start + 2) - active,
    row (start + 4) - transitionValue row]

end Relation

/-- The token of a public state. -/
def stateTokenFromBoundary (boundary : NativeStateBoundary) (tag mix : NativeField) : NativeField :=
  ((List.ofFn boundary.scalars).foldl (fun (acc : NativeField × NativeField) scalar =>
    (acc.1 + acc.2 * ((scalar.toNat : ℕ) : NativeField), acc.2 * mix)) (tag, mix)).1

/-- The committed columns of an honest prover, as numbers below `2 ^ 64`. -/
abbrev TraceColumns : Type := ℕ → ℕ → ℕ

/-- A row of the committed columns, over the field. -/
def traceRow (trace : TraceColumns) (row : ℕ) : Row NativeField :=
  fun column => ((trace column row : ℕ) : NativeField)

/-- Addition of two 64-bit numbers that rejects an overflow. -/
def checkedAdd (left right : ℕ) : Except ContinuityError ℕ :=
  if left + right < 2 ^ 64 then .ok (left + right) else .error .shape

/-- The number of transitions of a row of an honest prover. -/
def transitionCount (trace : TraceColumns) (row : ℕ) : Except ContinuityError ℕ := do
  let laneCount ← (List.range basicBlockInstructionBound).foldlM
    (fun count lane => checkedAdd count (trace (laneColumn lane) row)) 0
  if trace instructionBlock row ≤ trace blockActive row then
    checkedAdd (trace blockActive row - trace instructionBlock row) laneCount
  else .error .shape

/-- The inverse requests of a row of an honest prover, tagged with the number of the row. -/
def continuityInverseRow (trace : TraceColumns) (challenges : ContinuityChallenges) (row : ℕ) :
    Except ContinuityError ((Fin 2 → SelectedDenominator NativeField) × ℕ) := do
  let rowTag : NativeField := ((row : ℕ) : NativeField)
  let after := stateTokenFromLayoutRow (traceRow trace row) true (rowTag + ((1 : ℕ) : NativeField))
    challenges.stateMix
  let before := stateTokenFromLayoutRow (traceRow trace row) false rowTag challenges.stateMix
  let transition ← transitionCount trace row
  let scale : NativeField := ((trace blockActive row : ℕ) : NativeField)
  pure (![⟨scale, challenges.inversePoint - after⟩, ⟨scale, challenges.inversePoint - before⟩],
    transition)

/-- The two limbs of a field element. -/
def splitField (value : NativeField) : ℕ × ℕ := (value.val % 2 ^ 64, value.val / 2 ^ 64)

/-- The five committed numbers of a row. -/
def continuityLimbRow (inverses : Fin 2 → SelectedDenominator NativeField) (transition : ℕ) :
    Except ContinuityError (Fin packedInverseColumnCount → ℕ) :=
  let after := splitField (inverses 0).denominator
  let before := splitField (inverses 1).denominator
  .ok ![after.1, after.2, before.1, before.2, transition]

def mapBatchError : FieldBatchError → ContinuityError
  | .shape => .shape
  | .zeroDenominator => .zeroDenominator

/-- The inverse columns of an honest prover. -/
def inverseColumns (trace : TraceColumns) (challenges : ContinuityChallenges) :
    Except ContinuityError (Fin packedInverseColumnCount → List ℕ) :=
  FieldBatch.selectedInverseColumns FieldBatch.fieldBatchRowChunk uniformRowCount
    (continuityInverseRow trace challenges) continuityLimbRow mapBatchError

/-- The point with all coordinates one half. -/
def halfPoint : List NativeField := List.replicate uniformNumVariables ((2 : ℕ) : NativeField)⁻¹

def evaluateFieldColumn (values : List NativeField) : Except ContinuityError NativeField :=
  (FieldFold.evaluateMle values halfPoint).mapError (fun _ => .shape)

def inverse (value : NativeField) : Except ContinuityError NativeField :=
  if value = 0 then .error .zeroDenominator else .ok value⁻¹

/-- The equations between the evaluated inverse columns and the public claim. -/
def checkSum (values : Fin packedInverseColumnCount → NativeField) (claim : NativeExecutionClaim)
    (challenges : ContinuityChallenges) : Except ContinuityError Unit := do
  let after := joinLimbs (values 0) (values 1)
  let before := joinLimbs (values 2) (values 3)
  let initial := stateTokenFromBoundary claim.initialState ((0 : ℕ) : NativeField)
    challenges.stateMix
  let final := stateTokenFromBoundary claim.finalState
    ((claim.activeRowCount.toNat : ℕ) : NativeField) challenges.stateMix
  let initialInverse ← inverse (challenges.inversePoint - initial)
  let finalInverse ← inverse (challenges.inversePoint - final)
  let rows : NativeField := ((uniformRowCount : ℕ) : NativeField)
  if rows * (after - before) + initialInverse - finalInverse ≠ 0 then .error .unsatisfied
  else if rows * values 4 ≠ ((claim.transitionCount.toNat : ℕ) : NativeField) then
    .error .unsatisfied
  else .ok ()

/-- Evaluation of the inverse columns at one half, followed by the check. -/
def evaluateAndCheck (columns : Fin packedInverseColumnCount → List NativeField)
    (claim : NativeExecutionClaim) (challenges : ContinuityChallenges) :
    Except ContinuityError Unit := do
  let afterLow ← evaluateFieldColumn (columns 0)
  let afterHigh ← evaluateFieldColumn (columns 1)
  let beforeLow ← evaluateFieldColumn (columns 2)
  let beforeHigh ← evaluateFieldColumn (columns 3)
  let transitions ← evaluateFieldColumn (columns 4)
  checkSum ![afterLow, afterHigh, beforeLow, beforeHigh, transitions] claim challenges

end Continuity

end Zksm83
