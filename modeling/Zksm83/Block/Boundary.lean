import Zksm83.Block.Routing

/-!
# State boundaries of packed blocks

The boundary plane holds the 21 local state scalars at the five boundaries around the four lanes,
and the 17 device scalars before and after the whole block. The control plane joins routing and
boundaries and equates their metadata. After `block_boundary.rs`, `block_control.rs` and the scalar
order of `state.rs`.
-/

namespace Zksm83

open Constraint

/-- Positions of the state scalars, in the order of `encode_state_scalars`. -/
abbrev stateScalarCount : ℕ := 38
abbrev stateA : ℕ := 0
abbrev stateB : ℕ := 1
abbrev stateC : ℕ := 2
abbrev stateD : ℕ := 3
abbrev stateE : ℕ := 4
abbrev stateH : ℕ := 5
abbrev stateL : ℕ := 6
abbrev stateFlags : ℕ := 7
abbrev statePc : ℕ := 8
abbrev stateSp : ℕ := 9
abbrev stateIme : ℕ := 10
abbrev stateRunState : ℕ := 11
abbrev stateCpuMCycles : ℕ := 12
abbrev stateMbc3RamEnabled : ℕ := 13
abbrev stateMbc3RomBank : ℕ := 14
abbrev stateMbc3RamRtcSelect : ℕ := 15
abbrev stateInputNext : ℕ := 16
abbrev stateOutputNext : ℕ := 17
abbrev stateBusNext : ℕ := 18
abbrev stateIsaNext : ℕ := 19
abbrev stateMachineProfile : ℕ := 20
abbrev stateInterruptRequest : ℕ := 21
abbrev stateInterruptEnable : ℕ := 22
abbrev stateDmgLowRegisterPack : ℕ := 23
abbrev stateDmgHighRegisterPack : ℕ := 24
abbrev statePpuLine : ℕ := 25
abbrev statePpuDot : ℕ := 26
abbrev stateTimerDiv : ℕ := 27
abbrev stateTimerCounter : ℕ := 28
abbrev stateTimerReloadPhase : ℕ := 29
abbrev stateTimerEdgeLatch : ℕ := 30
abbrev stateApuControlLowPack : ℕ := 31
abbrev stateApuControlHighPack : ℕ := 32
abbrev stateApuMixerPack : ℕ := 33
abbrev stateApuWaveLowPack : ℕ := 34
abbrev stateApuWaveHighPack : ℕ := 35
abbrev stateJoypadPack : ℕ := 36
abbrev stateDmaPack : ℕ := 37

namespace BlockBoundary

/-- State scalars that every lane boundary carries. -/
abbrev localStateScalarCount : ℕ := 21

/-- State scalars that only the outer boundaries carry. -/
abbrev deviceStateScalarCount : ℕ := stateScalarCount - localStateScalarCount

abbrev columnCount : ℕ := 145

abbrev localBoundaryCount : ℕ := basicBlockInstructionBound + 1

abbrev localBoundaryStart : ℕ := BlockMetadata.columnCount

abbrev deviceBeforeStart : ℕ := localBoundaryStart + localBoundaryCount * localStateScalarCount

abbrev deviceAfterStart : ℕ := deviceBeforeStart + deviceStateScalarCount

abbrev columnEnd : ℕ := deviceAfterStart + deviceStateScalarCount

variable {R : Type*}

/-- The column of a local scalar at a lane boundary. -/
def localStateColumn (boundary scalar : ℕ) : ℕ :=
  localBoundaryStart + (boundary * localStateScalarCount + scalar)

/-- A local scalar at a lane boundary. -/
def localStateValue (row : Row R) (boundary scalar : ℕ) : R :=
  row (localStateColumn boundary scalar)

/-- The column of a device scalar before or after the block, under its state index. -/
def deviceStateColumn (after : Bool) (scalar : ℕ) : ℕ :=
  (if after then deviceAfterStart else deviceBeforeStart) + (scalar - localStateScalarCount)

/-- A device scalar before or after the block. -/
def deviceStateValue (row : Row R) (after : Bool) (scalar : ℕ) : R :=
  row (deviceStateColumn after scalar)

variable [Add R] [Sub R] [Mul R] [NatCast R]

/-- Padding rows are zero, machine rows leave the inner boundaries zero, and inactive lanes copy
their boundary. -/
def constrainBoundaries (row : Row R) : List R :=
  let one : R := ((1 : ℕ) : R)
  let blockActive := BlockMetadata.blockActiveValue row
  let instruction := BlockMetadata.instructionValue row
  let padding := one - blockActive
  let machine := blockActive - instruction
  (List.range (columnEnd - localBoundaryStart)).map (fun column =>
      padding * row (localBoundaryStart + column)) ++
    (List.range (basicBlockInstructionBound - 1)).flatMap (fun boundary =>
      (List.range localStateScalarCount).map (fun scalar =>
        machine * localStateValue row (boundary + 1) scalar)) ++
    (List.range basicBlockInstructionBound).flatMap (fun lane =>
      let inactive := one - BlockMetadata.laneValue row lane
      (List.range localStateScalarCount).map (fun scalar =>
        instruction * inactive *
          (localStateValue row (lane + 1) scalar - localStateValue row lane scalar)))

/-- All boundary constraints of a row. -/
def evaluate (row : Row R) : List R :=
  BlockMetadata.evaluate row ++ constrainBoundaries row

variable {S : Type*} [Add S] [Sub S] [Mul S] [NatCast S]

@[simp] theorem map_localStateValue (φ : ArithHom R S) (row : Row R) (boundary scalar : ℕ) :
    φ (localStateValue row boundary scalar) = localStateValue (φ.row row) boundary scalar := rfl

@[simp] theorem map_deviceStateValue (φ : ArithHom R S) (row : Row R) (after : Bool)
    (scalar : ℕ) :
    φ (deviceStateValue row after scalar) = deviceStateValue (φ.row row) after scalar := rfl

@[simp] theorem map_constrainBoundaries (φ : ArithHom R S) (row : Row R) :
    (constrainBoundaries row).map φ = constrainBoundaries (φ.row row) := by
  simp [constrainBoundaries, List.map_flatMap, Function.comp_def]

@[simp] theorem map_evaluate (φ : ArithHom R S) (row : Row R) :
    (evaluate row).map φ = evaluate (φ.row row) := by
  simp [evaluate]

end BlockBoundary

/-- Equality of the metadata columns of two planes. -/
def constrainSharedMetadata {R : Type*} [Sub R] (left right : Row R) : List R :=
  (List.range BlockMetadata.columnCount).map (fun column => left column - right column)

@[simp] theorem map_constrainSharedMetadata {R S : Type*} [Add R] [Sub R] [Mul R] [NatCast R]
    [Add S] [Sub S] [Mul S] [NatCast S] (φ : ArithHom R S) (left right : Row R) :
    (constrainSharedMetadata left right).map φ =
      constrainSharedMetadata (φ.row left) (φ.row right) := by
  simp [constrainSharedMetadata, Function.comp_def]

namespace BlockControl

abbrev columnCount : ℕ := BlockRouting.columnCount + BlockBoundary.columnCount

variable {R : Type*} [Add R] [Sub R] [Mul R] [NatCast R]

/-- Routing, boundaries, and equality of their metadata. -/
def evaluate (row : Row R) : List R :=
  let boundary := slice row BlockRouting.columnCount
  BlockRouting.evaluate row ++ BlockBoundary.evaluate boundary ++
    constrainSharedMetadata row boundary

variable {S : Type*} [Add S] [Sub S] [Mul S] [NatCast S]

@[simp] theorem map_evaluate (φ : ArithHom R S) (row : Row R) :
    (evaluate row).map φ = evaluate (φ.row row) := by
  simp [evaluate]

end BlockControl

end Zksm83
