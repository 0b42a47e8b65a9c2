import Zksm83.Block.Boundary

/-!
# Lane-local fixed-ISA queries

Every lane carries the nine address bits of its row in the fixed ISA table, the 38 outputs of that
row, and its branch decision. Inactive lanes carry the canonical padding query. That the outputs
are the table's row at the address is the business of the ISA lookup argument, not of this
relation. After `block_isa.rs` and `block_isa_control.rs`, with the output layout of `isa.rs`.
-/

namespace Zksm83

open Constraint

abbrev isaAddressBitCount : ℕ := 9
abbrev isaOutputCount : ℕ := 38

/-- The undefined opcode `0xd3`, whose table row is all zero. -/
abbrev isaPaddingAddress : ℕ := 0x00d3

/-- Positions of the fixed-ISA outputs. -/
abbrev isaValid : ℕ := 0
abbrev isaBaseMCycles : ℕ := 3
abbrev isaTakenMCycles : ℕ := 4
abbrev isaOpcodeFetches : ℕ := 5
abbrev isaImmediateReads : ℕ := 6
abbrev isaDataReads : ℕ := 7
abbrev isaDataWrites : ℕ := 8
abbrev isaTakenDataReads : ℕ := 9
abbrev isaTakenDataWrites : ℕ := 10
abbrev isaWriteBitsStart : ℕ := 11
abbrev isaTakenTiming : ℕ := 24
abbrev isaOperationBitsStart : ℕ := 25
abbrev isaArgumentZeroBitsStart : ℕ := 31
abbrev isaArgumentOneBitsStart : ℕ := 34

namespace BlockIsa

abbrev laneColumnCount : ℕ := isaAddressBitCount + isaOutputCount + 1

abbrev columnCount : ℕ :=
  BlockMetadata.columnCount + basicBlockInstructionBound * laneColumnCount

abbrev laneBranchOffset : ℕ := isaAddressBitCount + isaOutputCount

/-- First column of a lane's query. -/
def laneStart (lane : ℕ) : ℕ := BlockMetadata.columnCount + lane * laneColumnCount

variable {R : Type*}

/-- A fixed-ISA output of a lane. -/
def laneOutputValue (row : Row R) (lane output : ℕ) : R :=
  row (laneStart lane + isaAddressBitCount + output)

/-- An address bit of a lane's query. -/
def laneAddressBitValue (row : Row R) (lane bit : ℕ) : R := row (laneStart lane + bit)

/-- The branch decision of a lane. -/
def laneBranchValue (row : Row R) (lane : ℕ) : R := row (laneStart lane + laneBranchOffset)

variable [Add R] [Sub R] [Mul R] [NatCast R]

/-- The padding query of an inactive lane, column by column. -/
def inactiveValue (offset : ℕ) : R :=
  if offset < isaAddressBitCount then ((isaPaddingAddress / 2 ^ offset % 2 : ℕ) : R)
  else ((0 : ℕ) : R)

/-- Address and branch bits are bits, inactive lanes hold the padding query, active lanes a
defined row. -/
def constrainLanes (row : Row R) : List R :=
  let one : R := ((1 : ℕ) : R)
  (List.range basicBlockInstructionBound).flatMap (fun lane =>
    let active := BlockMetadata.laneValue row lane
    (List.range isaAddressBitCount).map (fun bit => boolean (laneAddressBitValue row lane bit)) ++
      [boolean (laneBranchValue row lane)] ++
      (List.range laneColumnCount).map (fun offset =>
        (one - active) * (row (laneStart lane + offset) - inactiveValue offset)) ++
      [active * (laneOutputValue row lane isaValid - one)])

/-- All constraints of the ISA plane. -/
def evaluate (row : Row R) : List R :=
  BlockMetadata.evaluate row ++ constrainLanes row

variable {S : Type*} [Add S] [Sub S] [Mul S] [NatCast S]

@[simp] theorem map_laneOutputValue (φ : ArithHom R S) (row : Row R) (lane output : ℕ) :
    φ (laneOutputValue row lane output) = laneOutputValue (φ.row row) lane output := rfl

@[simp] theorem map_laneAddressBitValue (φ : ArithHom R S) (row : Row R) (lane bit : ℕ) :
    φ (laneAddressBitValue row lane bit) = laneAddressBitValue (φ.row row) lane bit := rfl

@[simp] theorem map_laneBranchValue (φ : ArithHom R S) (row : Row R) (lane : ℕ) :
    φ (laneBranchValue row lane) = laneBranchValue (φ.row row) lane := rfl

@[simp] theorem map_inactiveValue (φ : ArithHom R S) (offset : ℕ) :
    φ (inactiveValue offset) = inactiveValue offset := by
  unfold inactiveValue
  split <;> simp

@[simp] theorem map_constrainLanes (φ : ArithHom R S) (row : Row R) :
    (constrainLanes row).map φ = constrainLanes (φ.row row) := by
  simp [constrainLanes, List.map_flatMap, Function.comp_def]

@[simp] theorem map_evaluate (φ : ArithHom R S) (row : Row R) :
    (evaluate row).map φ = evaluate (φ.row row) := by
  simp [evaluate]

end BlockIsa

namespace BlockIsaControl

abbrev columnCount : ℕ := BlockControl.columnCount + BlockIsa.columnCount

variable {R : Type*} [Add R] [Sub R] [Mul R] [NatCast R]

/-- Control plane, ISA plane, and equality of their metadata. -/
def evaluate (row : Row R) : List R :=
  let isa := slice row BlockControl.columnCount
  BlockControl.evaluate row ++ BlockIsa.evaluate isa ++ constrainSharedMetadata row isa

variable {S : Type*} [Add S] [Sub S] [Mul S] [NatCast S]

@[simp] theorem map_evaluate (φ : ArithHom R S) (row : Row R) :
    (evaluate row).map φ = evaluate (φ.row row) := by
  simp [evaluate]

end BlockIsaControl

end Zksm83
