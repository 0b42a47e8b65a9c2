import Zksm83.Library.Constraint

/-!
# Shared activity metadata of packed blocks

Every plane of the packed-block witness starts with the same six columns: whether the row holds a
block, whether that block consists of instructions, and which of the four instruction lanes are
active. After `block_metadata.rs`.

A relation is modelled by the list of constraint values it pushes, in push order, as a function of
the row. The bounds checks of the source fail only on rows or buffers of the wrong length, and
every column read here has a fixed index below the declared column count.
-/

namespace Zksm83

open Constraint

/-- Instructions per packed block. -/
abbrev basicBlockInstructionBound : ℕ := 4

/-- M-cycles per packed instruction block. -/
abbrev basicBlockMCycleBound : ℕ := 6

/-- Ordered bus events per packed block. -/
abbrev basicBlockBusEventBound : ℕ := 5

namespace BlockMetadata

/-- Number of metadata columns at the start of every plane. -/
abbrev columnCount : ℕ := 6

abbrev blockActive : ℕ := 0

abbrev instructionBlock : ℕ := blockActive + 1

abbrev laneActiveStart : ℕ := instructionBlock + 1

variable {R : Type*}

/-- The column of a lane's activity flag. -/
def laneColumn (lane : ℕ) : ℕ := laneActiveStart + lane

/-- Whether the row holds a block. -/
def blockActiveValue (row : Row R) : R := row blockActive

/-- Whether the block consists of instructions. -/
def instructionValue (row : Row R) : R := row instructionBlock

/-- Whether instruction lane `lane` is active. -/
def laneValue (row : Row R) (lane : ℕ) : R := row (laneColumn lane)

variable [Add R] [Sub R] [Mul R] [NatCast R]

/-- The metadata constraints: bits, no instruction outside a block, and a prefix of active lanes
that starts exactly in instruction blocks. -/
def evaluate (row : Row R) : List R :=
  let one : R := ((1 : ℕ) : R)
  let active := blockActiveValue row
  let instruction := instructionValue row
  [boolean active, boolean instruction, instruction * (one - active)] ++
    (List.range basicBlockInstructionBound).map (fun lane => boolean (laneValue row lane)) ++
    (List.range (basicBlockInstructionBound - 1)).map (fun lane =>
      laneValue row (lane + 1) * (one - laneValue row lane)) ++
    [laneValue row 0 - instruction]

variable {S : Type*} [Add S] [Sub S] [Mul S] [NatCast S]

@[simp] theorem map_blockActiveValue (φ : ArithHom R S) (row : Row R) :
    φ (blockActiveValue row) = blockActiveValue (φ.row row) := rfl

@[simp] theorem map_instructionValue (φ : ArithHom R S) (row : Row R) :
    φ (instructionValue row) = instructionValue (φ.row row) := rfl

@[simp] theorem map_laneValue (φ : ArithHom R S) (row : Row R) (lane : ℕ) :
    φ (laneValue row lane) = laneValue (φ.row row) lane := rfl

@[simp] theorem map_evaluate (φ : ArithHom R S) (row : Row R) :
    (evaluate row).map φ = evaluate (φ.row row) := by
  simp [evaluate, Function.comp_def]

end BlockMetadata

end Zksm83
