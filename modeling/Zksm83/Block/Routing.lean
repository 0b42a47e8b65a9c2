import Zksm83.Block.Metadata

/-!
# Routing of M-cycles and bus events to lanes

A packed instruction block shares six M-cycle slots and five bus slots between its lanes. The
routing columns hold one owner bit for every slot and lane, and the relation asks the owned slots
of each resource to tile the active lanes in order. After `block_routing.rs`.
-/

namespace Zksm83

open Constraint

namespace BlockRouting

/-- Number of routing columns, the metadata included. -/
abbrev columnCount : ℕ := 50

abbrev cycleOwnerStart : ℕ := BlockMetadata.columnCount

abbrev busOwnerStart : ℕ :=
  cycleOwnerStart + basicBlockMCycleBound * basicBlockInstructionBound

variable {R : Type*}

/-- The owner bit of a slot and a lane in the resource that starts at column `start`. -/
def owner (row : Row R) (start slot lane : ℕ) : R :=
  row (start + (slot * basicBlockInstructionBound + lane))

/-- The owner bit of a bus slot. -/
def busOwnerValue (row : Row R) (slot lane : ℕ) : R := owner row busOwnerStart slot lane

/-- The owner bit of an M-cycle slot. -/
def cycleOwnerValue (row : Row R) (slot lane : ℕ) : R := owner row cycleOwnerStart slot lane

variable [Add R] [Sub R] [Mul R] [NatCast R]

/-- The lanes that must not own the slot after one that `lane` owns. -/
def invalidNext (row : Row R) (start slot lane : ℕ) : R :=
  total (((List.range basicBlockInstructionBound).filter
    (fun next => next < lane || lane + 1 < next)).map (owner row start (slot + 1)))

/-- Owned slots form a prefix, and ownership moves on by at most one lane per slot. -/
def constrainResourceTransition (row : Row R) (start slot : ℕ) : List R :=
  let one : R := ((1 : ℕ) : R)
  let currentSum := totalOver basicBlockInstructionBound (owner row start slot)
  let nextSum := totalOver basicBlockInstructionBound (owner row start (slot + 1))
  (one - currentSum) * nextSum ::
    (List.range basicBlockInstructionBound).map (fun lane =>
      owner row start slot lane * invalidNext row start slot lane)

/-- The slots a lane owns, counted in the field. -/
def ownedCount (row : Row R) (slots start lane : ℕ) : R :=
  totalOver slots (fun slot => owner row start slot lane)

/-- The constraints on one shared resource of `slots` slots. -/
def constrainResource (slots : ℕ) (row : Row R) (start : ℕ) (instruction : R) : List R :=
  let one : R := ((1 : ℕ) : R)
  (List.range slots).flatMap (fun slot =>
      (List.range basicBlockInstructionBound).map (fun lane =>
        boolean (owner row start slot lane)) ++
      [boolean (totalOver basicBlockInstructionBound (owner row start slot))]) ++
    (List.range basicBlockInstructionBound).flatMap (fun lane =>
      let active := BlockMetadata.laneValue row lane
      let count := ownedCount row slots start lane
      [(one - active) * count,
        active * productFrom one ((List.range slots).map (fun allowed =>
          count - ((allowed + 1 : ℕ) : R)))]) ++
    [owner row start 0 0 - instruction] ++
    (List.range (slots - 1)).flatMap (constrainResourceTransition row start)

/-- All routing constraints of a row. -/
def evaluate (row : Row R) : List R :=
  let instruction := BlockMetadata.instructionValue row
  BlockMetadata.evaluate row ++
    constrainResource basicBlockMCycleBound row cycleOwnerStart instruction ++
    constrainResource basicBlockBusEventBound row busOwnerStart instruction

variable {S : Type*} [Add S] [Sub S] [Mul S] [NatCast S]

@[simp] theorem map_owner (φ : ArithHom R S) (row : Row R) (start slot lane : ℕ) :
    φ (owner row start slot lane) = owner (φ.row row) start slot lane := rfl

@[simp] theorem map_busOwnerValue (φ : ArithHom R S) (row : Row R) (slot lane : ℕ) :
    φ (busOwnerValue row slot lane) = busOwnerValue (φ.row row) slot lane := rfl

@[simp] theorem map_cycleOwnerValue (φ : ArithHom R S) (row : Row R) (slot lane : ℕ) :
    φ (cycleOwnerValue row slot lane) = cycleOwnerValue (φ.row row) slot lane := rfl

@[simp] theorem map_constrainResourceTransition (φ : ArithHom R S) (row : Row R)
    (start slot : ℕ) :
    (constrainResourceTransition row start slot).map φ =
      constrainResourceTransition (φ.row row) start slot := by
  simp [constrainResourceTransition, invalidNext, Function.comp_def]

@[simp] theorem map_constrainResource (φ : ArithHom R S) (slots : ℕ) (row : Row R) (start : ℕ)
    (instruction : R) :
    (constrainResource slots row start instruction).map φ =
      constrainResource slots (φ.row row) start (φ instruction) := by
  simp [constrainResource, ownedCount, List.map_flatMap, Function.comp_def]

@[simp] theorem map_evaluate (φ : ArithHom R S) (row : Row R) :
    (evaluate row).map φ = evaluate (φ.row row) := by
  simp [evaluate]

end BlockRouting

end Zksm83
