import Zksm83.Library.Agreement
import Zksm83.Soundness.Forgery
import Zksm83.Soundness.InstructionReading

/-!
# Reading rows that are written down by hand

What a lane of a written row executes and the state at its boundaries are read off the assignment
of the row. Two rows that agree in most columns are checked in one evaluation.
-/

namespace Zksm83

open Constraint BlockMetadata BlockBoundary BlockFrontend PackedLane Reading

namespace Forgery

variable {number : ℕ}

theorem laneValue_nativeRow {lane : ℕ}
    (h : (laneValue (Assignment.residueRow fieldModulus 128 number) lane).val = 1) :
    laneValue (nativeRow number) lane = 1 := by
  rw [laneValue, nativeRow_eq h, Nat.cast_one]

/-- The opcode of a lane of a written row. -/
theorem laneAddress_nativeRow {lane address : ℕ} (haddress : address < 512)
    (h : ∀ bit < 9, (isaAddressBit (Assignment.residueRow fieldModulus 128 number) lane bit).val =
      address / 2 ^ bit % 2) :
    laneAddress (nativeRow number) lane = address := by
  rw [laneAddress, isaPlane, columnsNat_slice]
  refine columnsNat_nativeRow 9 address haddress (fun bit hbit => ?_)
  rw [add_assoc]
  exact h bit hbit

/-- A lane of a written row with the outputs of the fixed table. -/
theorem isaBound_nativeRow {lane address : ℕ}
    (haddress : laneAddress (nativeRow number) lane = address)
    (h : ∀ output < isaOutputCount,
      (isa (Assignment.residueRow fieldModulus 128 number) lane output).val =
        (IsaTable.outputs address).getD output 0) : IsaBound (nativeRow number) lane := by
  intro output houtput
  rw [haddress]
  exact nativeRow_eq (h output houtput)

/-- A local scalar of a written row. -/
theorem scalar_nativeRow {boundary state n : ℕ} (hn : n < 1000000)
    (h : (localStateValue (boundaryPlane (Assignment.residueRow fieldModulus 128 number)) boundary
      state).val = n) : scalar (nativeRow number) boundary state = n := by
  have heq : localStateValue (boundaryPlane (nativeRow number)) boundary state =
      (n : NativeField) := nativeRow_eq h
  rw [scalar, heq, ZMod.val_natCast_of_lt (hn.trans (by norm_num))]

/-- Two written rows at once: one value where they agree, and the first beside the second. -/
def pairRow (first second : ℕ) : Row (Cases (Residue fieldModulus)) := fun column =>
  let left := Assignment.residueRow fieldModulus 128 first column
  let right := Assignment.residueRow fieldModulus 128 second column
  bif Nat.beq left.val right.val then .uniform left else .each left right right right

/-- The two rows of a pair. -/
theorem row_pairRow (first second index : ℕ) :
    (Cases.caseHom index).row (pairRow first second) =
      Assignment.residueRow fieldModulus 128 (if index = 0 then first else second) := by
  funext column
  show (pairRow first second column).case index = _
  simp only [pairRow]
  cases hagree : Nat.beq (Assignment.residueRow fieldModulus 128 first column).val
      (Assignment.residueRow fieldModulus 128 second column).val with
  | true =>
    have heq : Assignment.residueRow fieldModulus 128 first column =
        Assignment.residueRow fieldModulus 128 second column :=
      congrArg Residue.mk (Nat.eq_of_beq_eq_true hagree)
    split <;> simp [Cases.case, heq]
  | false =>
    split
    case isTrue hzero => simp [Cases.case, hzero]
    case isFalse hne => simp [Cases.case, hne]

/-- Both rows of a pair satisfy the relation if their constraints vanish over residues. -/
theorem holds_pairRow {first second : ℕ}
    (hzero : (BlockCpu.evaluate (pairRow first second)).all
      (Cases.all (fun residue => residue.val % fieldModulus == 0)) = true) :
    Holds (BlockCpu.evaluate (nativeRow first)) ∧ Holds (BlockCpu.evaluate (nativeRow second)) := by
  have hcase : ∀ index, Residue.allZero (BlockCpu.evaluate
      (Assignment.residueRow fieldModulus 128 (if index = 0 then first else second))) = true := by
    intro index
    have hinverses : (Cases.caseHom (K := Residue fieldModulus) index).KeepsInverses :=
      fun _ => rfl
    rw [← row_pairRow, ← BlockCpu.map_evaluate hinverses, Residue.allZero, List.all_map]
    refine List.all_eq_true.mpr ?_
    intro constraint hconstraint
    exact Cases.test_case (List.all_eq_true.mp hzero constraint hconstraint) index
  exact ⟨holds_nativeRow (hcase 0), holds_nativeRow (hcase 1)⟩

end Forgery

end Zksm83
