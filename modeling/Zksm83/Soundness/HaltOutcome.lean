import Zksm83.Library.Agreement
import Zksm83.Core.Transition
import Zksm83.Soundness.WrittenRows
import Zksm83.Soundness.DataAddresses

/-!
# The outcome of HALT

The core leaves a HALT in the HALT-bug state if an interrupt is pending that the master enable
does not admit, and in the halted state otherwise. The lane constraint of HALT admits both states
and reads neither IF nor IE, so the outcome is settled only where the next lane of the block is
active, which cannot start in the halted state. Where the HALT ends the block, changing the run
state after it from one outcome to the other keeps the row satisfied. `haltForced_iff` is the
theorem to read first.
-/

namespace Zksm83

open Constraint BlockMetadata BlockBoundary BlockFrontend PackedLane Reading

namespace HaltOutcome

/-- The column of the run state at a boundary. -/
def runStateColumn (boundary : ℕ) : ℕ :=
  BlockRouting.columnCount + localStateColumn boundary stateRunState

theorem runStateColumn_eq (boundary : ℕ) : runStateColumn boundary = 67 + 21 * boundary := by
  show 50 + (6 + (boundary * 21 + 11)) = 67 + 21 * boundary
  omega

/-- The column holds the run state at a boundary after the lane. -/
def IsLaterRunState (lane column : ℕ) : Prop :=
  ∃ boundary ≤ basicBlockInstructionBound, lane < boundary ∧ column = runStateColumn boundary

/-- Later run states are every twenty-first column of the boundary plane. -/
theorem isLaterRunState_iff (lane column : ℕ) :
    IsLaterRunState lane column ↔ 77 + 21 * lane ≤ column ∧ column < 161 ∧ column % 21 = 4 := by
  constructor
  · rintro ⟨boundary, hle, hlt, rfl⟩
    have hle : boundary ≤ 4 := hle
    rw [runStateColumn_eq]
    omega
  · rintro ⟨hlower, hupper, hmod⟩
    refine ⟨(column - 67) / 21, ?_, ?_, ?_⟩
    · show (column - 67) / 21 ≤ 4
      omega
    · omega
    · rw [runStateColumn_eq]
      omega

instance (lane column : ℕ) : Decidable (IsLaterRunState lane column) :=
  decidable_of_iff _ (isLaterRunState_iff lane column).symm

/-- The row with another run state at every boundary after the lane. -/
def withRunState (row : Row NativeField) (lane : ℕ) (value : NativeField) : Row NativeField :=
  fun column => if IsLaterRunState lane column then value else row column

/-- The columns of the fixed-ISA outputs that HALT needs: the write bit of the run state and the
operation bits. -/
def isHaltOutput (offset : ℕ) : Bool :=
  offset == isaWriteBitsStart + stateRunState ||
    (isaOperationBitsStart ≤ offset && offset < isaOperationBitsStart + 6)

/-- What is known about a column that depends on the lane of the HALT. -/
def laneKnowledge (lane column : ℕ) : Knowledge :=
  if column < 56 then
    if column % 50 < 2 + lane then .same
    else if column % 50 = 2 + lane then .fixed 1 else .fixed 0
  else if column < 161 then if column < 77 + 21 * lane then .same else .moved 1 3
  else if column < 210 + 48 * lane then .same
  else if column < 248 + 48 * lane then
    .fixed ((IsaTable.outputs 0x76).getD (column - (210 + 48 * lane)) 0)
  else .same

/-- Whether the knowledge about a column depends on the lane of the HALT. -/
def varies (column : ℕ) : Bool :=
  (2 ≤ column && column < 6) || (52 ≤ column && column < 56) ||
    (77 ≤ column && column < 161 && column % 21 == 4) ||
    (210 ≤ column && column < 393 && isHaltOutput ((column - 210) % 48))

/-- What is known about every column if the run state after a final HALT is changed: the block is
an instruction block, its machine columns are zero, the HALT lane is active, and the lanes after it
are not. -/
def knowledge : Row (Cases Knowledge) := fun column =>
  bif Nat.ble 400 column then
    bif Nat.ble 729 column && Nat.ble column 795 then .uniform (.fixed 0) else .uniform .same
  else bif varies column then
    .each (laneKnowledge 0 column) (laneKnowledge 1 column) (laneKnowledge 2 column)
      (laneKnowledge 3 column)
  else bif column % 50 < 2 && column < 52 then .uniform (.fixed 1)
  else .uniform .same

/-- Every constraint of the packed relation survives the change. -/
theorem evaluate_knowledge_accepted :
    (BlockCpu.evaluate knowledge).all (Cases.all Knowledge.accepted) = true :=
  BlockCpu.all_evaluate _ _ (by decide +kernel) (by decide +kernel) (by decide +kernel)
    (by decide +kernel) (by decide +kernel) (by decide +kernel) (by decide +kernel)

/-- The lane executes HALT. -/
structure Halts (row : Row NativeField) (lane : ℕ) : Prop where
  active : laneValue row lane = 1
  isaBound : IsaBound row lane
  opcode : laneAddress row lane = 0x76

/-- The machine columns of an instruction block are zero. -/
theorem machine_column_eq_zero {row : Row NativeField} (hrow : MemorySlices row)
    (hinstruction : instructionValue row = 1) (hblock : blockActiveValue row = 1)
    (column : ℕ) (hcolumn : column < 67) : row (729 + column) = 0 := by
  have h := hrow.machine
  simp only [BlockMachine.constrainMachine, holds_append] at h
  have howned := h.1.1.1.1.1.1.1
  simp only [ownedBits, holds_flatMap, List.mem_range, holds_cons] at howned
  have hzero := (howned column hcolumn).2.1
  rw [hinstruction, hblock, sub_self, Nat.cast_one, sub_zero, one_mul] at hzero
  exact hzero

/-- The lanes after one that is not active are not active. -/
theorem laneValue_later {row : Row NativeField} (hrow : MemorySlices row) {lane : ℕ}
    (later : ℕ) (hlater : later < basicBlockInstructionBound) (hlt : lane < later)
    (hnext : laneValue row (lane + 1) = 0) : laneValue row later = 0 := by
  induction later, hlt using Nat.le_induction with
  | base => exact hnext
  | succ later hle ih =>
    have hpred := ih (by omega)
    by_contra hne
    have hone := (isBit_laneValue hrow.toBlockSlices hlater).resolve_left hne
    rw [laneValue_pred hrow.toBlockSlices hlater hone] at hpred
    exact one_ne_zero hpred

/-- No lane of the block follows the lane. -/
def EndsBlock (row : Row NativeField) (lane : ℕ) : Prop :=
  lane + 1 < basicBlockInstructionBound → laneValue row (lane + 1) = 0

section Change

variable {row : Row NativeField} (hrow : MemorySlices row) {lane : ℕ}
  (hlane : lane < basicBlockInstructionBound) (hhalts : Halts row lane)
  (hends : EndsBlock row lane)

include hrow hlane hhalts hends

/-- The metadata columns of the row that do not depend on the lanes before the HALT. -/
theorem metadata_column (column : ℕ) (hcolumn : column < 6)
    (hlarge : 2 + lane ≤ column ∨ column < 2) :
    row column = (if column ≤ 2 + lane then 1 else 0) := by
  have hlane4 : lane < 4 := hlane
  by_cases hlow : column ≤ 2 + lane
  · rw [if_pos hlow]
    have hinstruction := instructionValue_eq_one hrow.toBlockSlices hlane hhalts.active
    have hcases : column = 0 ∨ column = 1 ∨ column = 2 + lane := by omega
    rcases hcases with rfl | rfl | rfl
    · have h := hrow.metadata
      simp only [BlockMetadata.evaluate, holds_append, holds_cons] at h
      obtain ⟨⟨⟨-, -, hactive, -⟩, -⟩, -⟩ := h.1
      rw [hinstruction, one_mul, Nat.cast_one] at hactive
      exact (sub_eq_zero.mp hactive).symm
    · exact hinstruction
    · exact hhalts.active
  · rw [if_neg hlow]
    have hlater := laneValue_later hrow (column - 2) (by show column - 2 < 4; omega)
      (by omega) (hends (by show lane + 1 < 4; omega))
    rw [show column = 2 + (column - 2) by omega]
    exact hlater

/-- The boundary plane repeats the metadata at column 50. -/
theorem metadata_column_mod (column : ℕ) (hcolumn : column < 56)
    (hlarge : 2 + lane ≤ column % 50 ∨ column % 50 < 2) (hfront : column % 50 < 6) :
    row column = (if column % 50 ≤ 2 + lane then 1 else 0) := by
  rw [← metadata_column hrow hlane hhalts hends _ hfront hlarge]
  rcases lt_or_ge column 50 with hlow | hhigh
  · rw [Nat.mod_eq_of_lt hlow]
  · have h := hrow.boundaryMetadata
    simp only [constrainSharedMetadata, holds_map, List.mem_range] at h
    rw [show column = 50 + column % 50 by omega,
      show (50 + column % 50) % 50 = column % 50 by omega]
    exact (sub_eq_zero.mp (h (column % 50) hfront)).symm

omit hrow hends hlane in
theorem isa_column (offset : ℕ) (hoffset : offset < 38) :
    row (210 + 48 * lane + offset) =
      (((IsaTable.outputs 0x76).getD offset 0 : ℕ) : NativeField) := by
  have h := hhalts.isaBound offset hoffset
  rw [hhalts.opcode] at h
  rw [← h]
  show row _ = row (195 + (6 + lane * 48 + 9 + offset))
  congr 1
  omega

omit hrow hlane hhalts hends in
theorem withRunState_of_not {column : ℕ} {value : NativeField}
    (hcolumn : ¬ IsLaterRunState lane column) : withRunState row lane value column = row column :=
  if_neg hcolumn

omit hrow hlane hhalts hends in
/-- A column that the change leaves alone is described by its value. -/
theorem describes_of_not {column : ℕ} {known : Knowledge} (hcolumn : ¬ IsLaterRunState lane column)
    (hknown : known.Describes (row column) (row column) (row column)) :
    known.Describes (row column) (withRunState row lane 1 column)
      (withRunState row lane 3 column) := by
  rwa [withRunState_of_not hcolumn, withRunState_of_not hcolumn]

omit hrow hlane hhalts hends in
theorem describes_fixed {value : NativeField} {n : ℤ} (h : value = (n : NativeField)) :
    (Knowledge.fixed n).Describes value value value := ⟨h, h, h⟩

theorem describes_laneKnowledge {column : ℕ} (hvaries : varies column = true) :
    (laneKnowledge lane column).Describes (row column) (withRunState row lane 1 column)
      (withRunState row lane 3 column) := by
  have hlane4 : lane < 4 := hlane
  simp only [varies, isHaltOutput, Bool.or_eq_true, Bool.and_eq_true, decide_eq_true_eq,
    beq_iff_eq] at hvaries
  unfold laneKnowledge
  by_cases hrun : IsLaterRunState lane column
  · have hbounds := (isLaterRunState_iff lane column).mp hrun
    rw [if_neg (by omega), if_pos (by omega), if_neg (by omega), withRunState, withRunState,
      if_pos hrun, if_pos hrun]
    exact ⟨by norm_num, by norm_num⟩
  · refine describes_of_not hrun ?_
    rw [isLaterRunState_iff] at hrun
    split_ifs with hfront hbefore hsame hplane hkept hisa houtput
    · exact ⟨rfl, rfl⟩
    · refine describes_fixed ?_
      rw [metadata_column_mod hrow hlane hhalts hends column hfront (by omega) (by omega),
        if_pos (by omega), Int.cast_one]
    · refine describes_fixed ?_
      rw [metadata_column_mod hrow hlane hhalts hends column hfront (by omega) (by omega),
        if_neg (by omega), Int.cast_zero]
    · exact ⟨rfl, rfl⟩
    · omega
    · exact ⟨rfl, rfl⟩
    · refine describes_fixed ?_
      have h := isa_column hhalts (column - (210 + 48 * lane)) (by omega)
      rw [show 210 + 48 * lane + (column - (210 + 48 * lane)) = column by omega] at h
      rw [h]
      norm_num
    · exact ⟨rfl, rfl⟩

theorem describes_knowledge (column : ℕ) :
    ((knowledge column).case lane).Describes (row column) (withRunState row lane 1 column)
      (withRunState row lane 3 column) := by
  have hlane4 : lane < 4 := hlane
  unfold knowledge
  by_cases hhigh : 400 ≤ column
  · rw [Nat.ble_eq_true_of_le hhigh, cond_true]
    have hrun : ¬ IsLaterRunState lane column := by
      rw [isLaterRunState_iff]
      omega
    by_cases hmachine : 729 ≤ column ∧ column ≤ 795
    · rw [Nat.ble_eq_true_of_le hmachine.1, Nat.ble_eq_true_of_le hmachine.2]
      refine describes_of_not hrun (describes_fixed ?_)
      have hinstruction := instructionValue_eq_one hrow.toBlockSlices hlane hhalts.active
      have hblock := metadata_column hrow hlane hhalts hends 0 (by norm_num) (by omega)
      rw [if_pos (by omega)] at hblock
      have h := machine_column_eq_zero hrow hinstruction hblock (column - 729) (by omega)
      rw [show 729 + (column - 729) = column by omega] at h
      rw [h, Int.cast_zero]
    · have hfalse : (Nat.ble 729 column && Nat.ble column 795) = false := by
        rw [Bool.and_eq_false_iff, ← Bool.not_eq_true, ← Bool.not_eq_true, Nat.ble_eq, Nat.ble_eq]
        omega
      rw [hfalse]
      exact describes_of_not hrun ⟨rfl, rfl⟩
  · have hfalse : Nat.ble 400 column = false := by
      rw [← Bool.not_eq_true, Nat.ble_eq]
      exact hhigh
    rw [hfalse, cond_false]
    cases hvaries : varies column with
    | true =>
      have hcase : (Cases.each (laneKnowledge 0 column) (laneKnowledge 1 column)
          (laneKnowledge 2 column) (laneKnowledge 3 column)).case lane =
          laneKnowledge lane column := by
        interval_cases lane <;> rfl
      rw [cond_true, hcase]
      exact describes_laneKnowledge hrow hlane hhalts hends hvaries
    | false =>
      have hrun : ¬ IsLaterRunState lane column := by
        rw [isLaterRunState_iff]
        intro hlater
        simp only [varies, Bool.or_eq_false_iff, Bool.and_eq_false_iff, decide_eq_false_iff_not,
          beq_eq_false_iff_ne] at hvaries
        omega
      rw [cond_false]
      by_cases hfront : column % 50 < 2 ∧ column < 52
      · rw [decide_eq_true hfront.1, decide_eq_true hfront.2]
        refine describes_of_not hrun (describes_fixed ?_)
        rw [metadata_column_mod hrow hlane hhalts hends column (by omega) (by omega) (by omega),
          if_pos (by omega), Int.cast_one]
      · have hfalse : (decide (column % 50 < 2) && decide (column < 52)) = false := by
          rw [← Bool.not_eq_true, Bool.and_eq_true, decide_eq_true_eq, decide_eq_true_eq]
          exact hfront
        rw [hfalse]
        exact describes_of_not hrun ⟨rfl, rfl⟩

end Change

/-- A satisfied row stays satisfied if the run state after a HALT that ends its block is changed to
either outcome. -/
theorem holds_withRunState {row : Row NativeField} (hrow : Holds (BlockCpu.evaluate row))
    {lane : ℕ} (hlane : lane < basicBlockInstructionBound) (hhalts : Halts row lane)
    (hends : EndsBlock row lane) :
    Holds (BlockCpu.evaluate (withRunState row lane 1)) ∧
      Holds (BlockCpu.evaluate (withRunState row lane 3)) := by
  have hslices := (CpuSlices.of_holds hrow).toMemorySlices
  let tracked := Tracked.row row (withRunState row lane 1) (withRunState row lane 3)
    (fun column => (knowledge column).case lane)
    (describes_knowledge hslices hlane hhalts hends)
  have haccepted :
      ((BlockCpu.evaluate tracked).map Tracked.knowledgeHom).all Knowledge.accepted = true := by
    rw [BlockCpu.map_evaluate (fun _ => rfl)]
    show (BlockCpu.evaluate ((Cases.caseHom lane).row knowledge)).all Knowledge.accepted = true
    rw [← BlockCpu.map_evaluate (fun _ => rfl), List.all_map, List.all_eq_true]
    intro constraint hconstraint
    exact Cases.test_case
      (List.all_eq_true.mp evaluate_knowledge_accepted constraint hconstraint) lane
  have hchanged := Tracked.holds_changed (BlockCpu.evaluate tracked) haccepted (by
    rw [BlockCpu.map_evaluate (fun _ => rfl)]
    exact hrow)
  rw [BlockCpu.map_evaluate (fun _ => rfl), BlockCpu.map_evaluate (fun _ => rfl)] at hchanged
  exact hchanged

/-- The state of the core before a lane, with the devices it has there. -/
def laneState (row : Row NativeField) (lane : ℕ) (devices : DmgDeviceState) : VmState where
  profile := profileAt row lane
  cpu := cpuAt row lane
  mbc3 := mbc3At row lane
  dmgDevices := devices
  inputNext := scalar row lane stateInputNext
  outputNext := scalar row lane stateOutputNext

/-- The HALT of the lane has the outcome of the core. -/
def HaltExact (row : Row NativeField) (lane : ℕ) (devices : DmgDeviceState) : Prop :=
  (cpuAt row (lane + 1)).runState = runStateAfter (laneState row lane devices) .halt .halted

/-- The relation forces the outcome of the core on the lane: every satisfied row that agrees with
the row up to the run state after the lane has it. -/
def HaltForced (row : Row NativeField) (lane : ℕ) (devices : DmgDeviceState) : Prop :=
  ∀ other : Row NativeField, Holds (BlockCpu.evaluate other) →
    (∀ column, ¬ IsLaterRunState lane column → other column = row column) →
    HaltExact other lane devices

section Outcome

variable {row : Row NativeField} {lane : ℕ}

/-- The run state of a boundary from its scalar. -/
theorem runState_of_scalar {boundary : ℕ} :
    (scalar row boundary stateRunState = 1 → (cpuAt row boundary).runState = .halted) ∧
      (scalar row boundary stateRunState = 3 → (cpuAt row boundary).runState = .haltBug) := by
  constructor <;> intro hscalar <;> simp [cpuAt, hscalar]

/-- The changed run state after the lane. -/
theorem scalar_withRunState (row : Row NativeField) (value : ℕ)
    (hlane : lane < basicBlockInstructionBound)
    (hvalue : value < 4) :
    scalar (withRunState row lane (value : NativeField)) (lane + 1) stateRunState = value := by
  have hcolumn : withRunState row lane (value : NativeField) (runStateColumn (lane + 1)) =
      (value : NativeField) :=
    if_pos ⟨lane + 1, hlane, Nat.lt_succ_self lane, rfl⟩
  show (withRunState row lane (value : NativeField) (runStateColumn (lane + 1))).val = value
  rw [hcolumn, ZMod.val_natCast_of_lt (hvalue.trans (by norm_num))]

variable (hrow : CpuSlices row) (hlane : lane < basicBlockInstructionBound)
  (hhalts : Halts row lane)

include hrow hlane hhalts

/-- HALT leaves one of its two outcomes. -/
theorem runState_after_halt :
    scalar row (lane + 1) stateRunState = 1 ∨ scalar row (lane + 1) stateRunState = 3 := by
  obtain ⟨instruction, hcarries⟩ := carries_of_isaBound hrow.toBlockSlices hlane hhalts.active
    hhalts.isaBound
  have hdecode := hcarries.decode
  rw [hhalts.opcode] at hdecode
  have hoperation : instruction.operation = .halt := by
    have hsome : decodeAddress 0x76 = some (decodeDefinedPrimary 0x76) := rfl
    rw [hsome, Option.some.injEq] at hdecode
    rw [← hdecode]
    rfl
  have hselector : operationSelector row lane 18 = 1 :=
    hcarries.operationSelector_one (by norm_num) (by rw [hoperation]; rfl)
  have h := (LaneSlices.of_active hrow hlane hhalts.active).lowPower
  simp only [constrainLowPower, holds_cons, PackedLane.instruction, hhalts.active, hselector,
    one_mul, mul_one] at h
  obtain ⟨-, hproduct, -⟩ := h
  rcases mul_eq_zero.mp hproduct with hone | hthree
  · left
    show (after row lane stateRunState).val = 1
    rw [sub_eq_zero.mp hone, ZMod.val_natCast_of_lt (by norm_num)]
  · right
    show (after row lane stateRunState).val = 3
    rw [sub_eq_zero.mp hthree, ZMod.val_natCast_of_lt (by norm_num)]

/-- A HALT before another lane of the block arms the HALT bug. -/
theorem haltBug_of_next (hnext : lane + 1 < basicBlockInstructionBound)
    (hactive : laneValue row (lane + 1) = 1) : (cpuAt row (lane + 1)).runState = .haltBug := by
  refine runState_of_scalar.2 ?_
  rcases runState_lane hrow hnext hactive with ⟨hzero, -⟩ | ⟨hthree, -⟩
  · rcases runState_after_halt hrow hlane hhalts with hone | hthree
    · rw [hzero] at hone
      cases hone
    · exact hthree
  · exact hthree

end Outcome

/-- Rows that agree up to the run state after the lane execute the same HALT there. -/
theorem Halts.congr {row other : Row NativeField} {lane : ℕ}
    (hlane : lane < basicBlockInstructionBound)
    (hagree : ∀ column, ¬ IsLaterRunState lane column → other column = row column)
    (hhalts : Halts row lane) : Halts other lane := by
  have hlane4 : lane < 4 := hlane
  have hisa : ∀ column, isaPlane other (BlockIsa.laneStart lane + column) =
      isaPlane row (BlockIsa.laneStart lane + column) := by
    intro column
    refine hagree _ ?_
    rw [isLaterRunState_iff]
    show ¬ (_ ∧ 195 + (6 + lane * 48 + column) < 161 ∧ _)
    omega
  have haddress : laneAddress other lane = laneAddress row lane := by
    simp only [laneAddress, columnsNat, hisa]
  refine ⟨?_, ?_, haddress.trans hhalts.opcode⟩
  · rw [← hhalts.active]
    refine hagree _ ?_
    rw [isLaterRunState_iff]
    show ¬ (77 + 21 * lane ≤ 2 + lane ∧ _)
    omega
  · intro output houtput
    rw [haddress, ← hhalts.isaBound output houtput]
    show isaPlane other (BlockIsa.laneStart lane + isaAddressBitCount + output) = _
    rw [add_assoc, hisa, ← add_assoc]
    rfl

/-- Rows that agree up to the run state after the lane have the same outcome in the core. -/
theorem runStateAfter_congr {row other : Row NativeField} {lane : ℕ}
    (hagree : ∀ column, ¬ IsLaterRunState lane column → other column = row column)
    (devices : DmgDeviceState) :
    runStateAfter (laneState other lane devices) .halt .halted =
      runStateAfter (laneState row lane devices) .halt .halted := by
  have hime : scalar other lane stateIme = scalar row lane stateIme := by
    refine congrArg ZMod.val (hagree _ ?_)
    rw [isLaterRunState_iff]
    show ¬ (77 + 21 * lane ≤ 50 + (6 + (lane * 21 + 10)) ∧ _)
    omega
  simp only [runStateAfter, laneState, cpuAt, hime]

/-- The relation forces the outcome of a HALT exactly if another lane of the block follows it and
the core arms the HALT bug; `devices` are the devices before the lane. -/
theorem haltForced_iff (row : Row NativeField) (hrow : Holds (BlockCpu.evaluate row)) (lane : ℕ)
    (hlane : lane < basicBlockInstructionBound) (hhalts : Halts row lane)
    (devices : DmgDeviceState) :
    HaltForced row lane devices ↔
      (lane + 1 < basicBlockInstructionBound ∧ laneValue row (lane + 1) = 1) ∧
        (cpuAt row lane).ime ≠ .enabled ∧ devices.pendingInterrupt.isSome = true := by
  have hslices := CpuSlices.of_holds hrow
  constructor
  · intro hforced
    by_cases hends : EndsBlock row lane
    · -- Both outcomes satisfy the relation, and the core has only one.
      obtain ⟨hhalted, hbug⟩ := holds_withRunState hrow hlane hhalts hends
      have hfirst := hforced _ hhalted (fun column hcolumn => withRunState_of_not hcolumn)
      have hsecond := hforced _ hbug (fun column hcolumn => withRunState_of_not hcolumn)
      have hone := scalar_withRunState row 1 hlane (by norm_num)
      have hthree := scalar_withRunState row 3 hlane (by norm_num)
      rw [Nat.cast_one] at hone
      rw [Nat.cast_ofNat] at hthree
      rw [HaltExact, runState_of_scalar.1 hone,
        runStateAfter_congr (fun column hcolumn => withRunState_of_not hcolumn)] at hfirst
      rw [HaltExact, runState_of_scalar.2 hthree,
        runStateAfter_congr (fun column hcolumn => withRunState_of_not hcolumn), ← hfirst]
        at hsecond
      cases hsecond
    · have hnext : lane + 1 < basicBlockInstructionBound ∧ laneValue row (lane + 1) ≠ 0 := by
        simpa [EndsBlock] using hends
      have hactive := (isBit_laneValue hslices.toBlockSlices hnext.1).resolve_left hnext.2
      refine ⟨⟨hnext.1, hactive⟩, ?_⟩
      have hexact := hforced row hrow (fun _ _ => rfl)
      rw [HaltExact, haltBug_of_next hslices hlane hhalts hnext.1 hactive, runStateAfter] at hexact
      split_ifs at hexact with hcore
      exact hcore.2
  · rintro ⟨⟨hnext, hactive⟩, hcore⟩ other hother hagree
    have hlane4 : lane < 4 := hlane
    have hotherActive : laneValue other (lane + 1) = 1 := by
      rw [← hactive]
      refine hagree _ ?_
      rw [isLaterRunState_iff]
      show ¬ (77 + 21 * lane ≤ 2 + (lane + 1) ∧ _)
      omega
    rw [HaltExact, haltBug_of_next (CpuSlices.of_holds hother) hlane (hhalts.congr hlane hagree)
      hnext hotherActive, runStateAfter_congr hagree, runStateAfter, if_pos ⟨rfl, hcore⟩]

open Forgery
open IsaTable (bitList)

/-- The CPU state around the forged HALT: interrupts disabled. -/
def haltState (pc runState cycles : ℕ) : List ℕ :=
  [0, 0, 0, 0, 0, 0xc0, 0, 0, pc, 0xfffe, 0, runState, cycles, 0, 1, 0, 0, 0, 0, 0, 4]

/-- One lane that executes HALT at PC = 0x0100 with IF = IE = 1 and interrupts disabled, and leaves
the CPU halted. -/
def haltCells : Assignment :=
  metadataCells [1, 1, 1, 0, 0, 0] ++
    [(BlockRouting.cycleOwnerStart, [1]), (BlockRouting.busOwnerStart, [1])] ++
    localCells 0 (haltState 0x100 0 0) ++
    [1, 2, 3, 4].flatMap (fun boundary => localCells boundary (haltState 0x101 1 1)) ++
    deviceCells [1, 1] [1, 1, 0, 0, 0, 0, 4] ++
    isaCells [0x76, isaPaddingAddress, isaPaddingAddress, isaPaddingAddress] ++
    busCells 0 1 0x100 0x100 0x76 ++
    [(Forgery.busStart + BlockBus.romSelectorStart, [1]),
      (Forgery.busStart + BlockBus.romValueStart, [0x76])] ++ idleDeviceCells ++
    [(BlockDeviceTimer.timerAuxStart + BlockDeviceTimer.afterDivBitsStart, bitList 4 16),
      (BlockDeviceTimerCore.timerCoreAuxStart, [1])] ++
    (List.range TimerStage.timerTickBound).map (fun tick =>
      (BlockDeviceTimerCore.sharedTimerStageColumnStart + tick * TimerStage.stageWidth,
        bitList (min (tick + 1) 4) 16)) ++
    [(BlockDevicePpuInterrupt.ppuInterruptAuxStart +
        BlockDevicePpuInterrupt.finalPendingClearPrefixStart, bitList 0x1f 5),
      (PackedLane.packedCpuAuxStart, loadStateBits 0 0x100)] ++
    [1, 2, 3, 4].map (fun boundary =>
      (PackedLane.packedCpuAuxStart + boundary * PackedLane.cpuBoundaryAuxColumnCount,
        loadStateBits 0 0x101)) ++
    [(PackedLane.packedCpuAuxStart +
        PackedLane.cpuSharedBoundaryCount * PackedLane.cpuBoundaryAuxColumnCount,
        bitList 0 8 ++ bitList 0 16 ++ bitList 0x101 16),
      (PackedLane.packedCpuAuxStart + PackedLane.packedCpuBusMatchOffset 0 0 0, [1])]
def haltNumber : ℕ := Assignment.packed 128 haltCells

/-- The forged HALT. -/
def haltRow : Row NativeField := nativeRow haltNumber

/-- The forged HALT over residues. -/
def haltResidues : Row (Residue fieldModulus) := Assignment.residueRow fieldModulus 128 haltNumber

/-- What is read off the columns of the forged HALT. -/
structure HaltReading : Prop where
  lane : (laneValue haltResidues 0).val = 1
  opcode : ∀ bit < 9, (isaAddressBit haltResidues 0 bit).val =
    0x76 / 2 ^ bit % 2
  outputs : ∀ output < isaOutputCount,
    (isa haltResidues 0 output).val =
      (IsaTable.outputs 0x76).getD output 0
  request : (deviceStateValue (boundaryPlane haltResidues) false
    stateInterruptRequest).val = 1
  enable : (deviceStateValue (boundaryPlane haltResidues) false
    stateInterruptEnable).val = 1
  runState : (localStateValue (boundaryPlane haltResidues) 1
    stateRunState).val = 1
  ime : (localStateValue (boundaryPlane haltResidues) 0
    stateIme).val = 0

/-- What is read off the forged HALT, and that it satisfies the packed CPU relation. -/
theorem haltRow_read : HaltReading ∧ Holds (BlockCpu.evaluate haltRow) :=
  ⟨⟨by decide +kernel, by decide +kernel, by decide +kernel, by decide +kernel, by decide +kernel,
    by decide +kernel, by decide +kernel⟩,
    holds_nativeRow (BlockCpu.all_evaluate _ _ (by decide +kernel) (by decide +kernel)
      (by decide +kernel) (by decide +kernel) (by decide +kernel) (by decide +kernel)
      (by decide +kernel))⟩

theorem haltReading : HaltReading := haltRow_read.1

theorem haltRow_holds : Holds (BlockCpu.evaluate haltRow) := haltRow_read.2

theorem haltRow_halts : Halts haltRow 0 := by
  have haddress : laneAddress haltRow 0 = 0x76 :=
    laneAddress_nativeRow (by norm_num) haltReading.opcode
  exact ⟨laneValue_nativeRow haltReading.lane, isaBound_nativeRow haddress haltReading.outputs,
    haddress⟩

/-- The devices of the forged HALT: IF = IE = 1. -/
def haltDevices : DmgDeviceState :=
  { DmgDeviceState.dmgPostBoot with interruptEnable := 1 }

/-- The forged HALT executes HALT in a satisfied row. -/
theorem haltForced_iff_haltRow :
    Holds (BlockCpu.evaluate haltRow) ∧ Halts haltRow 0 ∧
      (HaltForced haltRow 0 haltDevices ↔
        (0 + 1 < basicBlockInstructionBound ∧ laneValue haltRow (0 + 1) = 1) ∧
          (cpuAt haltRow 0).ime ≠ .enabled ∧ haltDevices.pendingInterrupt.isSome = true) :=
  ⟨haltRow_holds, haltRow_halts,
    haltForced_iff haltRow haltRow_holds 0 (by norm_num) haltRow_halts haltDevices⟩

/-- The forged HALT ends halted though IF and IE, which the row carries before the block, have a
common bit and interrupts are disabled; the core arms the HALT bug there. -/
theorem halt_not_exact_haltRow :
    ¬ ∀ (row : Row NativeField) (lane : ℕ) (devices : DmgDeviceState),
      Holds (BlockCpu.evaluate row) → lane < basicBlockInstructionBound → Halts row lane →
      (lane = 0 →
        deviceStateValue (boundaryPlane row) false stateInterruptRequest =
            (devices.interruptRequest : NativeField) ∧
          deviceStateValue (boundaryPlane row) false stateInterruptEnable =
            (devices.interruptEnable : NativeField)) →
      HaltExact row lane devices := by
  intro hexact
  have hrequest : deviceStateValue (boundaryPlane haltRow) false stateInterruptRequest =
      ((1 : ℕ) : NativeField) := nativeRow_eq haltReading.request
  have henable : deviceStateValue (boundaryPlane haltRow) false stateInterruptEnable =
      ((1 : ℕ) : NativeField) := nativeRow_eq haltReading.enable
  have hhalt := hexact haltRow 0 haltDevices haltRow_holds (by norm_num) haltRow_halts
    (fun _ => ⟨hrequest, henable⟩)
  have hrun : scalar haltRow 1 stateRunState = 1 :=
    scalar_nativeRow (by norm_num) haltReading.runState
  have hime : scalar haltRow 0 stateIme = 0 := scalar_nativeRow (by norm_num) haltReading.ime
  have hbug : runStateAfter (laneState haltRow 0 haltDevices) .halt .halted = .haltBug := by
    rw [runStateAfter, if_pos]
    refine ⟨rfl, ?_, by decide⟩
    simp [laneState, cpuAt, hime]
  rw [HaltExact, runState_of_scalar.1 hrun, hbug] at hhalt
  cases hhalt

end HaltOutcome

end Zksm83
