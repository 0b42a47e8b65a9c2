import Zksm83.Argument.Logs
import Zksm83.Library.Ledger
import Zksm83.Soundness.DeviceFrame
import Zksm83.Soundness.EventReading

/-!
# Byte events of a row

The input and output events of an active row stand under consecutive indices, from the cursor before
the row on, and the cursor after the row is behind them. In an instruction block this comes from the
cursor steps of its lanes, and a machine row has no such event.
-/

namespace Zksm83

open Constraint BlockMetadata BlockBoundary BlockFrontend BlockBus BlockMachine Reading

namespace Logs

open Continuity

/-- The slots of a row whose kind is listed. -/
def rowEvents (row : Row NativeField) (codes : List ℕ) : List ℕ :=
  (List.range basicBlockBusEventBound).filter (fun slot => slotKind row slot ∈ codes)

theorem mem_rowEvents {row : Row NativeField} {codes : List ℕ} {slot : ℕ} :
    slot ∈ rowEvents row codes ↔ slot < basicBlockBusEventBound ∧ slotKind row slot ∈ codes := by
  simp [rowEvents]

section Row

variable {row : Row NativeField} (hrow : MemorySlices row)

include hrow

/-- The event kinds of machine rows. -/
theorem slotKind_machine (hactive : blockActiveValue row = 1)
    (hinstruction : instructionValue row = 0) {slot : ℕ} (hslot : slot < basicBlockBusEventBound) :
    slotKind row slot ∈ [0, 5, 16, 17, 18] := by
  have hmachine : blockActiveValue row - instructionValue row = 1 := by
    rw [hactive, hinstruction, sub_zero]
  have h := hrow.machine
  simp only [constrainMachine, constrainModePartition, holds_append, holds_cons] at h
  have htotal := sub_eq_zero.mp h.1.1.1.1.1.1.2.1
  rw [hmachine] at htotal
  obtain ⟨mode, hmode, hone⟩ := exists_of_totalOver_eq_one
    (fun mode hlt => isBit_machine_column hrow.toMachineSlices (hlt.trans (by decide))) htotal
  by_cases hdma : mode = dmaByteMode
  · subst hdma
    obtain ⟨hfirst, hsecond, hrest⟩ := slotKind_dmaByte hrow hone
    have hcases : slot = 0 ∨ slot = 1 ∨ 2 ≤ slot := by omega
    rcases hcases with rfl | rfl | hlarge
    · rcases hfirst with hkind | hkind <;> simp [hkind]
    · simp [hsecond]
    · simp [hrest slot hlarge hslot]
  by_cases hinterrupt : mode = interruptMode
  · subst hinterrupt
    have hcpu := h.1.2
    simp only [constrainCpu, constrainInterruptCpu, holds_append, holds_map, List.mem_range] at hcpu
    obtain ⟨⟨-, hpushes⟩, hunused⟩ := hcpu.2
    have hone' : modeValue (machinePlane row) interruptMode = 1 := hone
    rcases lt_or_ge slot 2 with hlt | hge
    · have hpush := hpushes slot hlt
      rw [hmachine, hone', one_mul, slotKindSelector_eq hrow.toMachineSlices hslot _ (by decide)] at hpush
      have hkind : slotKind row slot = memoryWriteKind := by
        by_contra hne
        rw [if_neg hne, zero_sub, neg_eq_zero] at hpush
        exact one_ne_zero hpush
      simp [hkind]
    · have hbound : slot < 5 := hslot
      have hnone := hunused (slot - 2) (by show slot - 2 < 5 - 2; omega)
      rw [hone', one_mul, show slot - 2 + 2 = slot by omega, slotActiveValue_eq hrow.toMachineSlices hslot] at hnone
      have hkind : slotKind row slot = 0 := by
        by_contra hne
        rw [if_neg hne] at hnone
        exact one_ne_zero hnone
      simp [hkind]
  · simp [slotKind_busFree hrow.toMachineSlices hmode hinterrupt hdma hone hslot]

/-- In an instruction block a used slot has one owner. -/
theorem ownerTotal_of_used (hinstruction : instructionValue row = 1) {slot : ℕ}
    (hslot : slot < basicBlockBusEventBound) (hkind : slotKind row slot ≠ 0) :
    totalOver basicBlockInstructionBound (BlockRouting.busOwnerValue row slot) = 1 := by
  have h := hrow.slotActivity
  simp only [constrainInstructionSlotActivity, holds_map, List.mem_range] at h
  have hactivity := h slot hslot
  rw [hinstruction, one_mul, slotActiveValue_eq hrow.toMachineSlices hslot, if_neg hkind] at hactivity
  exact (sub_eq_zero.mp hactivity).symm

/-- The category sums of the lanes of an instruction block count its events. -/
theorem sum_ownedBusCategory (hinstruction : instructionValue row = 1) {codes : List ℕ}
    (hnodup : codes.Nodup) (hcodes : ∀ code ∈ codes, code ≠ 0 ∧ code < 32) :
    ∑ lane ∈ Finset.range basicBlockInstructionBound,
      ownedBusCategory row (busPlane row) lane codes = ((rowEvents row codes).length : NativeField) := by
  have hlane : ∀ lane, ownedBusCategory row (busPlane row) lane codes =
      ∑ slot ∈ Finset.range basicBlockBusEventBound,
        BlockRouting.busOwnerValue row slot lane * kindSelectorSum (busPlane row) slot codes := by
    intro lane
    rw [ownedBusCategory, total_eq_sum, List.flatMap_def, List.sum_flatten, List.map_map,
      Function.comp_def, ← totalOver_eq_sum, totalOver, total_eq_sum]
    refine congrArg List.sum (List.map_congr_left ?_)
    intro slot _
    rw [List.sum_map_mul_left, kindSelectorSum, total_eq_sum]
  have hslot : ∀ slot ∈ Finset.range basicBlockBusEventBound,
      ∑ lane ∈ Finset.range basicBlockInstructionBound,
        BlockRouting.busOwnerValue row slot lane * kindSelectorSum (busPlane row) slot codes =
      if slotKind row slot ∈ codes then 1 else 0 := by
    intro slot hslot
    have hlt := Finset.mem_range.mp hslot
    rw [← Finset.sum_mul, kindSelectorSum_eq hrow.toMachineSlices hlt codes hnodup (fun c hc => (hcodes c hc).2)]
    by_cases hkind : slotKind row slot ∈ codes
    · have hone := ownerTotal_of_used hrow hinstruction hlt (hcodes _ hkind).1
      rw [totalOver_eq_sum] at hone
      rw [if_pos hkind, hone, one_mul]
    · rw [if_neg hkind, mul_zero]
  rw [Finset.sum_congr rfl (fun lane _ => hlane lane), Finset.sum_comm,
    Finset.sum_congr rfl hslot, ← totalOver_eq_sum, totalOver, total_eq_sum, sum_indicator]
  rfl
end Row

/-- The event kinds of the two byte logs. -/
def byteCodes : LogKind → List ℕ
  | .input => BlockMemory.inputKindCodes
  | .output => BlockMemory.outputKindCodes
  | .bus | .isa => []

/-- The state scalar that counts the bytes of a log. -/
def byteCursor : LogKind → ℕ
  | .output => stateOutputNext
  | .input | .bus | .isa => stateInputNext

/-- The tables of input and output bytes. -/
def IsByteLog (kind : LogKind) : Prop := kind = .input ∨ kind = .output

theorem byteCodes_bounds (kind : LogKind) :
    (byteCodes kind).Nodup ∧ ∀ code ∈ byteCodes kind, code ≠ 0 ∧ code < 32 := by
  cases kind <;> decide

/-- The committed selector of a byte event. -/
def logSelector (row : Row NativeField) (kind : LogKind) (slot : ℕ) : NativeField :=
  match kind with
  | .output => BlockMemory.logOutput (BlockMemory.memoryPlane row) slot
  | .input | .bus | .isa => BlockMemory.logInput (BlockMemory.memoryPlane row) slot

section Cursor

variable {row : Row NativeField} (hrow : MemorySlices row) {kind : LogKind} (hkind : IsByteLog kind)

theorem rowState_byteCursor (row : Row NativeField) (kind : LogKind) (after : Bool) :
    rowState row after (byteCursor kind) = localStateValue (boundaryPlane row)
      (if after then basicBlockInstructionBound else 0) (byteCursor kind) := by
  cases kind <;> exact if_pos (by decide)

include hrow hkind

/-- The selector of a byte event, and the index that it asks for. -/
theorem logSelector_slot {slot : ℕ} (hslot : slot < basicBlockBusEventBound) :
    logSelector row kind slot = (if slotKind row slot ∈ byteCodes kind then 1 else 0) ∧
      logSelector row kind slot * (slotIndexValue (busPlane row) slot -
        (rowState row false (byteCursor kind) + totalOver slot (logSelector row kind))) = 0 := by
  have h := hrow.memory
  simp only [BlockMemory.constrainMemory, BlockMemory.constrainLogSlot, holds_append, holds_flatMap,
    holds_cons, List.mem_range] at h
  obtain ⟨-, -, hinput, houtput, hinputIndex, houtputIndex, -⟩ := (h.2 slot hslot).2
  obtain ⟨hnodup, hcodes⟩ := byteCodes_bounds kind
  rw [rowState_byteCursor, ← kindSelectorSum_eq hrow.toMachineSlices hslot _ hnodup (fun c hc => (hcodes c hc).2)]
  rcases hkind with rfl | rfl
  · exact ⟨sub_eq_zero.mp hinput, hinputIndex⟩
  · exact ⟨sub_eq_zero.mp houtput, houtputIndex⟩

/-- A byte event stands under the cursor plus the number of byte events before it. -/
theorem slotIndexValue_eq {slot : ℕ} (hslot : slot ∈ rowEvents row (byteCodes kind)) :
    slotIndexValue (busPlane row) slot = rowState row false (byteCursor kind) +
      (((List.range slot).filter (fun other => slotKind row other ∈ byteCodes kind)).length :
        NativeField) := by
  obtain ⟨hlt, hmem⟩ := mem_rowEvents.mp hslot
  obtain ⟨hselector, hindex⟩ := logSelector_slot hrow hkind hlt
  rw [hselector, if_pos hmem, one_mul] at hindex
  rw [sub_eq_zero.mp hindex, ← sum_indicator, ← total_eq_sum, totalOver]
  refine congrArg₂ (· + ·) rfl (congrArg total (List.map_congr_left ?_))
  intro other hother
  exact (logSelector_slot hrow hkind ((List.mem_range.mp hother).trans hlt)).1

/-- The step of the cursor over one lane of an instruction block. -/
theorem laneDelta_byteCursor (hinstruction : instructionValue row = 1) {lane : ℕ}
    (hlane : lane < basicBlockInstructionBound) :
    localStateValue (boundaryPlane row) (lane + 1) (byteCursor kind) -
      localStateValue (boundaryPlane row) lane (byteCursor kind) =
        ownedBusCategory row (busPlane row) lane (byteCodes kind) := by
  have h := hrow.laneFlow
  simp only [BlockFlow.constrainLaneFlow, BlockFlow.constrainLane, BlockFlow.stateDelta,
    holds_flatMap, holds_cons, List.mem_range, hinstruction, one_mul] at h
  obtain ⟨-, -, -, -, hinput, houtput, -⟩ := h lane hlane
  rcases hkind with rfl | rfl
  · exact sub_eq_zero.mp hinput
  · exact sub_eq_zero.mp houtput

/-- The cursor moves over an active row by the number of its byte events. -/
theorem rowState_after (hactive : blockActiveValue row = 1) :
    rowState row true (byteCursor kind) = rowState row false (byteCursor kind) +
      ((rowEvents row (byteCodes kind)).length : NativeField) := by
  rw [rowState_byteCursor, rowState_byteCursor, if_pos rfl, if_neg Bool.false_ne_true]
  rcases (isBit_metadata hrow.toMachineSlices).2 with hinstruction | hinstruction
  · -- A machine row keeps the cursors and has no byte events.
    have hnone : rowEvents row (byteCodes kind) = [] := by
      rw [List.eq_nil_iff_forall_not_mem]
      intro slot hslot
      obtain ⟨hlt, hmem⟩ := mem_rowEvents.mp hslot
      have hmachine := slotKind_machine hrow hactive hinstruction hlt
      rcases hkind with rfl | rfl <;> simp [byteCodes] at hmem hmachine <;> omega
    have h := hrow.machine
    simp only [constrainMachine, constrainNonCpuFlow, holds_append, holds_map, hactive,
      hinstruction, sub_zero, one_mul] at h
    have hmem : byteCursor kind ∈ machineInvariants := by
      rcases hkind with rfl | rfl <;> decide
    have hdelta := h.2.1 (byteCursor kind) hmem
    rw [hnone, List.length_nil, Nat.cast_zero, add_zero]
    exact sub_eq_zero.mp hdelta
  · obtain ⟨hnodup, hcodes⟩ := byteCodes_bounds kind
    rw [← sum_ownedBusCategory hrow hinstruction hnodup hcodes, ← Finset.sum_congr rfl
      (fun lane hlane => laneDelta_byteCursor hrow hkind hinstruction (Finset.mem_range.mp hlane)),
      Finset.sum_range_sub (fun lane => localStateValue (boundaryPlane row) lane (byteCursor kind))]
    ring

/-- The byte events of a row stand under consecutive indices. -/
theorem slotIndexValue_getElem (place : ℕ)
    (h : place < (rowEvents row (byteCodes kind)).length) :
    slotIndexValue (busPlane row) ((rowEvents row (byteCodes kind))[place]) =
      rowState row false (byteCursor kind) + (place : NativeField) := by
  rw [slotIndexValue_eq hrow hkind (List.getElem_mem h)]
  congr 2
  exact Ledger.length_filter_range_getElem _ _ _ h

end Cursor
end Logs

end Zksm83
