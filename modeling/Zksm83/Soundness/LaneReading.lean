import Zksm83.Soundness.BusReading
import Zksm83.Soundness.RoutingDivision

/-!
# Reading the lanes of a satisfied row

The bus slots that a lane owns are consecutive, and the numbered events that the lane constraints
read are these slots in order. An active lane sits in an instruction block, so its constraints hold
without their weight.
-/

namespace Zksm83

open Constraint BlockMetadata BlockRouting BlockFrontend BlockBus PackedLane

namespace Reading

section Metadata

variable {row : Row NativeField} (hrow : BlockSlices row)

include hrow

theorem isBit_laneValue {lane : ℕ} (hlane : lane < basicBlockInstructionBound) :
    IsBit (laneValue row lane) := by
  have h := hrow.metadata
  simp only [BlockMetadata.evaluate, holds_append, holds_map, List.mem_range,
    boolean_eq_zero_iff] at h
  exact h.1.1.2 lane hlane

/-- The lanes before an active lane are active. -/
theorem laneValue_pred {lane : ℕ} (hlane : lane + 1 < basicBlockInstructionBound)
    (hactive : laneValue row (lane + 1) = 1) : laneValue row lane = 1 := by
  have h := hrow.metadata
  simp only [BlockMetadata.evaluate, holds_append, holds_map, List.mem_range] at h
  have hearlier := h.1.2 lane (by show lane < 4 - 1; have : lane + 1 < 4 := hlane; omega)
  rw [hactive, one_mul, Nat.cast_one] at hearlier
  exact (sub_eq_zero.mp hearlier).symm

/-- An active lane sits in an instruction block. -/
theorem instructionValue_eq_one {lane : ℕ} (hlane : lane < basicBlockInstructionBound)
    (hactive : laneValue row lane = 1) : instructionValue row = 1 := by
  induction lane with
  | zero =>
    have h := hrow.metadata
    simp only [BlockMetadata.evaluate, holds_append, holds_cons] at h
    rw [← sub_eq_zero.mp h.2.1]
    exact hactive
  | succ lane ih =>
    exact ih (Nat.lt_of_succ_lt hlane) (laneValue_pred hrow hlane hactive)

end Metadata

/-- The bus slots that a lane owns, in order. -/
def laneEvents (row : Row NativeField) (lane : ℕ) : List ℕ :=
  (List.range basicBlockBusEventBound).filter (fun slot => busOwnerValue row slot lane = 1)

theorem mem_laneEvents {row : Row NativeField} {lane slot : ℕ} :
    slot ∈ laneEvents row lane ↔
      slot < basicBlockBusEventBound ∧ busOwnerValue row slot lane = 1 := by
  simp [laneEvents]

/-- The events of a lane are consecutive slots. -/
theorem laneEvents_eq_range' {row : Row NativeField} {instruction : NativeField}
    (howners : Holds (constrainResource basicBlockBusEventBound row busOwnerStart instruction))
    {lane : ℕ} (hlane : lane < basicBlockInstructionBound) :
    ∃ start count, start + count ≤ basicBlockBusEventBound ∧
      laneEvents row lane = List.range' start count := by
  obtain ⟨start, count, hle, heq⟩ :=
    (isTiling_owner howners).filter_eq_range' lane
  refine ⟨start, count, hle, ?_⟩
  rw [← heq, laneEvents]
  refine List.filter_congr ?_
  intro slot _
  rw [decide_eq_decide, busOwnerValue]
  exact ⟨fun hone => ⟨hlane, hone⟩, fun howner => howner.2⟩

/-- The slot of a numbered event of a lane. -/
def laneEvent (row : Row NativeField) (lane localSlot : ℕ) : Option ℕ :=
  (laneEvents row lane)[localSlot]?

/-- The sum of a function over a list that only one member contributes to. -/
theorem sum_map_single {α : Type*} [DecidableEq α] {list : List α} {f : α → NativeField}
    (hnodup : list.Nodup) {member : α} (hmember : member ∈ list)
    (hother : ∀ other ∈ list, other ≠ member → f other = 0) : (list.map f).sum = f member := by
  rw [List.sum_map_eq_nsmul_single member f (fun other hne hmem => hother other hmem hne),
    List.count_eq_one_of_mem hnodup hmember, one_nsmul]

section Projection

variable {row : Row NativeField} {instruction : NativeField}
  (howners : Holds (constrainResource basicBlockBusEventBound row busOwnerStart instruction))
  (hmatches : Holds (constrainBusMatches row)) {lane : ℕ}
  (hlane : lane < basicBlockInstructionBound)

include howners hmatches hlane

/-- The committed match decides whether the shared slot is the numbered event. -/
theorem committedLocalBusMatch_eq {start count localSlot sharedSlot : ℕ}
    (hevents : laneEvents row lane = List.range' start count) (hle : localSlot ≤ sharedSlot)
    (hlt : sharedSlot < basicBlockBusEventBound) :
    committedLocalBusMatch row lane localSlot sharedSlot =
      if sharedSlot = start + localSlot ∧ localSlot < count then 1 else 0 := by
  simp only [constrainBusMatches, holds_flatMap, holds_map, List.mem_range] at hmatches
  have hexpected := hmatches lane hlane localSlot (by omega) sharedSlot (by
    rw [List.mem_range'_1]
    omega)
  rw [sub_eq_zero.mp hexpected]
  have howns : ∀ slot < basicBlockBusEventBound,
      (busOwnerValue row slot lane = 1 ↔ start ≤ slot ∧ slot < start + count) := by
    intro slot hslot
    rw [← List.mem_range'_1, ← hevents, mem_laneEvents]
    exact ⟨fun hone => ⟨hslot, hone⟩, fun h => h.2⟩
  have hvalue : ∀ slot < basicBlockBusEventBound, busOwnerValue row slot lane =
      if start ≤ slot ∧ slot < start + count then 1 else 0 := by
    intro slot hslot
    rcases isBit_owner howners hslot hlane with hzero | hone
    · have hnot : ¬ (start ≤ slot ∧ slot < start + count) := by
        rw [← howns slot hslot, busOwnerValue, hzero]
        exact zero_ne_one
      rw [if_neg hnot]
      exact hzero
    · rw [if_pos ((howns slot hslot).mp hone)]
      exact hone
  simp only [expectedLocalBusMatch]
  rw [hvalue _ hlt, hvalue (sharedSlot - localSlot) (by omega)]
  rcases Nat.eq_zero_or_pos (sharedSlot - localSlot) with hzero | hpos
  · rw [if_pos hzero, hzero]
    split_ifs <;> first | omega | simp
  · rw [if_neg hpos.ne', hvalue (sharedSlot - localSlot - 1) (by omega)]
    split_ifs <;> first | omega | simp

/-- A projected value of a lane event is the value of its slot, and zero beyond the events. -/
theorem projectLocalBus_eq {localSlot : ℕ} (hlocal : localSlot < basicBlockBusEventBound)
    (sharedValue : Row NativeField → ℕ → NativeField) :
    projectLocalBus row lane localSlot sharedValue =
      (laneEvent row lane localSlot).elim 0 (sharedValue (busPlane row)) := by
  obtain ⟨start, count, hle, hevents⟩ := laneEvents_eq_range' howners hlane
  have hterm : ∀ sharedSlot ∈ List.range' localSlot (basicBlockBusEventBound - localSlot),
      committedLocalBusMatch row lane localSlot sharedSlot * sharedValue (busPlane row) sharedSlot =
      if sharedSlot = start + localSlot ∧ localSlot < count
        then sharedValue (busPlane row) sharedSlot else 0 := by
    intro sharedSlot hshared
    rw [List.mem_range'_1] at hshared
    rw [committedLocalBusMatch_eq howners hmatches hlane hevents hshared.1 (by omega), ite_mul, one_mul,
      zero_mul]
  rw [projectLocalBus, total_eq_sum, List.map_congr_left hterm, laneEvent, hevents]
  by_cases hcount : localSlot < count
  · rw [List.getElem?_range' hcount, one_mul, Option.elim_some]
    have hmem : start + localSlot ∈
        List.range' localSlot (basicBlockBusEventBound - localSlot) := by
      rw [List.mem_range'_1]
      omega
    rw [sum_map_single List.nodup_range' hmem, if_pos ⟨rfl, hcount⟩]
    intro other _ hne
    rw [if_neg (fun h => hne h.1)]
  · rw [List.getElem?_eq_none (by simpa using hcount), Option.elim_none]
    refine List.sum_eq_zero ?_
    intro value hvalue
    obtain ⟨sharedSlot, -, rfl⟩ := List.mem_map.mp hvalue
    rw [if_neg (fun h => hcount h.2)]

end Projection

end Reading

end Zksm83
