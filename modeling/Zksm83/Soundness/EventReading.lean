import Zksm83.Soundness.InstructionReading

/-!
# Reading the bus events of a lane

The events of an active lane in order: how many there are, by category, and the addresses and
bytes that the numbered events of the lane constraints stand for.
-/

namespace Zksm83

open Constraint BlockMetadata BlockRouting BlockFrontend BlockIsa BlockBus PackedLane
open IsaTable (busPattern BusAccessPattern)

/-- The role of an event kind. -/
def kindRole (kind : ℕ) : Option BusRole :=
  if kind ∈ opcodeFetchCodes then some .opcodeFetch
  else if kind ∈ immediateReadCodes then some .immediateRead
  else if kind ∈ dataReadCodes then some .dataRead
  else if kind ∈ dataWriteCodes then some .dataWrite
  else none

/-- The kinds of a role. -/
def roleCodes : BusRole → List ℕ
  | .opcodeFetch => opcodeFetchCodes
  | .immediateRead => immediateReadCodes
  | .dataRead => dataReadCodes
  | .dataWrite => dataWriteCodes

theorem kindRole_eq_some_iff (kind : ℕ) (role : BusRole) :
    kindRole kind = some role ↔ kind ∈ roleCodes role := by
  by_cases hlt : kind < 16
  · interval_cases kind <;> cases role <;> decide
  · have hnone : kindRole kind = none := by
      unfold kindRole
      rw [if_neg, if_neg, if_neg, if_neg] <;> simp <;> omega
    rw [hnone]
    cases role <;> simp [roleCodes] <;> omega

namespace Reading

/-- A sum of indicators counts the members. -/
theorem sum_indicator {α : Type*} (list : List α) (p : α → Prop) [DecidablePred p] :
    (list.map (fun member => if p member then (1 : NativeField) else 0)).sum =
      ((list.filter p).length : NativeField) := by
  induction list with
  | nil => simp
  | cons head tail ih =>
    rw [List.map_cons, List.sum_cons, ih, List.filter_cons]
    by_cases hhead : p head
    · rw [if_pos hhead, if_pos (by simpa using hhead), List.length_cons, Nat.cast_succ, add_comm]
    · rw [if_neg hhead, if_neg (by simpa using hhead), zero_add]

section Counts

variable {row : Row NativeField} (hrow : BlockSlices row) {lane : ℕ}
  (hlane : lane < basicBlockInstructionBound)

include hrow hlane

theorem busOwnerValue_eq {slot : ℕ} (hslot : slot < basicBlockBusEventBound) :
    busOwnerValue row slot lane = if busOwnerValue row slot lane = 1 then 1 else 0 := by
  split
  case isTrue h => exact h
  case isFalse h => exact (isBit_owner hrow.busRouting hslot hlane).resolve_right h

theorem laneBusOwnerCount_eq :
    laneBusOwnerCount row lane = ((laneEvents row lane).length : NativeField) := by
  rw [laneBusOwnerCount, totalOver, total_eq_sum, laneEvents, ← sum_indicator]
  refine congrArg List.sum (List.map_congr_left ?_)
  intro slot hslot
  exact busOwnerValue_eq hrow hlane (List.mem_range.mp hslot)

/-- A category sum counts the events of the lane whose kind is listed. -/
theorem ownedBusCategory_eq {codes : List ℕ} (hnodup : codes.Nodup) (hcodes : ∀ c ∈ codes, c < 32) :
    ownedBusCategory row (busPlane row) lane codes =
      (((laneEvents row lane).filter (fun slot => slotKind row slot ∈ codes)).length :
        NativeField) := by
  have hslotSum : ∀ slot ∈ List.range basicBlockBusEventBound,
      (codes.map (fun code => busOwnerValue row slot lane *
        slotKindSelector (busPlane row) slot code)).sum =
      if busOwnerValue row slot lane = 1 ∧ slotKind row slot ∈ codes then 1 else 0 := by
    intro slot hslot
    have hlt := List.mem_range.mp hslot
    have hkinds := kindSelectorSum_eq hrow.toMachineSlices hlt codes hnodup hcodes
    rw [kindSelectorSum, total_eq_sum] at hkinds
    rw [List.sum_map_mul_left, hkinds]
    rcases isBit_owner hrow.busRouting hlt hlane with hzero | hone
    · have howner : busOwnerValue row slot lane = 0 := hzero
      rw [howner, zero_mul, if_neg (fun h => zero_ne_one h.1)]
    · have howner : busOwnerValue row slot lane = 1 := hone
      simp only [howner, one_mul, true_and]
  rw [ownedBusCategory, total_eq_sum, List.flatMap_def, List.sum_flatten, List.map_map,
    Function.comp_def, List.map_congr_left hslotSum, sum_indicator, laneEvents, List.filter_filter]
  congr 2
  refine List.filter_congr ?_
  intro slot _
  simp [Bool.and_comm]

end Counts

/-- The branch decision of a lane, as a number. -/
def laneBranch (row : Row NativeField) (lane : ℕ) : ℕ := bitNat (branchTaken row lane)

/-- The events of a lane with a role. -/
def laneEventsOf (row : Row NativeField) (lane : ℕ) (role : BusRole) : List ℕ :=
  (laneEvents row lane).filter (fun slot => slotKind row slot ∈ roleCodes role)

section Pattern

variable {row : Row NativeField} (hrow : BlockSlices row) {lane : ℕ}
  (hlane : lane < basicBlockInstructionBound) {instruction : DecodedInstruction}
  (hcarries : Carries row lane instruction)

include hrow hlane

omit hrow hlane in
theorem laneEvents_length_le (row : Row NativeField) (lane : ℕ) :
    (laneEvents row lane).length ≤ 5 := by
  have h := List.length_filter_le (fun slot => decide (busOwnerValue row slot lane = 1))
    (List.range basicBlockBusEventBound)
  simpa [laneEvents] using h

omit hrow hlane in
theorem laneBranch_le (row : Row NativeField) (lane : ℕ) : laneBranch row lane ≤ 1 :=
  bitNat_le_one _

theorem natCast_laneBranch : ((laneBranch row lane : ℕ) : NativeField) = branchTaken row lane :=
  natCast_bitNat (isBit_branchTaken hrow hlane)

theorem holds_laneEventCount :
    Holds (constrainLaneEventCount row (isaPlane row) (busPlane row) lane) := by
  have h := hrow.eventCounts
  simp only [constrainLaneEventCounts, holds_flatMap, List.mem_range] at h
  exact h lane hlane

omit hrow hlane in
/-- A length and a small count that agree in the field agree. -/
theorem length_eq_of_natCast {list : List ℕ} {count : ℕ} (hlength : list.length ≤ 5)
    (hcount : count ≤ 10) (h : (list.length : NativeField) = (count : NativeField)) :
    list.length = count :=
  (natCast_inj (hlength.trans_lt (by norm_num)) (hcount.trans_lt (by norm_num))).mp h

omit hrow hlane in
theorem eventCount_mono (pattern : BusAccessPattern) {branch : ℕ} (hbranch : branch ≤ 1) :
    eventCount pattern branch ≤ eventCount pattern 1 := by
  unfold eventCount
  have := Nat.mul_le_mul_right (pattern.takenDataReads + pattern.takenDataWrites) hbranch
  omega

include hcarries

/-- The lane has as many events as its instruction. -/
theorem laneEvents_length :
    (laneEvents row lane).length = eventCount (busPattern instruction) (laneBranch row lane) := by
  have h := holds_laneEventCount hrow hlane
  simp only [constrainLaneEventCount, holds_cons] at h
  obtain ⟨hfetch, himmediate, hread, hwrite, htakenRead, htakenWrite⟩ := hcarries.busPattern_eq
  have htotal : laneBusOwnerCount row lane - (isa row lane isaOpcodeFetches +
      isa row lane isaImmediateReads + isa row lane isaDataReads + isa row lane isaDataWrites) -
      branchTaken row lane * (isa row lane isaTakenDataReads + isa row lane isaTakenDataWrites) =
      0 := h.1
  rw [laneBusOwnerCount_eq hrow hlane, hfetch, himmediate, hread, hwrite, htakenRead, htakenWrite,
    ← natCast_laneBranch hrow hlane] at htotal
  have hpattern := hcarries.eventCount_le
  have hmono := eventCount_mono (busPattern instruction) (laneBranch_le row lane)
  refine length_eq_of_natCast (laneEvents_length_le row lane) (by omega) ?_
  rw [eventCount]
  push_cast
  linear_combination htotal

/-- The lane has as many events of each role as its instruction. -/
theorem laneEventsOf_length (role : BusRole) :
    (laneEventsOf row lane role).length =
      roleCount (busPattern instruction) (laneBranch row lane) role := by
  have h := holds_laneEventCount hrow hlane
  simp only [constrainLaneEventCount, holds_cons] at h
  obtain ⟨hfetch, himmediate, hread, hwrite, htakenRead, htakenWrite⟩ := hcarries.busPattern_eq
  obtain ⟨-, hfetches, himmediates, hreads, hwrites, -⟩ := h
  have hcodes : ∀ role, (roleCodes role).Nodup ∧ ∀ code ∈ roleCodes role, code < 32 := by
    intro role
    cases role <;> decide
  have hcategory : ∀ role, ownedBusCategory row (busPlane row) lane (roleCodes role) =
      ((laneEventsOf row lane role).length : NativeField) := by
    intro role
    exact ownedBusCategory_eq hrow hlane (hcodes role).1 (hcodes role).2
  have hpattern := hcarries.eventCount_le
  have hbranch := laneBranch_le row lane
  have hsmall : roleCount (busPattern instruction) (laneBranch row lane) role ≤ 10 := by
    have hreadMul := Nat.mul_le_mul_right (busPattern instruction).takenDataReads hbranch
    have hwriteMul := Nat.mul_le_mul_right (busPattern instruction).takenDataWrites hbranch
    unfold eventCount at hpattern
    cases role <;> simp only [roleCount] <;> omega
  refine length_eq_of_natCast ?_ hsmall ?_
  · exact (List.length_filter_le _ _).trans (laneEvents_length_le row lane)
  rw [← hcategory role]
  cases role with
  | opcodeFetch => exact (sub_eq_zero.mp hfetches).trans hfetch
  | immediateRead => exact (sub_eq_zero.mp himmediates).trans himmediate
  | dataRead =>
    have heq : ownedBusCategory row (busPlane row) lane (roleCodes .dataRead) -
        isa row lane isaDataReads - branchTaken row lane * isa row lane isaTakenDataReads = 0 :=
      hreads
    rw [hread, htakenRead, ← natCast_laneBranch hrow hlane] at heq
    rw [roleCount]
    push_cast
    linear_combination heq
  | dataWrite =>
    have heq : ownedBusCategory row (busPlane row) lane (roleCodes .dataWrite) -
        isa row lane isaDataWrites - branchTaken row lane * isa row lane isaTakenDataWrites = 0 :=
      hwrites
    rw [hwrite, htakenWrite, ← natCast_laneBranch hrow hlane] at heq
    rw [roleCount]
    push_cast
    linear_combination heq

end Pattern

/-- The CPU address of a numbered event of a lane, and zero beyond the events. -/
def eventAddress (row : Row NativeField) (lane localSlot : ℕ) : ℕ :=
  (laneEvent row lane localSlot).elim 0 (slotAddress row)

/-- The byte of a numbered event of a lane, and zero beyond the events. -/
def eventValue (row : Row NativeField) (lane localSlot : ℕ) : ℕ :=
  (laneEvent row lane localSlot).elim 0 (slotValue row)

theorem eventAddress_lt (row : Row NativeField) (lane localSlot : ℕ) :
    eventAddress row lane localSlot < 65536 := by
  unfold eventAddress
  cases laneEvent row lane localSlot with
  | none => norm_num
  | some slot => exact slotAddress_lt row slot

theorem eventValue_lt (row : Row NativeField) (lane localSlot : ℕ) :
    eventValue row lane localSlot < 256 := by
  unfold eventValue
  cases laneEvent row lane localSlot with
  | none => norm_num
  | some slot => exact slotValue_lt row slot

theorem mem_laneEvents_of_laneEvent {row : Row NativeField} {lane localSlot slot : ℕ}
    (hevent : laneEvent row lane localSlot = some slot) : slot ∈ laneEvents row lane :=
  List.mem_of_getElem? hevent

/-- The run states in which an instruction starts, and the HALT-bug flag. -/
theorem runState_of_witness {runState bug : NativeField}
    (hrun : runState * (runState - ((3 : ℕ) : NativeField)) = 0)
    (hbug : bug * (runState - ((3 : ℕ) : NativeField)) = 0)
    (hquiet : (((1 : ℕ) : NativeField) - bug) * runState * (runState - ((1 : ℕ) : NativeField)) *
      (runState - ((2 : ℕ) : NativeField)) = 0) :
    (runState = ((0 : ℕ) : NativeField) ∧ bug = ((0 : ℕ) : NativeField)) ∨
      (runState = ((3 : ℕ) : NativeField) ∧ bug = ((1 : ℕ) : NativeField)) := by
  have hne : ∀ n m : ℕ, n < 10 → m < 10 → n ≠ m → (n : NativeField) ≠ (m : NativeField) := by
    intro n m hn hm hne heq
    exact hne ((natCast_inj (hn.trans (by norm_num)) (hm.trans (by norm_num))).mp heq)
  rcases mul_eq_zero.mp hrun with hzero | hthree
  · refine Or.inl ⟨by rw [hzero, Nat.cast_zero], ?_⟩
    rw [Nat.cast_zero]
    refine (mul_eq_zero.mp hbug).resolve_right ?_
    rw [hzero, sub_eq_zero, ← Nat.cast_zero]
    exact hne 0 3 (by norm_num) (by norm_num) (by norm_num)
  · have hrunState := sub_eq_zero.mp hthree
    refine Or.inr ⟨hrunState, ?_⟩
    rw [hrunState] at hquiet
    have h1 := (mul_eq_zero.mp hquiet).resolve_right
      (sub_ne_zero.mpr (hne 3 2 (by norm_num) (by norm_num) (by norm_num)))
    have h2 := (mul_eq_zero.mp h1).resolve_right
      (sub_ne_zero.mpr (hne 3 1 (by norm_num) (by norm_num) (by norm_num)))
    have h3 := (mul_eq_zero.mp h2).resolve_right (by
      have h := hne 3 0 (by norm_num) (by norm_num) (by norm_num)
      rwa [Nat.cast_zero] at h)
    exact (sub_eq_zero.mp h3).symm

section Lane

variable {row : Row NativeField} (hrow : CpuSlices row) {lane : ℕ}
  (hlane : lane < basicBlockInstructionBound)

include hrow hlane

theorem busAddress_eq {localSlot : ℕ} (hlocal : localSlot < basicBlockBusEventBound) :
    busAddress row lane localSlot = (eventAddress row lane localSlot : NativeField) := by
  rw [busAddress, busField, projectLocalBus_eq hrow.busRouting hrow.busMatches hlane hlocal,
    eventAddress]
  cases hevent : laneEvent row lane localSlot with
  | none => exact Nat.cast_zero.symm
  | some slot =>
    have hslot := (mem_laneEvents.mp (mem_laneEvents_of_laneEvent hevent)).1
    exact slotAddressValue_eq hrow.toMachineSlices hslot

theorem busValue_eq {localSlot : ℕ} (hlocal : localSlot < basicBlockBusEventBound) :
    busValue row lane localSlot = (eventValue row lane localSlot : NativeField) := by
  rw [busValue, busField, projectLocalBus_eq hrow.busRouting hrow.busMatches hlane hlocal,
    eventValue]
  cases hevent : laneEvent row lane localSlot with
  | none => exact Nat.cast_zero.symm
  | some slot =>
    have hslot := (mem_laneEvents.mp (mem_laneEvents_of_laneEvent hevent)).1
    exact slotValueValue_eq hrow.toMachineSlices hslot

variable (hactive : laneValue row lane = 1)

include hactive

/-- The lane starts in the running state or under the HALT bug, as its flag says. -/
theorem runState_lane :
    (scalar row lane stateRunState = 0 ∧ laneColumn row lane haltBug = ((0 : ℕ) : NativeField)) ∨
      (scalar row lane stateRunState = 3 ∧
        laneColumn row lane haltBug = ((1 : ℕ) : NativeField)) := by
  have h := (LaneSlices.of_active hrow hlane hactive).instructionWitness
  simp only [constrainInstructionWitness, holds_append, holds_cons, instruction, hactive,
    one_mul] at h
  obtain ⟨-, -, -, -, -, -, -, hrun, hbug, hquiet, -⟩ := h.1.2
  rcases runState_of_witness hrun hbug hquiet with ⟨hstate, hflag⟩ | ⟨hstate, hflag⟩
  · refine Or.inl ⟨?_, hflag⟩
    show (before row lane stateRunState).val = 0
    rw [hstate, ZMod.val_natCast_of_lt (by norm_num)]
  · refine Or.inr ⟨?_, hflag⟩
    show (before row lane stateRunState).val = 3
    rw [hstate, ZMod.val_natCast_of_lt (by norm_num)]

/-- The address after the first opcode byte, before it wraps. -/
theorem nextFetch_cpuAt :
    ∃ bug ≤ 1, laneColumn row lane haltBug = ((bug : ℕ) : NativeField) ∧
      Exec.nextFetch (cpuAt row lane) = (scalar row lane statePc + 1 - bug) % 65536 := by
  have hinstruction := instructionValue_eq_one hrow.toBlockSlices hlane hactive
  have hpc := (scalar_cpu_lt hrow hinstruction hlane.le).1
  rcases runState_lane hrow hlane hactive with ⟨hstate, hflag⟩ | ⟨hstate, hflag⟩
  · refine ⟨0, by norm_num, hflag, ?_⟩
    rw [Exec.nextFetch, if_neg]
    · rfl
    · simp [cpuAt, hstate]
  · refine ⟨1, le_rfl, hflag, ?_⟩
    rw [Exec.nextFetch, if_pos (by simp [cpuAt, hstate])]
    show scalar row lane statePc = _
    omega

end Lane

end Reading

end Zksm83
