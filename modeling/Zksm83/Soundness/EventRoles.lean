import Zksm83.Soundness.EventAddresses

/-!
# Roles of the bus events of a lane

The core fetches, then reads immediates, then reads data, then writes data. A lane is only bound to
the number of its events of each role, so its events have the roles of the core's accesses exactly
if they come in that order.
-/

namespace Zksm83

open Constraint BlockMetadata BlockFrontend BlockIsa BlockBus PackedLane
open IsaTable (BusAccessPattern busPattern dataBus)

/-- The position of a role in the order of an instruction. -/
def roleRank : BusRole → ℕ
  | .opcodeFetch => 0
  | .immediateRead => 1
  | .dataRead => 2
  | .dataWrite => 3

/-- The position of an event kind in the order of an instruction; other kinds come last. -/
def kindRank (kind : ℕ) : ℕ := (kindRole kind).elim 4 roleRank

theorem kindRank_eq_iff (kind : ℕ) (role : BusRole) :
    kindRank kind = roleRank role ↔ kindRole kind = some role := by
  unfold kindRank
  cases kindRole kind with
  | none => cases role <;> simp [roleRank]
  | some found => cases found <;> cases role <;> simp [roleRank]

theorem kindRank_le (kind : ℕ) : kindRank kind ≤ 4 := by
  unfold kindRank
  cases kindRole kind with
  | none => exact le_rfl
  | some role => cases role <;> simp [roleRank]

/-- The ranks of an instruction's events in order. -/
def orderedRanks (pattern : BusAccessPattern) (branch : ℕ) : List ℕ :=
  List.replicate (roleCount pattern branch .opcodeFetch) 0 ++
    List.replicate (roleCount pattern branch .immediateRead) 1 ++
    List.replicate (roleCount pattern branch .dataRead) 2 ++
    List.replicate (roleCount pattern branch .dataWrite) 3

theorem pairwise_orderedRanks (pattern : BusAccessPattern) (branch : ℕ) :
    (orderedRanks pattern branch).Pairwise (· ≤ ·) := by
  have hreplicate : ∀ count rank : ℕ, (List.replicate count rank).Pairwise (· ≤ ·) :=
    fun count rank => List.pairwise_replicate.mpr (Or.inr le_rfl)
  rw [orderedRanks, List.pairwise_append, List.pairwise_append, List.pairwise_append]
  refine ⟨⟨⟨hreplicate _ _, hreplicate _ _, ?_⟩, hreplicate _ _, ?_⟩, hreplicate _ _, ?_⟩
  · intro first hfirst second hsecond
    rw [List.eq_of_mem_replicate hfirst]
    exact Nat.zero_le _
  · intro first hfirst second hsecond
    rw [List.eq_of_mem_replicate hsecond]
    rcases List.mem_append.mp hfirst with h | h <;> rw [List.eq_of_mem_replicate h] <;> omega
  · intro first hfirst second hsecond
    rw [List.eq_of_mem_replicate hsecond]
    rcases List.mem_append.mp hfirst with h | h
    · rcases List.mem_append.mp h with h | h <;> rw [List.eq_of_mem_replicate h] <;> omega
    · rw [List.eq_of_mem_replicate h]
      omega

theorem length_orderedRanks (pattern : BusAccessPattern) (branch : ℕ) :
    (orderedRanks pattern branch).length = eventCount pattern branch := by
  simp only [orderedRanks, List.length_append, List.length_replicate, roleCount, eventCount]
  ring

theorem count_orderedRanks (pattern : BusAccessPattern) (branch : ℕ) (role : BusRole) :
    (orderedRanks pattern branch).count (roleRank role) = roleCount pattern branch role := by
  cases role <;> simp [orderedRanks, roleRank, List.count_replicate]

theorem exists_roleRank {pattern : BusAccessPattern} {branch rank : ℕ}
    (hmem : rank ∈ orderedRanks pattern branch) : ∃ role, rank = roleRank role := by
  simp only [orderedRanks, List.mem_append] at hmem
  rcases hmem with ((h | h) | h) | h
  · exact ⟨.opcodeFetch, List.eq_of_mem_replicate h⟩
  · exact ⟨.immediateRead, List.eq_of_mem_replicate h⟩
  · exact ⟨.dataRead, List.eq_of_mem_replicate h⟩
  · exact ⟨.dataWrite, List.eq_of_mem_replicate h⟩

/-- Sorted ranks with the counts of an instruction are its ranks in order. -/
theorem eq_orderedRanks {ranks : List ℕ} {pattern : BusAccessPattern} {branch : ℕ}
    (hlength : ranks.length = eventCount pattern branch)
    (hcount : ∀ role, ranks.count (roleRank role) = roleCount pattern branch role)
    (hsorted : ranks.Pairwise (· ≤ ·)) : ranks = orderedRanks pattern branch := by
  have hsub : (orderedRanks pattern branch).Subperm ranks := by
    rw [List.subperm_ext_iff]
    intro rank hrank
    obtain ⟨role, rfl⟩ := exists_roleRank hrank
    rw [count_orderedRanks, hcount role]
  have hperm := hsub.perm_of_length_le (by rw [length_orderedRanks, hlength])
  exact (hperm.eq_of_pairwise' (pairwise_orderedRanks pattern branch) hsorted).symm

namespace Reading

/-- One if the condition of a conditional call or return holds. -/
def stackTaken (cpu : CpuState) (operation : Operation) : ℕ :=
  if cpu.takes (stackCondition operation) then 1 else 0

/-- The core reads data before it writes data. -/
theorem operationAccesses_ranks (cpu : CpuState) (immediates : List ℕ) {operation : Operation}
    (hordinary : ordinaryOperands operation = true) :
    (operationAccesses cpu immediates operation).map (fun access => roleRank access.role) =
      List.replicate ((dataBus operation).1 +
        stackTaken cpu operation * (dataBus operation).2.2.1) 2 ++
      List.replicate ((dataBus operation).2.1 +
        stackTaken cpu operation * (dataBus operation).2.2.2) 3 := by
  have htaken : ∀ condition, stackCondition operation = condition →
      stackTaken cpu operation = if cpu.takes condition then 1 else 0 := by
    rintro condition rfl
    rfl
  cases operation with
  | «return» condition =>
    rw [htaken condition rfl]
    cases condition with
    | none => rfl
    | some condition =>
      by_cases htakes : cpu.takes (some condition)
      · simp only [operationAccesses, htakes, if_true]
        rfl
      · simp only [operationAccesses, htakes]
        rfl
  | call condition =>
    rw [htaken condition rfl]
    cases condition with
    | none => rfl
    | some condition =>
      by_cases htakes : cpu.takes (some condition)
      · simp only [operationAccesses, htakes, if_true]
        rfl
      · simp only [operationAccesses, htakes]
        rfl
  | loadAccumulatorIndirect address direction => cases direction <;> rfl
  | highImmediateLoad direction => cases direction <;> rfl
  | highCLoad direction => cases direction <;> rfl
  | absoluteAccumulatorLoad direction => cases direction <;> rfl
  | load8Immediate target => cases target <;> rfl
  | increment8 target => cases target <;> rfl
  | decrement8 target => cases target <;> rfl
  | alu8 operation source => cases source <;> rfl
  | load8 destination source =>
    cases destination with
    | indirectHl =>
      cases source with
      | indirectHl => exact absurd hordinary (by decide)
      | _ => rfl
    | _ => cases source <;> rfl
  | cb operation target => cases operation <;> cases target <;> rfl
  | _ => rfl

/-- The ranks of a lane's events, in order. -/
def laneRanks (row : Row NativeField) (lane : ℕ) : List ℕ :=
  (laneEvents row lane).map (fun slot => kindRank (slotKind row slot))

/-- The ranks of the core's accesses from the state before the lane, answered with the bytes of
the lane's events. -/
def coreRanks (row : Row NativeField) (lane : ℕ) : List ℕ :=
  (accesses (eventValue row lane) (cpuAt row lane)).map (fun access => roleRank access.role)

/-- The numbered events of a lane have the roles of the core's accesses: those the core makes from
the state before the lane, answered with the bytes of the lane's events. -/
def RolesBound (row : Row NativeField) (lane : ℕ) : Prop :=
  ∀ localSlot slot, laneEvent row lane localSlot = some slot →
    ∃ access, (accesses (eventValue row lane) (cpuAt row lane))[localSlot]? = some access ∧
      kindRole (slotKind row slot) = some access.role

/-- No event of the lane has a kind of an earlier category than the event before it: fetches come
before immediate reads, these before data reads, and these before data writes. -/
def RolesOrdered (row : Row NativeField) (lane : ℕ) : Prop :=
  ∀ localSlot first second, laneEvent row lane localSlot = some first →
    laneEvent row lane (localSlot + 1) = some second →
      kindRank (slotKind row first) ≤ kindRank (slotKind row second)

theorem rolesBound_iff_ranks (row : Row NativeField) (lane : ℕ) :
    RolesBound row lane ↔ laneRanks row lane <+: coreRanks row lane := by
  rw [List.prefix_iff_getElem?]
  constructor
  · intro h localSlot hlt
    have hlength : localSlot < (laneEvents row lane).length := by
      rwa [laneRanks, List.length_map] at hlt
    obtain ⟨access, haccess, hrole⟩ := h localSlot _ (laneEvent_eq_some_iff.mpr ⟨hlength, rfl⟩)
    rw [coreRanks, List.getElem?_map, haccess]
    simp only [laneRanks, List.getElem_map, Option.map_some, Option.some.injEq]
    exact ((kindRank_eq_iff _ _).mpr hrole).symm
  · intro h localSlot slot hevent
    obtain ⟨hlt, rfl⟩ := laneEvent_eq_some_iff.mp hevent
    have hrank := h localSlot (by rwa [laneRanks, List.length_map])
    rw [coreRanks, List.getElem?_map, Option.map_eq_some_iff] at hrank
    obtain ⟨access, haccess, hrole⟩ := hrank
    refine ⟨access, haccess, (kindRank_eq_iff _ _).mp ?_⟩
    simpa only [laneRanks, List.getElem_map] using hrole.symm

theorem rolesOrdered_iff_pairwise (row : Row NativeField) (lane : ℕ) :
    RolesOrdered row lane ↔ (laneRanks row lane).Pairwise (· ≤ ·) := by
  rw [← List.isChain_iff_pairwise, List.isChain_iff_getElem]
  simp only [laneRanks, List.getElem_map, List.length_map]
  constructor
  · intro h localSlot hlt
    exact h localSlot _ _ (laneEvent_eq_some_iff.mpr ⟨by omega, rfl⟩)
      (laneEvent_eq_some_iff.mpr ⟨hlt, rfl⟩)
  · intro h localSlot first second hfirst hsecond
    obtain ⟨hlt, rfl⟩ := laneEvent_eq_some_iff.mp hfirst
    obtain ⟨hlt', rfl⟩ := laneEvent_eq_some_iff.mp hsecond
    exact h localSlot hlt'

section Lane

variable {row : Row NativeField} (hrow : CpuSlices row) {lane : ℕ}
  (hlane : lane < basicBlockInstructionBound) (hactive : laneValue row lane = 1)
  {instruction : DecodedInstruction} (hcarries : Carries row lane instruction)

include hrow hlane hcarries

/-- The events of a lane whose categories do not descend have the ranks of its instruction. -/
theorem laneRanks_eq (hordered : RolesOrdered row lane) :
    laneRanks row lane = orderedRanks (busPattern instruction) (laneBranch row lane) := by
  refine eq_orderedRanks ?_ ?_ ((rolesOrdered_iff_pairwise row lane).mp hordered)
  · rw [laneRanks, List.length_map, laneEvents_length hrow.toBlockSlices hlane hcarries]
  · intro role
    rw [← laneEventsOf_length hrow.toBlockSlices hlane hcarries role, laneEventsOf, laneRanks,
      List.count, List.countP_map, List.countP_eq_length_filter]
    congr 1
    refine List.filter_congr ?_
    intro slot _
    rw [Function.comp_apply, beq_eq_decide, decide_eq_decide, kindRank_eq_iff,
      kindRole_eq_some_iff]

include hactive

/-- The core's accesses have the ranks of the instruction. -/
theorem coreRanks_eq (hbare : laneAddress row lane ≠ 0xcb) :
    coreRanks row lane = orderedRanks (busPattern instruction)
      (stackTaken (cpuAt row lane) instruction.operation) := by
  have hdata := operationAccesses_ranks (cpuAt row lane)
    (Exec.answered (eventValue row lane) 1 (busPattern instruction).immediateReads)
    hcarries.ordinaryOperands
  have himmediates : ∀ pc count, (Exec.immediateAccesses pc count).map
      (fun access => roleRank access.role) = List.replicate count 1 := by
    intro pc count
    induction count generalizing pc with
    | zero => rfl
    | succ count ih =>
      rw [Exec.immediateAccesses, List.map_cons, ih, List.replicate_succ]
      rfl
  rcases Nat.lt_or_ge (laneAddress row lane) 256 with hprimary | hprefixed
  · obtain ⟨-, -, hfetches, -⟩ := hcarries.primary hprimary
    rw [coreRanks, (fetchesBound_primary hrow hlane hactive hcarries hprimary hbare).accesses,
      List.map_append, laneAccesses, hdata, List.map_cons, himmediates, orderedRanks, roleCount,
      hfetches]
    simp [roleCount, busPattern, roleRank]
  · obtain ⟨-, hfetches, himmediateReads, -⟩ := hcarries.prefixed hprefixed
    rw [coreRanks, (fetchesBound_cb hrow hlane hactive hcarries hprefixed).accesses,
      List.map_append, laneAccesses, hdata, orderedRanks, roleCount, roleCount, hfetches,
      himmediateReads]
    simp [roleCount, busPattern, roleRank, List.replicate_succ]

omit hrow hlane hcarries hactive in
/-- Only conditional calls and returns have events that depend on the branch, and these have no
other data events. -/
theorem dataBus_taken (operation : Operation) :
    ((dataBus operation).2.2.1 = 0 ∧ (dataBus operation).2.2.2 = 0 ∧
      stackCondition operation = none) ∨
    ((dataBus operation).1 = 0 ∧ (dataBus operation).2.1 = 0 ∧
      0 < (dataBus operation).2.2.1 + (dataBus operation).2.2.2) := by
  cases operation with
  | «return» condition => cases condition <;> simp [dataBus, stackCondition]
  | call condition => cases condition <;> simp [dataBus, stackCondition]
  | loadAccumulatorIndirect address direction => cases direction <;> exact .inl ⟨rfl, rfl, rfl⟩
  | highImmediateLoad direction => cases direction <;> exact .inl ⟨rfl, rfl, rfl⟩
  | highCLoad direction => cases direction <;> exact .inl ⟨rfl, rfl, rfl⟩
  | absoluteAccumulatorLoad direction => cases direction <;> exact .inl ⟨rfl, rfl, rfl⟩
  | load8Immediate target => cases target <;> exact .inl ⟨rfl, rfl, rfl⟩
  | increment8 target => cases target <;> exact .inl ⟨rfl, rfl, rfl⟩
  | decrement8 target => cases target <;> exact .inl ⟨rfl, rfl, rfl⟩
  | alu8 operation source => cases source <;> exact .inl ⟨rfl, rfl, rfl⟩
  | load8 destination source =>
    cases destination <;> cases source <;> exact .inl ⟨rfl, rfl, rfl⟩
  | cb operation target => cases operation <;> cases target <;> exact .inl ⟨rfl, rfl, rfl⟩
  | _ => exact .inl ⟨rfl, rfl, rfl⟩

omit hrow hlane hcarries hactive in
/-- The events of an instruction begin those of the core exactly if a branch is a true one. -/
theorem orderedRanks_prefix_iff (cpu : CpuState) (instruction : DecodedInstruction) {branch : ℕ}
    (hbranch : branch ≤ 1) :
    orderedRanks (busPattern instruction) branch <+:
        orderedRanks (busPattern instruction) (stackTaken cpu instruction.operation) ↔
      (branch = 1 → cpu.takes (stackCondition instruction.operation) = true) := by
  have htaken : stackTaken cpu instruction.operation =
      if cpu.takes (stackCondition instruction.operation) then 1 else 0 := rfl
  by_cases htakes : cpu.takes (stackCondition instruction.operation) = true
  · rw [if_pos htakes] at htaken
    refine ⟨fun _ _ => htakes, fun _ => ?_⟩
    rw [htaken]
    rcases Nat.le_one_iff_eq_zero_or_eq_one.mp hbranch with rfl | rfl
    · rcases dataBus_taken instruction.operation with ⟨hreads, hwrites, -⟩ | ⟨hreads, hwrites, -⟩
      · simp [orderedRanks, roleCount, busPattern, hreads, hwrites]
      · simp [orderedRanks, roleCount, busPattern, hreads, hwrites]
    · exact List.prefix_rfl
  · rw [if_neg htakes] at htaken
    rw [htaken]
    constructor
    · intro hsub hone
      have hlength := hsub.length_le
      rw [length_orderedRanks, length_orderedRanks, hone] at hlength
      rcases dataBus_taken instruction.operation with ⟨-, -, hnone⟩ | ⟨-, -, hpos⟩
      · rw [hnone] at htakes
        exact absurd rfl htakes
      · have htakenCount : (busPattern instruction).takenDataReads +
            (busPattern instruction).takenDataWrites = (dataBus instruction.operation).2.2.1 +
            (dataBus instruction.operation).2.2.2 := rfl
        unfold eventCount at hlength
        omega
    · intro hfalse
      obtain rfl : branch = 0 := by
        by_contra hne
        exact htakes (hfalse (by omega))
      exact List.prefix_rfl

/-- The bare prefix byte is one fetch. -/
theorem rolesBound_bare (hbare : laneAddress row lane = 0xcb) :
    RolesBound row lane ∧ RolesOrdered row lane ∧ instruction.operation = .prefixCb := by
  have hdecode := hcarries.decode
  rw [hbare, show decodeAddress 0xcb = some (decodeDefinedPrimary 0xcb) from rfl,
    Option.some.injEq] at hdecode
  have hzero := (fetched_primary hrow hlane hactive hcarries (by rw [hbare]; norm_num)).1
  have hlength := laneEvents_length hrow.toBlockSlices hlane hcarries
  have hone : eventCount (busPattern instruction) (laneBranch row lane) = 1 := by
    rw [← hdecode]
    rfl
  have hordered : RolesOrdered row lane := by
    intro localSlot first second _ hsecond
    obtain ⟨hlt, -⟩ := laneEvent_eq_some_iff.mp hsecond
    omega
  have hranks := laneRanks_eq hrow hlane hcarries hordered
  refine ⟨?_, hordered, by rw [← hdecode]; rfl⟩
  rw [rolesBound_iff_ranks, hranks, ← hdecode, coreRanks, Exec.accesses_cb (hzero.trans hbare)]
  exact ⟨_, rfl⟩

theorem rolesBound_iff_of_carries :
    RolesBound row lane ↔ RolesOrdered row lane ∧ StackBranchTrue row lane := by
  have hsame : ∀ other, decodeAddress (laneAddress row lane) = some other → other = instruction :=
    fun other hother => Option.some.inj (hother.symm.trans hcarries.decode)
  by_cases hbare : laneAddress row lane = 0xcb
  · obtain ⟨hbound, hordered, hoperation⟩ :=
      rolesBound_bare hrow hlane hactive hcarries hbare
    refine ⟨fun _ => ⟨hordered, ?_⟩, fun _ => hbound⟩
    intro other hother _
    rw [hsame other hother, hoperation]
    rfl
  · have hcore := coreRanks_eq hrow hlane hactive hcarries hbare
    have hbranch := orderedRanks_prefix_iff (cpuAt row lane) instruction (laneBranch_le row lane)
    rw [rolesBound_iff_ranks, hcore]
    constructor
    · intro hbound
      have hordered : RolesOrdered row lane := by
        rw [rolesOrdered_iff_pairwise]
        exact (pairwise_orderedRanks _ _).sublist hbound.sublist
      rw [laneRanks_eq hrow hlane hcarries hordered] at hbound
      refine ⟨hordered, ?_⟩
      intro other hother
      rw [hsame other hother]
      exact hbranch.mp hbound
    · rintro ⟨hordered, htrue⟩
      rw [laneRanks_eq hrow hlane hcarries hordered]
      exact hbranch.mpr (htrue instruction hcarries.decode)

end Lane

end Reading

open Reading

/-- Every row of `BlockCpuRelation` and every active lane with its row of the fixed table: the
events of the lane have the roles of the core's accesses exactly if no event has a kind of an
earlier category than the event before it and a conditional call or return that the lane takes has
a true condition. -/
theorem rolesBound_iff (row : Row NativeField) (hrow : Holds (BlockCpu.evaluate row))
    (lane : ℕ) (hlane : lane < basicBlockInstructionBound) (hactive : laneValue row lane = 1)
    (hisa : IsaBound row lane) :
    RolesBound row lane ↔ RolesOrdered row lane ∧ StackBranchTrue row lane := by
  have hslices := CpuSlices.of_holds hrow
  obtain ⟨instruction, hcarries⟩ :=
    carries_of_isaBound hslices.toBlockSlices hlane hactive hisa
  exact rolesBound_iff_of_carries hslices hlane hactive hcarries

section LoadRow

open Forgery

/-- The forged load is an active lane with its row of the fixed table. -/
theorem rolesBound_iff_loadRow :
    Holds (BlockCpu.evaluate loadRow) ∧ laneValue loadRow 0 = 1 ∧ IsaBound loadRow 0 ∧
      (RolesBound loadRow 0 ↔ RolesOrdered loadRow 0 ∧ StackBranchTrue loadRow 0) :=
  ⟨loadRow_holds, loadRow_lane, isaBound_loadRow,
    rolesBound_iff loadRow loadRow_holds 0 (by norm_num) loadRow_lane isaBound_loadRow⟩

/-- The forged load takes its opcode byte from a data read. -/
theorem roles_unbound_loadRow :
    ¬ ∀ (row : Row NativeField) (lane : ℕ), Holds (BlockCpu.evaluate row) →
      lane < basicBlockInstructionBound → laneValue row lane = 1 → IsaBound row lane →
      RolesBound row lane := by
  intro hbound
  have hload := hbound loadRow 0 loadRow_holds (by norm_num) loadRow_lane isaBound_loadRow
  have hslices := CpuSlices.of_holds loadRow_holds
  obtain ⟨instruction, hcarries⟩ := carries_of_isaBound hslices.toBlockSlices (by norm_num)
    loadRow_lane isaBound_loadRow
  obtain ⟨hordered, -⟩ := (rolesBound_iff_of_carries hslices (by norm_num) loadRow_lane
    hcarries).mp hload
  obtain ⟨hfirst, hsecond⟩ := loadRow_kinds
  have hrank := hordered 0 0 1 (by rw [laneEvent, laneEvents_loadRow]; rfl)
    (by rw [laneEvent, laneEvents_loadRow]; rfl)
  rw [hfirst, hsecond] at hrank
  exact absurd hrank (by decide)

end LoadRow

end Zksm83
