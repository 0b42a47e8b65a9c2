import Zksm83.Block.Routing
import Zksm83.Library.Tiling
import Zksm83.Soundness.OneHot

/-!
# A routed row divides its slots among its lanes

The routing relation looks at one slot, at two neighbouring slots, and at the number of slots of a
lane. Together this says that the active lanes are the first few, and that they divide an initial
stretch of the slots of each resource into intervals, in lane order. Read
`BlockRouting.holds_evaluate_iff_routes` first. After `block_metadata.rs` and `block_routing.rs`.
-/

namespace Zksm83

open Constraint BlockMetadata BlockRouting Tiling

namespace Reading

/-- The lane owns the slot of the resource that starts at column `start`. -/
abbrev LaneOwns (row : Row NativeField) (start slot lane : ℕ) : Prop :=
  lane < basicBlockInstructionBound ∧ BlockRouting.owner row start slot lane = 1

section Slots

variable {row : Row NativeField} {start slots : ℕ}
  (hbits : ∀ slot < slots, ∀ lane < basicBlockInstructionBound,
    IsBit (BlockRouting.owner row start slot lane))

include hbits

theorem isBit_ownerTotal_iff {slot : ℕ} (hslot : slot < slots) :
    IsBit (totalOver basicBlockInstructionBound (BlockRouting.owner row start slot)) ↔
      ∀ left right, LaneOwns row start slot left → LaneOwns row start slot right →
        left = right := by
  rw [isBit_totalOver_iff (by norm_num) (hbits slot hslot)]
  constructor
  · rintro hunique left right ⟨hleft, hone⟩ ⟨hright, hone'⟩
    exact hunique left hleft right hright hone hone'
  · intro hunique left hleft right hright hone hone'
    exact hunique left right ⟨hleft, hone⟩ ⟨hright, hone'⟩

/-- The first constraint of a transition says that the slot before an owned one is owned. -/
theorem closed_iff {slot : ℕ} (hslot : slot + 1 < slots)
    (htotal : IsBit (totalOver basicBlockInstructionBound (BlockRouting.owner row start slot))) :
    (((1 : ℕ) : NativeField) -
        totalOver basicBlockInstructionBound (BlockRouting.owner row start slot)) *
          totalOver basicBlockInstructionBound (BlockRouting.owner row start (slot + 1)) = 0 ↔
      ∀ next, LaneOwns row start (slot + 1) next → ∃ lane, LaneOwns row start slot lane := by
  have hcurrent := hbits slot (by omega)
  rw [Nat.cast_one]
  rcases htotal with hzero | hone
  · -- Nobody owns the slot.
    have hnone := (totalOver_eq_zero_iff (by norm_num) hcurrent).mp hzero
    rw [hzero, sub_zero, one_mul, totalOver_eq_zero_iff (by norm_num) (hbits (slot + 1) hslot)]
    constructor
    · rintro hnext next ⟨hlane, hone⟩
      exact absurd hone (hnext next hlane)
    · intro hclosed next hlane hone
      obtain ⟨lane, hlane', hone'⟩ := hclosed next ⟨hlane, hone⟩
      exact hnone lane hlane' hone'
  · rw [hone, sub_self, zero_mul]
    obtain ⟨lane, hlane, hone'⟩ := exists_of_totalOver_eq_one hcurrent hone
    exact iff_of_true rfl (fun _ _ => ⟨lane, hlane, hone'⟩)

/-- The constraint on a lane says that the next slot stays with the lane or goes to the lane after
it. -/
theorem next_iff {slot lane : ℕ} (hslot : slot + 1 < slots)
    (hlane : lane < basicBlockInstructionBound) :
    BlockRouting.owner row start slot lane * invalidNext row start slot lane = 0 ↔
      ∀ next, LaneOwns row start slot lane → LaneOwns row start (slot + 1) next →
        next = lane ∨ next = lane + 1 := by
  rcases hbits slot (by omega) lane hlane with hzero | hone
  · rw [hzero, zero_mul]
    refine iff_of_true rfl ?_
    rintro next ⟨-, hone⟩ -
    rw [hzero] at hone
    exact absurd hone zero_ne_one
  rw [hone, one_mul, invalidNext, total_map_eq_zero_iff]
  · simp only [List.mem_filter, List.mem_range, Bool.or_eq_true, decide_eq_true_eq]
    constructor
    · rintro hinvalid next - ⟨hnext, hone'⟩
      by_contra hfar
      exact hinvalid next ⟨hnext, by omega⟩ hone'
    · rintro hnear next ⟨hnext, hfar⟩ hone'
      have := hnear next ⟨hlane, hone⟩ ⟨hnext, hone'⟩
      omega
  · exact (List.length_filter_le _ _).trans_lt (by rw [List.length_range]; norm_num)
  · intro next hnext
    exact hbits (slot + 1) hslot next (List.mem_range.mp (List.mem_filter.mp hnext).1)

theorem holds_transition_iff {slot : ℕ} (hslot : slot + 1 < slots)
    (htotal : IsBit (totalOver basicBlockInstructionBound (BlockRouting.owner row start slot))) :
    Holds (constrainResourceTransition row start slot) ↔
      (∀ next, LaneOwns row start (slot + 1) next → ∃ lane, LaneOwns row start slot lane) ∧
        ∀ lane next, LaneOwns row start slot lane → LaneOwns row start (slot + 1) next →
          next = lane ∨ next = lane + 1 := by
  simp only [constrainResourceTransition, holds_cons, holds_map, List.mem_range]
  rw [closed_iff hbits hslot htotal]
  refine and_congr_right ?_
  intro _
  constructor
  · intro hlanes lane next howner
    exact (next_iff hbits hslot howner.1).mp (hlanes lane howner.1) next howner
  · intro hstep lane hlane
    exact (next_iff hbits hslot hlane).mpr (fun next => hstep lane next)

/-- The local constraints on the owner bits of a resource say that they tile its slots. -/
theorem isTiling_iff :
    ((∀ slot < slots,
        IsBit (totalOver basicBlockInstructionBound (BlockRouting.owner row start slot))) ∧
      ∀ slot, slot + 1 < slots → Holds (constrainResourceTransition row start slot)) ↔
        IsTiling slots (LaneOwns row start) := by
  constructor
  · rintro ⟨htotals, htransitions⟩
    refine ⟨fun slot hslot => (isBit_ownerTotal_iff hbits hslot).mp (htotals slot hslot), ?_, ?_⟩
    · intro slot hslot
      exact ((holds_transition_iff hbits hslot (htotals slot (by omega))).mp
        (htransitions slot hslot)).1
    · intro slot hslot
      exact ((holds_transition_iff hbits hslot (htotals slot (by omega))).mp
        (htransitions slot hslot)).2
  · intro h
    have htotals : ∀ slot < slots,
        IsBit (totalOver basicBlockInstructionBound (BlockRouting.owner row start slot)) :=
      fun slot hslot => (isBit_ownerTotal_iff hbits hslot).mpr (h.unique slot hslot)
    refine ⟨htotals, ?_⟩
    intro slot hslot
    exact (holds_transition_iff hbits hslot (htotals slot (by omega))).mpr
      ⟨h.closed slot hslot, h.step slot hslot⟩

section Count

variable {lane : ℕ} (hlane : lane < basicBlockInstructionBound) (hslots : slots < 1000)

include hlane hslots

theorem ownedCount_eq_zero_iff :
    ownedCount row slots start lane = 0 ↔ ∀ slot < slots, ¬ LaneOwns row start slot lane := by
  rw [ownedCount, totalOver_eq_zero_iff hslots (fun slot hslot => hbits slot hslot lane hlane)]
  simp only [LaneOwns, hlane, true_and, ne_eq]

/-- The product over the allowed counts vanishes exactly if the lane owns a slot. -/
theorem countProduct_eq_zero_iff :
    productFrom ((1 : ℕ) : NativeField) ((List.range slots).map (fun allowed =>
        ownedCount row slots start lane - ((allowed + 1 : ℕ) : NativeField))) = 0 ↔
      ∃ slot < slots, LaneOwns row start slot lane := by
  have hlaneBits : ∀ slot < slots, IsBit (BlockRouting.owner row start slot lane) :=
    fun slot hslot => hbits slot hslot lane hlane
  rw [productFrom_eq_prod, Nat.cast_one, one_mul, List.prod_eq_zero_iff]
  simp only [List.mem_map, List.mem_range, sub_eq_zero]
  constructor
  · rintro ⟨allowed, hallowed, hcount⟩
    by_contra hnone
    simp only [not_exists, not_and] at hnone
    rw [(ownedCount_eq_zero_iff hbits hlane hslots).mpr (fun slot hslot => by
      simpa using hnone slot hslot)] at hcount
    exact natCast_ne_zero (by omega) (by omega) hcount.symm
  · rintro ⟨slot, hslot, -, hone⟩
    -- The count is the number of set bits, which is at least one and at most all of them.
    have hpos : bitNat (BlockRouting.owner row start slot lane) ≤
        ∑ slot ∈ Finset.range slots, bitNat (BlockRouting.owner row start slot lane) :=
      Finset.single_le_sum (f := fun slot => bitNat (BlockRouting.owner row start slot lane))
        (fun _ _ => Nat.zero_le _) (Finset.mem_range.mpr hslot)
    have hle : ∑ slot ∈ Finset.range slots, bitNat (BlockRouting.owner row start slot lane) ≤
        slots := by
      calc ∑ slot ∈ Finset.range slots, bitNat (BlockRouting.owner row start slot lane)
          ≤ ∑ _slot ∈ Finset.range slots, 1 := Finset.sum_le_sum (fun _ _ => bitNat_le_one _)
        _ = slots := by simp
    rw [hone, bitNat_one] at hpos
    refine ⟨∑ slot ∈ Finset.range slots, bitNat (BlockRouting.owner row start slot lane) - 1,
      by omega, ?_⟩
    rw [ownedCount, totalOver_eq_natCast hlaneBits, Nat.sub_add_cancel hpos]

end Count

end Slots

section Resource

variable {row : Row NativeField} {slots start : ℕ} {instruction : NativeField}
  (h : Holds (constrainResource slots row start instruction))

include h

theorem isBit_owner {slot lane : ℕ} (hslot : slot < slots)
    (hlane : lane < basicBlockInstructionBound) : IsBit (BlockRouting.owner row start slot lane) := by
  simp only [constrainResource, holds_append, holds_flatMap, holds_map, List.mem_range,
    boolean_eq_zero_iff] at h
  exact (h.1.1.1 slot hslot).1 lane hlane

/-- The owner bits of a resource tile its slots. -/
theorem isTiling_owner : IsTiling slots (LaneOwns row start) := by
  refine (isTiling_iff (fun slot hslot lane hlane => isBit_owner h hslot hlane)).mp ?_
  simp only [constrainResource, holds_append, holds_flatMap, holds_map, holds_cons, List.mem_range,
    boolean_eq_zero_iff] at h
  refine ⟨fun slot hslot => (h.1.1.1 slot hslot).2.1, ?_⟩
  intro slot hslot
  exact h.2 slot (by omega)

end Resource

/-- The constraints on one resource, read as statements about the owners of slots. -/
theorem holds_constrainResource_iff {row : Row NativeField} {slots start : ℕ}
    {instruction : NativeField} (hslots : slots < 1000)
    (hactive : ∀ lane < basicBlockInstructionBound, IsBit (laneValue row lane)) :
    Holds (constrainResource slots row start instruction) ↔
      (∀ slot < slots, ∀ lane < basicBlockInstructionBound,
        IsBit (BlockRouting.owner row start slot lane)) ∧
      IsTiling slots (LaneOwns row start) ∧
      (∀ lane < basicBlockInstructionBound,
        laneValue row lane = 1 ↔ ∃ slot < slots, LaneOwns row start slot lane) ∧
      BlockRouting.owner row start 0 0 = instruction := by
  simp only [constrainResource, holds_append, holds_flatMap, holds_map, holds_cons, holds_nil,
    List.mem_range, boolean_eq_zero_iff, and_true, sub_eq_zero]
  constructor
  · rintro ⟨⟨⟨hslot, hlanes⟩, hfirst⟩, htransitions⟩
    have hbits := fun slot hlt => (hslot slot hlt).1
    refine ⟨hbits, (isTiling_iff hbits).mp ⟨fun slot hlt => (hslot slot hlt).2, ?_⟩, ?_, hfirst⟩
    · intro slot hlt
      exact htransitions slot (by omega)
    intro lane hlane
    obtain ⟨hidle, hused⟩ := hlanes lane hlane
    rcases hactive lane hlane with hzero | hone
    · rw [hzero, Nat.cast_one, sub_zero, one_mul,
        ownedCount_eq_zero_iff hbits hlane hslots] at hidle
      rw [hzero]
      refine iff_of_false zero_ne_one ?_
      rintro ⟨slot, hlt, howner⟩
      exact hidle slot hlt howner
    · rw [hone, one_mul, countProduct_eq_zero_iff hbits hlane hslots] at hused
      exact iff_of_true hone hused
  · rintro ⟨hbits, htiling, hlanes, hfirst⟩
    obtain ⟨htotals, htransitions⟩ := (isTiling_iff hbits).mpr htiling
    refine ⟨⟨⟨fun slot hlt => ⟨hbits slot hlt, htotals slot hlt⟩, ?_⟩, hfirst⟩, ?_⟩
    · intro lane hlane
      rcases hactive lane hlane with hzero | hone
      · have hidle := (hlanes lane hlane).not.mp (by rw [hzero]; exact zero_ne_one)
        rw [hzero, zero_mul, Nat.cast_one, sub_zero, one_mul,
          ownedCount_eq_zero_iff hbits hlane hslots]
        exact ⟨fun slot hlt howner => hidle ⟨slot, hlt, howner⟩, rfl⟩
      · rw [hone, Nat.cast_one, sub_self, zero_mul, one_mul, ← Nat.cast_one,
          countProduct_eq_zero_iff hbits hlane hslots]
        exact ⟨rfl, (hlanes lane hlane).mp hone⟩
    · intro slot hlt
      exact htransitions slot (by omega)

/-- The metadata constraints, read as statements about bits and a count of active lanes. -/
theorem holds_metadata_iff (row : Row NativeField) :
    Holds (BlockMetadata.evaluate row) ↔
      IsBit (blockActiveValue row) ∧ IsBit (instructionValue row) ∧
      (instructionValue row = 1 → blockActiveValue row = 1) ∧
      ∃ active ≤ basicBlockInstructionBound,
        (∀ lane < basicBlockInstructionBound,
          laneValue row lane = if lane < active then 1 else 0) ∧
        instructionValue row = if 0 < active then 1 else 0 := by
  simp only [BlockMetadata.evaluate, holds_append, holds_map, holds_cons, holds_nil,
    List.mem_range, boolean_eq_zero_iff, and_true, Nat.cast_one]
  constructor
  · rintro ⟨⟨⟨⟨hblock, hinstruction, hinside⟩, hbits⟩, hearlier⟩, hfirst⟩
    obtain ⟨active, hactive, hlanes⟩ := exists_activeCount hbits (by
      intro lane hlane hone
      have hearlier' := hearlier lane (by omega)
      rw [hone, one_mul] at hearlier'
      exact (sub_eq_zero.mp hearlier').symm)
    refine ⟨hblock, hinstruction, ?_, active, hactive, hlanes, ?_⟩
    · intro hone
      rw [hone, one_mul] at hinside
      exact (sub_eq_zero.mp hinside).symm
    · rw [← sub_eq_zero.mp hfirst]
      exact hlanes 0 (by norm_num)
  · rintro ⟨hblock, hinstruction, hinside, active, hactive, hlanes, hvalue⟩
    refine ⟨⟨⟨⟨hblock, hinstruction, ?_⟩, ?_⟩, ?_⟩, ?_⟩
    · rcases hinstruction with hzero | hone
      · rw [hzero, zero_mul]
      · rw [hinside hone, sub_self, mul_zero]
    · intro lane hlane
      rw [hlanes lane hlane]
      split_ifs
      · exact isBit_one
      · exact isBit_zero
    · intro lane hlane
      rw [hlanes lane (by omega), hlanes (lane + 1) (by omega)]
      split_ifs <;> first | omega | ring
    · rw [hvalue, hlanes 0 (by norm_num), sub_self]

end Reading

namespace BlockRouting

open Reading

/-- The row routes its slots to the first `active` lanes. -/
structure Routes (row : Row NativeField) (active : ℕ) : Prop where
  active_le : active ≤ basicBlockInstructionBound
  blockActive : IsBit (blockActiveValue row)
  instruction : IsBit (instructionValue row)
  insideBlock : instructionValue row = 1 → blockActiveValue row = 1
  lanes : ∀ lane < basicBlockInstructionBound, laneValue row lane = if lane < active then 1 else 0
  nonempty : instructionValue row = 1 ↔ 0 < active
  cycleBits : ∀ slot < basicBlockMCycleBound, ∀ lane < basicBlockInstructionBound,
    IsBit (cycleOwnerValue row slot lane)
  busBits : ∀ slot < basicBlockBusEventBound, ∀ lane < basicBlockInstructionBound,
    IsBit (busOwnerValue row slot lane)
  cycles : IsDivision basicBlockMCycleBound active
    (fun slot lane => lane < basicBlockInstructionBound ∧ cycleOwnerValue row slot lane = 1)
  buses : IsDivision basicBlockBusEventBound active
    (fun slot lane => lane < basicBlockInstructionBound ∧ busOwnerValue row slot lane = 1)

section Division

variable {row : Row NativeField} {slots start active : ℕ} {instruction : NativeField}

/-- For active lanes that are the first few, the constraints on a resource say that its owner bits
are bits and that the slots are divided among these lanes. -/
theorem holds_constrainResource_iff (hslots : slots < 1000)
    (hactive : active ≤ basicBlockInstructionBound)
    (hlanes : ∀ lane < basicBlockInstructionBound,
      laneValue row lane = if lane < active then 1 else 0)
    (hinstruction : instruction = if 0 < active then 1 else 0) (hpos : 0 < slots) :
    Holds (constrainResource slots row start instruction) ↔
      (∀ slot < slots, ∀ lane < basicBlockInstructionBound,
        IsBit (BlockRouting.owner row start slot lane)) ∧
      IsDivision slots active (LaneOwns row start) := by
  have hone : ∀ lane < basicBlockInstructionBound, (laneValue row lane = 1 ↔ lane < active) := by
    intro lane hlane
    rw [hlanes lane hlane]
    split_ifs <;> simp_all
  rw [Reading.holds_constrainResource_iff hslots (by
    intro lane hlane
    rw [hlanes lane hlane]
    split_ifs
    · exact isBit_one
    · exact isBit_zero)]
  refine and_congr_right ?_
  intro hbits
  constructor
  · rintro ⟨htiling, hused, -⟩
    refine isDivision_iff.mpr ⟨htiling, ?_, ?_⟩
    · intro lane hlane
      exact (hused lane (by omega)).mp ((hone lane (by omega)).mpr hlane)
    · intro slot hslot lane howner
      exact (hone lane howner.1).mp ((hused lane howner.1).mpr ⟨slot, hslot, howner⟩)
  · intro hdivision
    obtain ⟨htiling, hused, hidle⟩ := isDivision_iff.mp hdivision
    refine ⟨htiling, ?_, ?_⟩
    · intro lane hlane
      rw [hone lane hlane]
      exact ⟨hused lane, fun ⟨slot, hslot, howner⟩ => hidle slot hslot lane howner⟩
    · rw [hinstruction]
      split_ifs with hnone
      · exact (hdivision.owns_zero hnone).2
      · refine (hbits 0 hpos 0 (by norm_num)).resolve_right ?_
        intro howner
        have := hidle 0 hpos 0 ⟨by norm_num, howner⟩
        omega

end Division

/-- A row satisfies the routing relation exactly if it routes its slots to the first few lanes. -/
theorem holds_evaluate_iff_routes (row : Row NativeField) :
    Holds (evaluate row) ↔ ∃ active, Routes row active := by
  rw [evaluate, holds_append, holds_append, holds_metadata_iff]
  constructor
  · rintro ⟨⟨⟨hblock, hinstruction, hinside, active, hactive, hlanes, hvalue⟩, hcycles⟩, hbuses⟩
    rw [holds_constrainResource_iff (by norm_num) hactive hlanes hvalue (by norm_num)]
      at hcycles hbuses
    refine ⟨active, hactive, hblock, hinstruction, hinside, hlanes, ?_, hcycles.1, hbuses.1,
      hcycles.2, hbuses.2⟩
    rw [hvalue]
    split_ifs <;> simp_all
  · rintro ⟨active, h⟩
    have hvalue : instructionValue row = if 0 < active then 1 else 0 := by
      split_ifs with hpos
      · exact h.nonempty.mpr hpos
      · exact h.instruction.resolve_right (fun hone => hpos (h.nonempty.mp hone))
    refine ⟨⟨⟨h.blockActive, h.instruction, h.insideBlock, active, h.active_le, h.lanes, hvalue⟩,
      ?_⟩, ?_⟩
    · exact (holds_constrainResource_iff (by norm_num) h.active_le h.lanes hvalue
        (by norm_num)).mpr ⟨h.cycleBits, h.cycles⟩
    · exact (holds_constrainResource_iff (by norm_num) h.active_le h.lanes hvalue
        (by norm_num)).mpr ⟨h.busBits, h.buses⟩

end BlockRouting

end Zksm83
