import Zksm83.Soundness.Forgery
import Zksm83.Soundness.LaneReading

/-!
# The projection of bus events to lanes

A lane reads its numbered bus events through the committed matches. The owner constraints and the
match constraints of a row make this exact: all that is projected is what the slot of the event
holds, and zero where the lane owns too few slots. Read `busProjection_exact` first. After
`PackedProjection` of `cpu/packed.rs`.
-/

namespace Zksm83

open Constraint BlockRouting BlockFrontend BlockBus PackedLane

/-- What the constraints of a lane read of a bus event. -/
structure BusEventView (R : Type*) where
  field : ℕ → R
  kindBit : ℕ → R
  addressBit : ℕ → R
  physicalBit : ℕ → R
  valueBit : ℕ → R
  beforeBit : ℕ → R
  romSelector : R
  romValue : R
  kindSelector : ℕ → R

namespace BusEventView

variable {R : Type*} [Add R] [Sub R] [Mul R] [NatCast R]

/-- The view of an event, given how it yields a value of its slot. -/
def of (value : (Row R → ℕ → R) → R) : BusEventView R where
  field offset := value fun bus slot => slotFieldValue bus slot offset
  -- the kind bits are the fields after the activity flag
  kindBit bit := value fun bus slot => slotFieldValue bus slot (bit + 1)
  addressBit bit := value fun bus slot => slotAddressBit bus slot bit
  physicalBit bit := value fun bus slot => slotPhysicalAddressBit bus slot bit
  valueBit bit := value fun bus slot => slotValueBit bus slot bit
  beforeBit bit := value fun bus slot => slotBeforeBit bus slot bit
  romSelector := value slotRomSelectorValue
  romValue := value slotRomValueValue
  kindSelector code := value fun bus slot => slotKindSelector bus slot code

/-- The view of a shared slot. -/
def shared (bus : Row R) (slot : ℕ) : BusEventView R := of fun value => value bus slot

/-- The projected view of a numbered event of a lane. -/
def projected (row : Row R) (lane localSlot : ℕ) : BusEventView R :=
  of (projectLocalBus row lane localSlot)

/-- The view of an event that a lane does not have. -/
def absent : BusEventView R := of fun _ => ((0 : ℕ) : R)

end BusEventView

namespace Reading

/-- Under the owner constraints and the match constraints, the projected view of the numbered event
of a lane is the view of the shared slot with this number among those that the lane owns, and absent
where the lane owns no such slot; and the slots that the lane owns are consecutive. -/
theorem busProjection_exact (row : Row NativeField) (instruction : NativeField)
    (howners : Holds (constrainResource basicBlockBusEventBound row busOwnerStart instruction))
    (hmatches : Holds (constrainBusMatches row)) (lane localSlot : ℕ)
    (hlane : lane < basicBlockInstructionBound) (hlocal : localSlot < basicBlockBusEventBound) :
    BusEventView.projected row lane localSlot =
        (laneEvents row lane)[localSlot]?.elim BusEventView.absent
          (BusEventView.shared (busPlane row)) ∧
      ∃ start count, start + count ≤ basicBlockBusEventBound ∧
        laneEvents row lane = List.range' start count := by
  refine ⟨?_, laneEvents_eq_range' howners hlane⟩
  have hvalue : projectLocalBus row lane localSlot = fun sharedValue =>
      (laneEvents row lane)[localSlot]?.elim 0 (sharedValue (busPlane row)) :=
    funext fun sharedValue => projectLocalBus_eq howners hmatches hlane hlocal sharedValue
  rw [BusEventView.projected, hvalue]
  cases (laneEvents row lane)[localSlot]? with
  | none =>
    rw [Option.elim_none, BusEventView.absent, Nat.cast_zero]
    rfl
  | some slot => rfl

theorem busProjection_exact_loadRow :
    BusEventView.projected Forgery.loadRow 0 1 =
        (laneEvents Forgery.loadRow 0)[1]?.elim BusEventView.absent
          (BusEventView.shared (busPlane Forgery.loadRow)) ∧
      ∃ start count, start + count ≤ basicBlockBusEventBound ∧
        laneEvents Forgery.loadRow 0 = List.range' start count :=
  busProjection_exact Forgery.loadRow _ (CpuSlices.of_holds Forgery.loadRow_holds).busRouting
    (CpuSlices.of_holds Forgery.loadRow_holds).busMatches 0 1 (by norm_num) (by norm_num)

end Reading

end Zksm83
