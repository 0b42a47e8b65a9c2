import Zksm83.Block.Bus

/-!
# The packed front end and its lane flow

The front end joins the control and ISA planes with the bus plane: in instruction blocks the active
bus slots are the owned ones, and the owned events of every lane have the counts its ISA row
declares. The flow relation adds the cycle, transcript and log-cursor steps of every lane.
After `block_frontend.rs` and `block_flow.rs`.
-/

namespace Zksm83

open Constraint BlockMetadata BlockRouting BlockBoundary BlockIsa BlockBus

namespace BlockFrontend

abbrev columnCount : ℕ := BlockIsaControl.columnCount + BlockBus.columnCount

variable {R : Type*}

/-- The boundary plane inside a front-end row. -/
def boundaryPlane (row : Row R) : Row R := slice row BlockRouting.columnCount

/-- The ISA plane inside a front-end row. -/
def isaPlane (row : Row R) : Row R := slice row BlockControl.columnCount

/-- The bus plane inside a front-end row. -/
def busPlane (row : Row R) : Row R := slice row BlockIsaControl.columnCount

variable [Add R] [Sub R] [Mul R] [NatCast R]

/-- In instruction blocks a slot is active exactly when some lane owns it. -/
def constrainInstructionSlotActivity (isaControl bus : Row R) : List R :=
  let instruction := instructionValue isaControl
  (List.range basicBlockBusEventBound).map (fun slot =>
    instruction * (slotActiveValue bus slot -
      totalOver basicBlockInstructionBound (busOwnerValue isaControl slot)))

/-- The number of bus slots a lane owns. -/
def laneBusOwnerCount (isaControl : Row R) (lane : ℕ) : R :=
  totalOver basicBlockBusEventBound (fun slot => busOwnerValue isaControl slot lane)

/-- The number of owned bus events of a lane whose kind is one of `codes`. -/
def ownedBusCategory (isaControl bus : Row R) (lane : ℕ) (codes : List ℕ) : R :=
  total ((List.range basicBlockBusEventBound).flatMap (fun slot =>
    codes.map (fun code => busOwnerValue isaControl slot lane * slotKindSelector bus slot code)))

abbrev opcodeFetchCodes : List ℕ := [1, 14]
abbrev immediateReadCodes : List ℕ := [2, 15]
abbrev dataReadCodes : List ℕ := [3, 4, 6, 9, 11, 13]
abbrev dataWriteCodes : List ℕ := [5, 7, 8, 10, 12]

/-- The owned events of one lane have the declared counts, category by category. -/
def constrainLaneEventCount (isaControl isa bus : Row R) (lane : ℕ) : List R :=
  let branch := laneBranchValue isa lane
  let baseCount := laneOutputValue isa lane isaOpcodeFetches +
    laneOutputValue isa lane isaImmediateReads + laneOutputValue isa lane isaDataReads +
    laneOutputValue isa lane isaDataWrites
  let takenCount := laneOutputValue isa lane isaTakenDataReads +
    laneOutputValue isa lane isaTakenDataWrites
  [laneBusOwnerCount isaControl lane - baseCount - branch * takenCount,
    ownedBusCategory isaControl bus lane opcodeFetchCodes -
      laneOutputValue isa lane isaOpcodeFetches,
    ownedBusCategory isaControl bus lane immediateReadCodes -
      laneOutputValue isa lane isaImmediateReads,
    ownedBusCategory isaControl bus lane dataReadCodes - laneOutputValue isa lane isaDataReads -
      branch * laneOutputValue isa lane isaTakenDataReads,
    ownedBusCategory isaControl bus lane dataWriteCodes - laneOutputValue isa lane isaDataWrites -
      branch * laneOutputValue isa lane isaTakenDataWrites]

/-- The event counts of all lanes. -/
def constrainLaneEventCounts (isaControl bus : Row R) : List R :=
  (List.range basicBlockInstructionBound).flatMap
    (constrainLaneEventCount isaControl (isaPlane isaControl) bus)

/-- All constraints of the front end. -/
def evaluate (row : Row R) : List R :=
  let bus := busPlane row
  BlockIsaControl.evaluate row ++ BlockBus.evaluate bus ++ constrainSharedMetadata row bus ++
    constrainInstructionSlotActivity row bus ++ constrainLaneEventCounts row bus

variable {S : Type*} [Add S] [Sub S] [Mul S] [NatCast S] (φ : ArithHom R S)

@[simp] theorem row_boundaryPlane (row : Row R) :
    φ.row (boundaryPlane row) = boundaryPlane (φ.row row) := rfl

@[simp] theorem row_isaPlane (row : Row R) : φ.row (isaPlane row) = isaPlane (φ.row row) := rfl

@[simp] theorem row_busPlane (row : Row R) : φ.row (busPlane row) = busPlane (φ.row row) := rfl

@[simp] theorem map_laneBusOwnerCount (isaControl : Row R) (lane : ℕ) :
    φ (laneBusOwnerCount isaControl lane) = laneBusOwnerCount (φ.row isaControl) lane := by
  simp [laneBusOwnerCount]

@[simp] theorem map_ownedBusCategory (isaControl bus : Row R) (lane : ℕ) (codes : List ℕ) :
    φ (ownedBusCategory isaControl bus lane codes) =
      ownedBusCategory (φ.row isaControl) (φ.row bus) lane codes := by
  simp [ownedBusCategory, List.map_flatMap, Function.comp_def]

@[simp] theorem map_constrainLaneEventCount (isaControl isa bus : Row R) (lane : ℕ) :
    (constrainLaneEventCount isaControl isa bus lane).map φ =
      constrainLaneEventCount (φ.row isaControl) (φ.row isa) (φ.row bus) lane := by
  simp [constrainLaneEventCount]

@[simp] theorem map_evaluate (row : Row R) : (evaluate row).map φ = evaluate (φ.row row) := by
  simp [evaluate, constrainInstructionSlotActivity, constrainLaneEventCounts, List.map_flatMap,
    Function.comp_def]

end BlockFrontend

namespace BlockFlow

open BlockFrontend

variable {R : Type*} [Add R] [Sub R] [Mul R] [NatCast R]

/-- The step of a local scalar over one lane. -/
def stateDelta (boundary : Row R) (lane scalar : ℕ) : R :=
  localStateValue boundary (lane + 1) scalar - localStateValue boundary lane scalar

/-- The number of M-cycle slots a lane owns. -/
def cycleOwnerCount (routing : Row R) (lane : ℕ) : R :=
  totalOver basicBlockMCycleBound (fun slot => cycleOwnerValue routing slot lane)

/-- The M-cycles a lane's ISA row declares for its branch decision. -/
def expectedCycles (routing isa : Row R) (lane : ℕ) : R :=
  let base := laneOutputValue isa lane isaBaseMCycles
  laneValue routing lane * (base + laneBranchValue isa lane *
    laneOutputValue isa lane isaTakenTiming * (laneOutputValue isa lane isaTakenMCycles - base))

/-- Cycle counter, cycle ownership, transcript cursors, log cursors and profile of one lane. -/
def constrainLane (routing boundary isa bus : Row R) (instruction : R) (lane : ℕ) : List R :=
  [instruction * (stateDelta boundary lane stateCpuMCycles - expectedCycles routing isa lane),
    instruction * (cycleOwnerCount routing lane - expectedCycles routing isa lane),
    instruction * stateDelta boundary lane stateIsaNext,
    instruction * stateDelta boundary lane stateBusNext,
    instruction * (stateDelta boundary lane stateInputNext -
      ownedBusCategory routing bus lane [6, 13]),
    instruction * (stateDelta boundary lane stateOutputNext -
      ownedBusCategory routing bus lane [7]),
    instruction * stateDelta boundary lane stateMachineProfile]

/-- The flow constraints of all lanes. -/
def constrainLaneFlow (row : Row R) : List R :=
  (List.range basicBlockInstructionBound).flatMap
    (constrainLane row (boundaryPlane row) (isaPlane row) (busPlane row) (instructionValue row))

/-- Front end plus lane flow. -/
def evaluate (row : Row R) : List R :=
  BlockFrontend.evaluate row ++ constrainLaneFlow row

variable {S : Type*} [Add S] [Sub S] [Mul S] [NatCast S] (φ : ArithHom R S)

@[simp] theorem map_constrainLane (routing boundary isa bus : Row R) (instruction : R)
    (lane : ℕ) :
    (constrainLane routing boundary isa bus instruction lane).map φ =
      constrainLane (φ.row routing) (φ.row boundary) (φ.row isa) (φ.row bus) (φ instruction)
        lane := by
  simp [constrainLane, stateDelta, expectedCycles, cycleOwnerCount]

@[simp] theorem map_evaluate (row : Row R) : (evaluate row).map φ = evaluate (φ.row row) := by
  simp [evaluate, constrainLaneFlow, List.map_flatMap]

end BlockFlow

end Zksm83
