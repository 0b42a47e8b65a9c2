import Zksm83.Block.Memory
import Zksm83.Sumcheck.ConstraintSink

/-!
# The packed-block relations and their buffers

Every relation of the packed blocks gives the first part of its buffer to the relations that it is
composed of and fills the rest with constraints of its own. `Evaluates` is proved of each of them
with the constraint list of its plane, so none of them leaves a stale value. The number of own
constraints, and the columns that they read, come from one run of all of them over `Reads`. After
the `evaluate` functions of `block_metadata.rs` to `block_memory.rs`.
-/

namespace Zksm83

open Constraint Zksm83.Uniform BlockMetadata

/-- The slices of constraints that the relations of the packed blocks fill themselves. -/
inductive BlockPart where
  | metadata | routing | boundary | isa | bus | composition | flow | machine | deviceEnvelope
  | devicePpu | deviceSerial | deviceTimer | deviceTimerCore | devicePpuInterrupt | deviceDma
  | deviceMmio | deviceJoypad | deviceApu | deviceSerialMmio | deviceTimerMmio | devicePpuMmio
  | memory
  deriving DecidableEq, Repr

/-- The constraints that join the control and ISA planes with the bus plane. -/
def BlockFrontend.constrainComposition {R : Type*} [Add R] [Sub R] [Mul R] [NatCast R]
    (isaControl bus : Row R) : List R :=
  constrainSharedMetadata isaControl bus ++ constrainInstructionSlotActivity isaControl bus ++
    constrainLaneEventCounts isaControl bus

namespace BlockPart

/-- The columns of the relation that fills the slice. -/
def columnCount : BlockPart → ℕ
  | metadata => BlockMetadata.columnCount
  | routing => BlockRouting.columnCount
  | boundary => BlockBoundary.columnCount
  | isa => BlockIsa.columnCount
  | bus => BlockBus.columnCount
  | composition | flow => BlockFrontend.columnCount
  | machine => BlockMachine.columnCount
  | deviceEnvelope => BlockDeviceEnvelope.columnCount
  | devicePpu => BlockDevicePpu.columnCount
  | deviceSerial => BlockDeviceSerial.columnCount
  | deviceTimer => BlockDeviceTimer.columnCount
  | deviceTimerCore => BlockDeviceTimerCore.columnCount
  | devicePpuInterrupt => BlockDevicePpuInterrupt.columnCount
  | deviceDma => BlockDeviceDma.columnCount
  | deviceMmio => BlockDeviceMmio.columnCount
  | deviceJoypad => BlockDeviceJoypad.columnCount
  | deviceApu => BlockDeviceApu.columnCount
  | deviceSerialMmio => BlockDeviceSerialMmio.columnCount
  | deviceTimerMmio => BlockDeviceTimerMmio.columnCount
  | devicePpuMmio => BlockDevicePpuMmio.columnCount
  | memory => BlockMemory.columnCount

/-- The declared length of the slice. -/
def constraintCount : BlockPart → ℕ
  | metadata => 11
  | routing => 129 - 11
  | boundary => 297 - 11
  | isa => 247 - 11
  | bus => 380 - 11
  | composition =>
    BlockMetadata.columnCount + basicBlockBusEventBound + basicBlockInstructionBound * 5
  | flow => basicBlockInstructionBound * 7
  | machine => 229
  | deviceEnvelope => 9
  | devicePpu => BlockDevicePpu.ppuAuxColumnCount * 2 + 68
  | deviceSerial => BlockDeviceSerial.serialAuxColumnCount * 2 + 139
  | deviceTimer => BlockDeviceTimer.timerAuxColumnCount * 2 + 3
  | deviceTimerCore => 2392
  | devicePpuInterrupt => 254
  | deviceDma => 286
  | deviceMmio => 118
  | deviceJoypad => 117
  | deviceApu => 1678
  | deviceSerialMmio => 157
  | deviceTimerMmio => BlockDeviceTimerMmio.timerMmioAuxColumnCount * 2 + 313
  | devicePpuMmio => 214
  | memory => 254

section Constraints

variable {R : Type*} [Add R] [Sub R] [Mul R] [NatCast R]

/-- The constraints of the slice. -/
def constraints (part : BlockPart) (row : Row R) : List R :=
  match part with
  | metadata => BlockMetadata.evaluate row
  | routing =>
    BlockRouting.constrainResource basicBlockMCycleBound row BlockRouting.cycleOwnerStart
        (instructionValue row) ++
      BlockRouting.constrainResource basicBlockBusEventBound row BlockRouting.busOwnerStart
        (instructionValue row)
  | boundary => BlockBoundary.constrainBoundaries row
  | isa => BlockIsa.constrainLanes row
  | bus => BlockBus.constrainBus row
  | composition => BlockFrontend.constrainComposition row (BlockFrontend.busPlane row)
  | flow => BlockFlow.constrainLaneFlow row
  | machine => BlockMachine.constrainMachine row (BlockMachine.machinePlane row)
  | deviceEnvelope => BlockDeviceEnvelope.constrainDeviceEnvelope row
  | devicePpu => BlockDevicePpu.constrainPpu row (BlockDevicePpu.ppuPlane row)
  | deviceSerial => BlockDeviceSerial.constrainSerial row (BlockDeviceSerial.serialPlane row)
  | deviceTimer => BlockDeviceTimer.constrainTimer row (BlockDeviceTimer.timerPlane row)
  | deviceTimerCore =>
    BlockDeviceTimerCore.constrainTimerCore row (BlockDeviceTimerCore.timerCorePlane row)
  | devicePpuInterrupt => BlockDevicePpuInterrupt.constrainPpuInterrupt row
      (BlockDevicePpuInterrupt.ppuInterruptPlane row)
  | deviceDma => BlockDeviceDma.constrainDma row (BlockDeviceDma.dmaPlane row)
  | deviceMmio => BlockDeviceMmio.constrainMmio row (BlockDeviceMmio.mmioPlane row)
  | deviceJoypad => BlockDeviceJoypad.constrainJoypad row (BlockDeviceJoypad.joypadPlane row)
  | deviceApu => BlockDeviceApu.constrainApu row (BlockDeviceApu.apuPlane row)
  | deviceSerialMmio =>
    BlockDeviceSerialMmio.constrainSerialMmio row (BlockDeviceSerialMmio.serialMmioPlane row)
  | deviceTimerMmio =>
    BlockDeviceTimerMmio.constrainTimerMmio row (BlockDeviceTimerMmio.timerMmioPlane row)
  | devicePpuMmio => BlockDevicePpuMmio.constrainPpuMmio row (BlockDevicePpuMmio.ppuMmioPlane row)
  | memory => BlockMemory.constrainMemory row (BlockMemory.memoryPlane row)

variable {S : Type*} [Add S] [Sub S] [Mul S] [NatCast S] (φ : ArithHom R S)

@[simp] theorem map_constrainComposition (isaControl bus : Row R) :
    (BlockFrontend.constrainComposition isaControl bus).map φ =
      BlockFrontend.constrainComposition (φ.row isaControl) (φ.row bus) := by
  simp [BlockFrontend.constrainComposition, BlockFrontend.constrainInstructionSlotActivity,
    BlockFrontend.constrainLaneEventCounts, List.map_flatMap, Function.comp_def]

theorem map_constraints (part : BlockPart) (row : Row R) :
    (part.constraints row).map φ = part.constraints (φ.row row) := by
  cases part <;> simp [constraints, BlockBus.constrainBus, BlockFlow.constrainLaneFlow,
    BlockDeviceEnvelope.constrainDeviceEnvelope, BlockDeviceTimer.constrainTimer,
    List.map_flatMap, apply_ite φ]

end Constraints

/-- The slice has its declared length, and every read is within the columns of its relation. -/
def fits (part : BlockPart) : Bool :=
  let reads := part.constraints (Reads.row Nat.succ)
  reads.length == part.constraintCount && Reads.within part.columnCount reads

theorem all_fits : [metadata, routing, boundary, isa, bus, composition, flow, machine,
    deviceEnvelope, devicePpu, deviceSerial, deviceTimer, deviceTimerCore, devicePpuInterrupt,
    deviceDma, deviceMmio, deviceJoypad, deviceApu, deviceSerialMmio, deviceTimerMmio,
    devicePpuMmio, memory].all fits = true := by
  decide +kernel

variable {F : Type} [Field F]

/-- Every slice has its declared length and depends only on the columns of its relation. -/
theorem reading (part : BlockPart) :
    Reading Nat.succ part.columnCount part.constraintCount (part.constraints (R := F)) := by
  have hfits : part.fits = true := by
    refine List.all_eq_true.mp all_fits part ?_
    cases part <;> simp
  rw [fits, Bool.and_eq_true, beq_iff_eq] at hfits
  exact .of_reads (part.constraints Reader.row) (part.constraints (Reads.row Nat.succ))
    (fun row => by rw [map_constraints, Reader.readHom_row])
    (by rw [map_constraints, Reader.readsHom_row]) hfits.1 hfits.2

end BlockPart

variable {F : Type} [Field F]

/-! ## Planes with metadata of their own -/

/-- The metadata constraints of a row are written into a slice of their length. -/
def BlockMetadata.evaluateInto (row constraints : List F) : Except UniformError (List F) := do
  rejectIf (constraints.length ≠ BlockPart.metadata.constraintCount) .shape
  fillConstraints (BlockMetadata.evaluate (listRow row)) constraints

theorem BlockMetadata.evaluateInto_eq (row constraints : List F)
    (hlength : constraints.length = BlockPart.metadata.constraintCount) :
    evaluateInto row constraints = .ok (evaluate (listRow row)) := by
  rw [evaluateInto, rejectIf_eq_ok.mpr (not_not.mpr hlength)]
  exact fillConstraints_eq (hlength.trans (BlockPart.metadata.reading.length_eq _).symm)

namespace BlockPart

/-- The metadata constraints of a row, then the slice. -/
def withMetadata (part : BlockPart) (maxConstraintDegree : ℕ) : UniformRelation F :=
  overwriting part.columnCount (metadata.constraintCount + part.constraintCount)
    maxConstraintDegree fun row constraints => do
      let metadataConstraints ← BlockMetadata.evaluateInto row
        (constraints.take metadata.constraintCount)
      let ownConstraints ← fillConstraints (part.constraints (listRow row))
        (constraints.drop metadata.constraintCount)
      return metadataConstraints ++ ownConstraints

theorem withMetadata_evaluates {part : BlockPart} {degree : ℕ}
    (hcolumns : metadata.columnCount ≤ part.columnCount) :
    Evaluates (part.withMetadata (F := F) degree)
      (fun row => BlockMetadata.evaluate row ++ part.constraints row) := by
  refine overwriting_evaluates ((metadata.reading.mono hcolumns).append part.reading)
    fun row buffer hrow hbuffer => ?_
  have hmetadata := BlockMetadata.evaluateInto_eq row (buffer.take metadata.constraintCount)
    (by rw [List.length_take]; omega)
  have hrest : (buffer.drop metadata.constraintCount).length =
      (part.constraints (listRow row)).length := by
    rw [List.length_drop, part.reading.length_eq]
    omega
  simp only [hmetadata, fillConstraints_eq hrest]
  rfl

/-- The constraints of another relation on its columns, then the slice. -/
def extend (part : BlockPart) (inner : UniformRelation F) (maxConstraintDegree : ℕ) :
    UniformRelation F :=
  extended inner part.columnCount part.constraintCount maxConstraintDegree part.constraints

theorem extend_evaluates (part : BlockPart) {inner : UniformRelation F} {degree : ℕ}
    {constraints : Row F → List F} (hinner : Evaluates inner constraints)
    (hcolumns : inner.columnCount ≤ part.columnCount) :
    Evaluates (part.extend inner degree) (fun row => constraints row ++ part.constraints row) :=
  hinner.extended hcolumns part.reading

end BlockPart

def blockRoutingRelation : UniformRelation F := BlockPart.routing.withMetadata 7

def blockBoundaryRelation : UniformRelation F := BlockPart.boundary.withMetadata 3

def blockIsaRelation : UniformRelation F := BlockPart.isa.withMetadata 2

def blockBusRelation : UniformRelation F := BlockPart.bus.withMetadata 5

theorem blockRoutingRelation_evaluates :
    Evaluates (blockRoutingRelation (F := F)) BlockRouting.evaluate := by
  have hevaluate : BlockRouting.evaluate (R := F) = fun row =>
      BlockMetadata.evaluate row ++ BlockPart.routing.constraints row :=
    funext fun row => List.append_assoc _ _ _
  rw [hevaluate]
  exact BlockPart.withMetadata_evaluates (by decide)

theorem blockBoundaryRelation_evaluates :
    Evaluates (blockBoundaryRelation (F := F)) BlockBoundary.evaluate :=
  BlockPart.withMetadata_evaluates (by decide)

theorem blockIsaRelation_evaluates :
    Evaluates (blockIsaRelation (F := F)) BlockIsa.evaluate :=
  BlockPart.withMetadata_evaluates (by decide)

theorem blockBusRelation_evaluates :
    Evaluates (blockBusRelation (F := F)) BlockBus.evaluate :=
  BlockPart.withMetadata_evaluates (by decide)

/-! ## Composed planes -/

/-- `constrain_shared_selectors` and `constrain_shared_metadata`: every place of the slice is
written through an iterator. -/
def writeSharedMetadata (left right constraints : List F) : Except UniformError (List F) := do
  rejectIf (constraints.length ≠ BlockMetadata.columnCount) .shape
  return constraints.mapIdx (fun column _ => left.getD column 0 - right.getD column 0)

theorem writeSharedMetadata_eq (left right : List F) {constraints : List F}
    (hlength : constraints.length = BlockMetadata.columnCount) :
    writeSharedMetadata left right constraints =
      .ok (constrainSharedMetadata (listRow left) (listRow right)) := by
  have hwritten : constraints.mapIdx (fun column _ => left.getD column 0 - right.getD column 0) =
      constrainSharedMetadata (listRow left) (listRow right) := by
    refine List.ext_getElem (by simp [constrainSharedMetadata, hlength]) fun column _ _ => ?_
    simp [constrainSharedMetadata, listRow]
  rw [writeSharedMetadata, rejectIf_eq_ok.mpr (not_not.mpr hlength), hwritten]
  rfl

/-- The metadata of two planes that share a row. -/
theorem constrainSharedMetadata_reading {start limit : ℕ}
    (hstart : BlockMetadata.columnCount ≤ start) (hlimit : BlockMetadata.columnCount ≤ limit) :
    Reading Nat.succ (start + limit) BlockMetadata.columnCount
      (fun row : Row F => constrainSharedMetadata row (slice row start)) where
  length_eq row := by simp [constrainSharedMetadata]
  congr row row' hagree := List.map_congr_left fun column hcolumn => by
    have hlt := List.mem_range.mp hcolumn
    rw [hagree column (by omega), slice_apply, slice_apply, hagree (start + column) (by omega)]

/-- The shared metadata of a row that is split between two planes. -/
theorem writeSharedMetadata_split {start : ℕ} (hstart : BlockMetadata.columnCount ≤ start)
    (row : List F) {constraints : List F}
    (hlength : constraints.length = BlockMetadata.columnCount) :
    writeSharedMetadata (row.take start) (row.drop start) constraints =
      .ok (constrainSharedMetadata (listRow row) (slice (listRow row) start)) := by
  rw [writeSharedMetadata_eq _ _ hlength, slice_listRow]
  refine congrArg Except.ok (List.map_congr_left fun column hcolumn => ?_)
  have hlt := List.mem_range.mp hcolumn
  rw [agreeWithin_take row start column (by omega)]

def blockControlRelation : UniformRelation F :=
  composed blockRoutingRelation blockBoundaryRelation BlockMetadata.columnCount 7
    writeSharedMetadata

theorem blockControlRelation_evaluates :
    Evaluates (blockControlRelation (F := F)) BlockControl.evaluate :=
  blockRoutingRelation_evaluates.composed blockBoundaryRelation_evaluates
    (constrainSharedMetadata_reading (Nat.le_of_ble_eq_true rfl) (Nat.le_of_ble_eq_true rfl))
    fun row _ hlength => writeSharedMetadata_split (Nat.le_of_ble_eq_true rfl) row hlength

def blockIsaControlRelation : UniformRelation F :=
  composed blockControlRelation blockIsaRelation BlockMetadata.columnCount 7 writeSharedMetadata

theorem blockIsaControlRelation_evaluates :
    Evaluates (blockIsaControlRelation (F := F)) BlockIsaControl.evaluate :=
  blockControlRelation_evaluates.composed blockIsaRelation_evaluates
    (constrainSharedMetadata_reading (Nat.le_of_ble_eq_true rfl) (Nat.le_of_ble_eq_true rfl))
    fun row _ hlength => writeSharedMetadata_split (Nat.le_of_ble_eq_true rfl) row hlength

namespace BlockFrontend

/-- `constrain_composition`: the joining constraints fill their slice. -/
def composeInto (isaControl bus constraints : List F) : Except UniformError (List F) := do
  rejectIf (constraints.length ≠ BlockPart.composition.constraintCount) .shape
  fillConstraints (constrainComposition (listRow isaControl) (listRow bus)) constraints

/-- Beside the bus plane, only the control and ISA columns are read. -/
theorem constrainComposition_reading (bus : Row F) :
    Reading Nat.succ BlockIsaControl.columnCount BlockPart.composition.constraintCount
      (fun isaControl => constrainComposition isaControl bus) :=
  .of_reads (constrainComposition Reader.row (fun column => Reader.constant (bus column)))
    (constrainComposition (Reads.row Nat.succ) (fun _ => ((0 : ℕ) : Reads)))
    (fun row => by rw [BlockPart.map_constrainComposition]; rfl)
    (by rw [BlockPart.map_constrainComposition]; rfl) (by decide +kernel) (by decide +kernel)

/-- The joining constraints of a row that is split between its planes. -/
theorem composeInto_split (row : List F) {constraints : List F}
    (hlength : constraints.length = BlockPart.composition.constraintCount) :
    composeInto (row.take BlockIsaControl.columnCount) (row.drop BlockIsaControl.columnCount)
        constraints =
      .ok (BlockPart.composition.constraints (listRow row)) := by
  have hbus : listRow (row.drop BlockIsaControl.columnCount) = busPlane (listRow row) :=
    (slice_listRow row BlockIsaControl.columnCount).symm
  have hreading := constrainComposition_reading (busPlane (listRow row))
  rw [composeInto, rejectIf_eq_ok.mpr (not_not.mpr hlength), hbus,
    hreading.congr _ _ (agreeWithin_take row BlockIsaControl.columnCount)]
  exact fillConstraints_eq (hlength.trans (hreading.length_eq _).symm)

end BlockFrontend

def blockFrontendRelation : UniformRelation F :=
  composed blockIsaControlRelation blockBusRelation BlockPart.composition.constraintCount 7
    BlockFrontend.composeInto

theorem blockFrontendRelation_evaluates :
    Evaluates (blockFrontendRelation (F := F)) BlockFrontend.evaluate := by
  have hevaluate : BlockFrontend.evaluate (R := F) = fun row => BlockIsaControl.evaluate row ++
      BlockBus.evaluate (slice row BlockIsaControl.columnCount) ++
        BlockPart.composition.constraints row := by
    funext row
    simp only [BlockFrontend.evaluate, BlockPart.constraints, BlockFrontend.constrainComposition,
      List.append_assoc]
    rfl
  rw [hevaluate]
  exact blockIsaControlRelation_evaluates.composed blockBusRelation_evaluates
    BlockPart.composition.reading fun row _ hlength => BlockFrontend.composeInto_split row hlength

/-! ## Extensions -/

def blockFlowRelation : UniformRelation F :=
  BlockPart.flow.extend blockFrontendRelation 7

theorem blockFlowRelation_evaluates :
    Evaluates (blockFlowRelation (F := F)) BlockFlow.evaluate :=
  BlockPart.flow.extend_evaluates blockFrontendRelation_evaluates le_rfl

def blockMachineRelation : UniformRelation F :=
  BlockPart.machine.extend blockFlowRelation 7

theorem blockMachineRelation_evaluates :
    Evaluates (blockMachineRelation (F := F)) BlockMachine.evaluate :=
  BlockPart.machine.extend_evaluates blockFlowRelation_evaluates (Nat.le_of_ble_eq_true rfl)

def blockDeviceEnvelopeRelation : UniformRelation F :=
  BlockPart.deviceEnvelope.extend blockMachineRelation 7

theorem blockDeviceEnvelopeRelation_evaluates :
    Evaluates (blockDeviceEnvelopeRelation (F := F)) BlockDeviceEnvelope.evaluate :=
  BlockPart.deviceEnvelope.extend_evaluates blockMachineRelation_evaluates (Nat.le_of_ble_eq_true rfl)

def blockDevicePpuRelation : UniformRelation F :=
  BlockPart.devicePpu.extend blockDeviceEnvelopeRelation 7

theorem blockDevicePpuRelation_evaluates :
    Evaluates (blockDevicePpuRelation (F := F)) BlockDevicePpu.evaluate :=
  BlockPart.devicePpu.extend_evaluates blockDeviceEnvelopeRelation_evaluates (Nat.le_of_ble_eq_true rfl)

def blockDeviceSerialRelation : UniformRelation F :=
  BlockPart.deviceSerial.extend blockDevicePpuRelation 7

theorem blockDeviceSerialRelation_evaluates :
    Evaluates (blockDeviceSerialRelation (F := F)) BlockDeviceSerial.evaluate :=
  BlockPart.deviceSerial.extend_evaluates blockDevicePpuRelation_evaluates (Nat.le_of_ble_eq_true rfl)

def blockDeviceTimerRelation : UniformRelation F :=
  BlockPart.deviceTimer.extend blockDeviceSerialRelation 7

theorem blockDeviceTimerRelation_evaluates :
    Evaluates (blockDeviceTimerRelation (F := F)) BlockDeviceTimer.evaluate :=
  BlockPart.deviceTimer.extend_evaluates blockDeviceSerialRelation_evaluates (Nat.le_of_ble_eq_true rfl)

def blockDeviceTimerCoreRelation : UniformRelation F :=
  BlockPart.deviceTimerCore.extend blockDeviceTimerRelation 7

theorem blockDeviceTimerCoreRelation_evaluates :
    Evaluates (blockDeviceTimerCoreRelation (F := F)) BlockDeviceTimerCore.evaluate :=
  BlockPart.deviceTimerCore.extend_evaluates blockDeviceTimerRelation_evaluates (Nat.le_of_ble_eq_true rfl)

def blockDevicePpuInterruptRelation : UniformRelation F :=
  BlockPart.devicePpuInterrupt.extend blockDeviceTimerCoreRelation 7

theorem blockDevicePpuInterruptRelation_evaluates :
    Evaluates (blockDevicePpuInterruptRelation (F := F)) BlockDevicePpuInterrupt.evaluate :=
  BlockPart.devicePpuInterrupt.extend_evaluates blockDeviceTimerCoreRelation_evaluates (Nat.le_of_ble_eq_true rfl)

def blockDeviceDmaRelation : UniformRelation F :=
  BlockPart.deviceDma.extend blockDevicePpuInterruptRelation 7

theorem blockDeviceDmaRelation_evaluates :
    Evaluates (blockDeviceDmaRelation (F := F)) BlockDeviceDma.evaluate :=
  BlockPart.deviceDma.extend_evaluates blockDevicePpuInterruptRelation_evaluates (Nat.le_of_ble_eq_true rfl)

def blockDeviceMmioRelation : UniformRelation F :=
  BlockPart.deviceMmio.extend blockDeviceDmaRelation 14

theorem blockDeviceMmioRelation_evaluates :
    Evaluates (blockDeviceMmioRelation (F := F)) BlockDeviceMmio.evaluate :=
  BlockPart.deviceMmio.extend_evaluates blockDeviceDmaRelation_evaluates (Nat.le_of_ble_eq_true rfl)

def blockDeviceJoypadRelation : UniformRelation F :=
  BlockPart.deviceJoypad.extend blockDeviceMmioRelation 14

theorem blockDeviceJoypadRelation_evaluates :
    Evaluates (blockDeviceJoypadRelation (F := F)) BlockDeviceJoypad.evaluate :=
  BlockPart.deviceJoypad.extend_evaluates blockDeviceMmioRelation_evaluates (Nat.le_of_ble_eq_true rfl)

def blockDeviceApuRelation : UniformRelation F :=
  BlockPart.deviceApu.extend blockDeviceJoypadRelation 14

theorem blockDeviceApuRelation_evaluates :
    Evaluates (blockDeviceApuRelation (F := F)) BlockDeviceApu.evaluate :=
  BlockPart.deviceApu.extend_evaluates blockDeviceJoypadRelation_evaluates (Nat.le_of_ble_eq_true rfl)

def blockDeviceSerialMmioRelation : UniformRelation F :=
  BlockPart.deviceSerialMmio.extend blockDeviceApuRelation 14

theorem blockDeviceSerialMmioRelation_evaluates :
    Evaluates (blockDeviceSerialMmioRelation (F := F)) BlockDeviceSerialMmio.evaluate :=
  BlockPart.deviceSerialMmio.extend_evaluates blockDeviceApuRelation_evaluates (Nat.le_of_ble_eq_true rfl)

def blockDeviceTimerMmioRelation : UniformRelation F :=
  BlockPart.deviceTimerMmio.extend blockDeviceSerialMmioRelation 14

theorem blockDeviceTimerMmioRelation_evaluates :
    Evaluates (blockDeviceTimerMmioRelation (F := F)) BlockDeviceTimerMmio.evaluate :=
  BlockPart.deviceTimerMmio.extend_evaluates blockDeviceSerialMmioRelation_evaluates (Nat.le_of_ble_eq_true rfl)

def blockDevicePpuMmioRelation : UniformRelation F :=
  BlockPart.devicePpuMmio.extend blockDeviceTimerMmioRelation 15

theorem blockDevicePpuMmioRelation_evaluates :
    Evaluates (blockDevicePpuMmioRelation (F := F)) BlockDevicePpuMmio.evaluate :=
  BlockPart.devicePpuMmio.extend_evaluates blockDeviceTimerMmioRelation_evaluates (Nat.le_of_ble_eq_true rfl)

def blockMemoryRelation : UniformRelation F :=
  BlockPart.memory.extend blockDevicePpuMmioRelation 15

theorem blockMemoryRelation_evaluates :
    Evaluates (blockMemoryRelation (F := F)) BlockMemory.evaluate :=
  BlockPart.memory.extend_evaluates blockDevicePpuMmioRelation_evaluates (Nat.le_of_ble_eq_true rfl)

abbrev BlockMemory.constraintCount : ℕ := 8257

/-- The slices of all parts add up to the declared length. -/
theorem blockMemoryRelation_constraintCount :
    (blockMemoryRelation (F := F)).constraintCount = BlockMemory.constraintCount := by
  simp only [blockMemoryRelation, blockDevicePpuMmioRelation, blockDeviceTimerMmioRelation,
    blockDeviceSerialMmioRelation, blockDeviceApuRelation, blockDeviceJoypadRelation,
    blockDeviceMmioRelation, blockDeviceDmaRelation, blockDevicePpuInterruptRelation,
    blockDeviceTimerCoreRelation, blockDeviceTimerRelation, blockDeviceSerialRelation,
    blockDevicePpuRelation, blockDeviceEnvelopeRelation, blockMachineRelation, blockFlowRelation,
    blockFrontendRelation, blockIsaControlRelation, blockControlRelation, blockRoutingRelation,
    blockBoundaryRelation, blockIsaRelation, blockBusRelation, BlockPart.extend,
    BlockPart.withMetadata, extended, composed, overwriting, BlockPart.constraintCount]
  rfl

end Zksm83
