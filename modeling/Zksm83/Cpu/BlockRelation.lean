import Zksm83.Block.Relations
import Zksm83.Cpu.Relation

/-!
# The buffer of the packed CPU relation

The CPU relation extends the memory relation. Its own slice holds the padding constraints, the bus
matches, the boundary constraints and the lane constraints of the four lanes, and the execution
lookups. A lane fills the start of its own slices, zeroes what is left, and then scales them in
place by the instruction flag. `blockCpuRelation_evaluates` says that nothing of the old buffer
survives this. After `block_cpu.rs`, `constrain_instruction_lane` and `constrain_bus_matches` of
`cpu/packed.rs`, and `execution_lookup.rs`.
-/

namespace Zksm83

open Constraint Zksm83.Uniform BlockMetadata PackedLane

variable {F : Type}

/-- `get(start..end)` of a slice. -/
def getRange (values : List F) (start stop : ℕ) : Option (List F) :=
  if start ≤ stop ∧ stop ≤ values.length then some ((values.drop start).take (stop - start))
  else none

/-- A slice after a part of it was written in place. -/
def setRange (values : List F) (start : ℕ) (part : List F) : List F :=
  values.take start ++ part ++ values.drop (start + part.length)

theorem getRange_append {written rest : List F} {count : ℕ} (hcount : count ≤ rest.length) :
    getRange (written ++ rest) written.length (written.length + count) =
      some (rest.take count) := by
  rw [getRange, if_pos ⟨Nat.le_add_right _ _, by rw [List.length_append]; omega⟩,
    List.drop_left, Nat.add_sub_cancel_left]

theorem setRange_append (written rest part : List F) :
    setRange (written ++ rest) written.length part =
      (written ++ part) ++ rest.drop part.length := by
  rw [setRange, List.take_left, List.drop_append, List.drop_of_length_le (Nat.le_add_right _ _),
    Nat.add_sub_cancel_left, List.nil_append]

namespace BlockCpu

abbrev packedCpuBoundaryConstraintCount : ℕ := 113 + 15
abbrev packedCpuLaneRangeConstraintCount : ℕ := packedCpuBoundaryConstraintCount * 2
abbrev packedCpuSharedBoundaryConstraintCount : ℕ :=
  (basicBlockInstructionBound + 1) * packedCpuBoundaryConstraintCount
abbrev packedCpuBusMatchConstraintCount : ℕ := packedCpuBusMatchColumnCount
abbrev packedCpuSemanticConstraintCount : ℕ :=
  packedCpuSemanticAuxColumnCount + packedCpuBusMatchConstraintCount +
    packedCpuSharedBoundaryConstraintCount +
    basicBlockInstructionBound * packedCpuLaneConstraintCount
abbrev executionLookupWellFormedConstraintCount : ℕ := ExecutionLookup.lookupsPerBlock * 64
abbrev packedCpuAdditionalConstraintCount : ℕ :=
  packedCpuSemanticConstraintCount + executionLookupWellFormedConstraintCount

/-- The boundary constraints of a lane; the first lane also has those of the block start. -/
def boundaryCount (lane : ℕ) : ℕ :=
  if lane = 0 then packedCpuLaneRangeConstraintCount else packedCpuBoundaryConstraintCount

variable [Field F]

/-! ## Slices of the lanes -/

section Write

variable [InverseConstant F] (row : List F)

/-- `constrain_instruction_lane`: the boundary slice is full, the lane slice may be partly used. -/
def writeInstructionLane (lane : ℕ) (boundaryConstraints constraints : List F) :
    Except UniformError (List F × List F × ℕ) := do
  rejectIf (boundaryConstraints.length ≠ boundaryCount lane) .shape
  let boundarySink ← (ConstraintSink.new boundaryConstraints).pushAll
    (constrainLaneBoundary (listRow row) lane)
  let (boundaryConstraints, boundaryUsed) ← boundarySink.finishPadded
  rejectIf (boundaryUsed ≠ boundaryCount lane) .shape
  let sink ← (ConstraintSink.new constraints).pushAll (constrainInstructionLane (listRow row) lane)
  let (constraints, used) ← sink.finishPadded
  return (boundaryConstraints, constraints, used)

/-- The boundary slices and the lane slices, and where the next boundary slice starts. -/
structure LaneBuffers (F : Type) where
  boundary : List F
  lanes : List F
  boundaryStart : ℕ

/-- One pass of the lane loop: the slices of the lane are filled, then scaled in place. -/
def writeLane (instructionBlock : F) (buffers : LaneBuffers F) (lane : ℕ) :
    Except UniformError (LaneBuffers F) := do
  let boundaryEnd := buffers.boundaryStart + boundaryCount lane
  let boundaryOutput ← someOr (getRange buffers.boundary buffers.boundaryStart boundaryEnd) .shape
  let start := lane * packedCpuLaneConstraintCount
  let output ← someOr (getRange buffers.lanes start (start + packedCpuLaneConstraintCount)) .shape
  let (boundaryOutput, output, used) ← writeInstructionLane row lane boundaryOutput output
  rejectIf (packedCpuLaneConstraintCount < used) .shape
  return ⟨setRange buffers.boundary buffers.boundaryStart
      (boundaryOutput.map (fun constraint => constraint * instructionBlock)),
    setRange buffers.lanes start (output.map (fun constraint => constraint * instructionBlock)),
    boundaryEnd⟩

/-- `constrain_bus_matches` -/
def writeBusMatches (constraints : List F) : Except UniformError (List F) := do
  rejectIf (constraints.length ≠ packedCpuBusMatchConstraintCount) .shape
  fillConstraints (constrainBusMatches (listRow row)) constraints

end Write

/-- The lookup queries of a row; it is also a part of the CPU relation. -/
def executionLookupWellFormedRelation : UniformRelation F :=
  overwriting columnCount executionLookupWellFormedConstraintCount 12 fun row constraints =>
    fillConstraints (ExecutionLookup.constrainExecutionLookupWellFormed (listRow row)) constraints

variable [InverseConstant F]

/-- `constrain_cpu` -/
def writeCpu (row constraints : List F) : Except UniformError (List F) := do
  rejectIf (constraints.length ≠ packedCpuAdditionalConstraintCount) .shape
  let semanticConstraints := constraints.take packedCpuSemanticConstraintCount
  let lookupConstraints := constraints.drop packedCpuSemanticConstraintCount
  let instructionBlock := instructionValue (listRow row)
  let canonicalAuxiliary := ((1 : ℕ) : F) - instructionBlock
  let paddingConstraints := (semanticConstraints.take packedCpuSemanticAuxColumnCount).mapIdx
    (fun offset _ => canonicalAuxiliary * listRow row (BlockMemory.columnCount + offset))
  let remaining := semanticConstraints.drop packedCpuSemanticAuxColumnCount
  let busMatchConstraints ← writeBusMatches row (remaining.take packedCpuBusMatchConstraintCount)
  let remaining := remaining.drop packedCpuBusMatchConstraintCount
  let buffers ← (List.range basicBlockInstructionBound).foldlM (writeLane row instructionBlock)
    ⟨remaining.take packedCpuSharedBoundaryConstraintCount,
      remaining.drop packedCpuSharedBoundaryConstraintCount, 0⟩
  rejectIf (buffers.boundaryStart ≠ packedCpuSharedBoundaryConstraintCount) .shape
  let lookupConstraints ← executionLookupWellFormedRelation.evaluate row lookupConstraints
  return paddingConstraints ++ busMatchConstraints ++ buffers.boundary ++ buffers.lanes ++
    lookupConstraints

end BlockCpu

/-- `BlockCpuRelation`: the memory relation on its columns, then the CPU slice. -/
def blockCpuRelation [Field F] [InverseConstant F] : UniformRelation F :=
  overwriting BlockCpu.columnCount BlockCpu.constraintCount BlockCpu.maxDegree
    fun row constraints => do
      let memoryConstraints ← blockMemoryRelation.evaluate (row.take BlockMemory.columnCount)
        (constraints.take BlockMemory.constraintCount)
      let cpuConstraints ← BlockCpu.writeCpu row (constraints.drop BlockMemory.constraintCount)
      return memoryConstraints ++ cpuConstraints

namespace BlockCpu

/-! ## What the parts read -/

/-- The CPU slice has its declared length, and every read is within the columns. -/
theorem constrainCpu_fits :
    ((constrainCpu (Reads.row Nat.succ)).length == packedCpuAdditionalConstraintCount &&
      Reads.within columnCount (constrainCpu (Reads.row Nat.succ))) = true := by
  decide +kernel

/-- The slices of a lane have room for its constraints. -/
def laneFits (lane : ℕ) : Bool :=
  (constrainLaneBoundary (Reads.row Nat.succ) lane).length == boundaryCount lane &&
    Nat.ble (constrainInstructionLane (Reads.row Nat.succ) lane).length
      packedCpuLaneConstraintCount

theorem lanes_fit : (List.range basicBlockInstructionBound).all laneFits = true := by
  decide +kernel

theorem lookups_fit :
    ((ExecutionLookup.constrainExecutionLookupWellFormed (Reads.row Nat.succ)).length ==
        executionLookupWellFormedConstraintCount &&
      Reads.within columnCount
        (ExecutionLookup.constrainExecutionLookupWellFormed (Reads.row Nat.succ))) = true := by
  decide +kernel

variable [Field F] [InverseConstant F]

theorem constrainCpu_reading :
    Reading Nat.succ columnCount packedCpuAdditionalConstraintCount (constrainCpu (R := F)) := by
  have hfits := constrainCpu_fits
  rw [Bool.and_eq_true, beq_iff_eq] at hfits
  exact .of_reads (constrainCpu Reader.row) (constrainCpu (Reads.row Nat.succ))
    (fun row => map_constrainCpu (Reader.readHom_keeps row) _)
    (map_constrainCpu Reader.readsHom_keeps _) hfits.1 hfits.2

/-- The boundary slice of a lane is full. -/
theorem length_constrainLaneBoundary (row : Row F) {lane : ℕ}
    (hlane : lane < basicBlockInstructionBound) :
    (constrainLaneBoundary row lane).length = boundaryCount lane := by
  have hfits := List.all_eq_true.mp lanes_fit lane (List.mem_range.mpr hlane)
  rw [laneFits, Bool.and_eq_true, beq_iff_eq] at hfits
  let columns : Row (Reader F Nat.succ) := Reader.row
  have hvalues := map_constrainLaneBoundary (Reader.readHom_keeps row) columns lane
  have hreads := map_constrainLaneBoundary Reader.readsHom_keeps columns lane
  exact (Reader.length_eq hvalues hreads).trans hfits.1

/-- The lane slice has room for the constraints of a lane. -/
theorem length_constrainInstructionLane_le (row : Row F) {lane : ℕ}
    (hlane : lane < basicBlockInstructionBound) :
    (constrainInstructionLane row lane).length ≤ packedCpuLaneConstraintCount := by
  have hfits := List.all_eq_true.mp lanes_fit lane (List.mem_range.mpr hlane)
  rw [laneFits, Bool.and_eq_true] at hfits
  let columns : Row (Reader F Nat.succ) := Reader.row
  have hvalues := map_constrainInstructionLane (Reader.readHom_keeps row) columns lane
  have hreads := map_constrainInstructionLane Reader.readsHom_keeps columns lane
  exact (Reader.length_eq hvalues hreads).trans_le (Nat.le_of_ble_eq_true hfits.2)

/-! ## The lane loop -/

/-- The slices of a lane end with its constraints, whatever they held. -/
theorem writeInstructionLane_eq (row : List F) {lane : ℕ}
    (hlane : lane < basicBlockInstructionBound) {boundaryConstraints constraints : List F}
    (hboundary : boundaryConstraints.length = boundaryCount lane)
    (hconstraints : constraints.length = packedCpuLaneConstraintCount) :
    writeInstructionLane row lane boundaryConstraints constraints =
      .ok (constrainLaneBoundary (listRow row) lane,
        padded (constrainInstructionLane (listRow row) lane),
        (constrainInstructionLane (listRow row) lane).length) := by
  have hlength := length_constrainLaneBoundary (listRow row) hlane
  have hroom := length_constrainInstructionLane_le (listRow row) hlane
  have hfull : boundaryConstraints.drop (constrainLaneBoundary (listRow row) lane).length = [] :=
    List.drop_of_length_le (by omega)
  have hboundarySink := ConstraintSink.pushAll_new (constrainLaneBoundary (listRow row) lane)
    boundaryConstraints (by omega)
  have hsink := ConstraintSink.pushAll_new (constrainInstructionLane (listRow row) lane)
    constraints (by omega)
  simp only [writeInstructionLane, rejectIf_eq_ok.mpr (not_not.mpr hboundary), hboundarySink, hsink,
    hfull, ConstraintSink.finishPadded_eq, rejectIf_eq_ok.mpr (not_not.mpr hlength), bind,
    Except.bind, pure, Except.pure, padded, List.length_drop, hconstraints, Nat.cast_zero]
  simp

/-- The scaled boundary constraints of a lane. -/
def boundaryValues (row : Row F) (lane : ℕ) : List F :=
  (constrainLaneBoundary row lane).map (fun constraint => constraint * instructionValue row)

/-- The scaled constraints of a lane, padded to the length of its slice. -/
def laneValues (row : Row F) (lane : ℕ) : List F :=
  (padded (constrainInstructionLane row lane)).map
    (fun constraint => constraint * instructionValue row)

theorem length_boundaryValues (row : Row F) {lane : ℕ} (hlane : lane < basicBlockInstructionBound) :
    (boundaryValues row lane).length = boundaryCount lane := by
  rw [boundaryValues, List.length_map, length_constrainLaneBoundary row hlane]

theorem length_laneValues (row : Row F) {lane : ℕ} (hlane : lane < basicBlockInstructionBound) :
    (laneValues row lane).length = packedCpuLaneConstraintCount := by
  have hroom := length_constrainInstructionLane_le row hlane
  rw [laneValues, List.length_map, padded, List.length_append, List.length_replicate]
  omega

/-- One pass of the loop overwrites the next slices. -/
theorem writeLane_eq (row : List F) {lane : ℕ} (hlane : lane < basicBlockInstructionBound)
    {boundary boundaryRest lanes lanesRest : List F}
    (hboundary : boundaryCount lane ≤ boundaryRest.length)
    (hlanes : lanes.length = lane * packedCpuLaneConstraintCount)
    (hrest : packedCpuLaneConstraintCount ≤ lanesRest.length) :
    writeLane row (instructionValue (listRow row))
        ⟨boundary ++ boundaryRest, lanes ++ lanesRest, boundary.length⟩ lane =
      .ok ⟨(boundary ++ boundaryValues (listRow row) lane) ++
          boundaryRest.drop (boundaryCount lane),
        (lanes ++ laneValues (listRow row) lane) ++ lanesRest.drop packedCpuLaneConstraintCount,
        (boundary ++ boundaryValues (listRow row) lane).length⟩ := by
  have hused := length_constrainInstructionLane_le (listRow row) hlane
  have hboundaryOutput : (boundaryRest.take (boundaryCount lane)).length = boundaryCount lane := by
    rw [List.length_take]
    omega
  have houtput : (lanesRest.take packedCpuLaneConstraintCount).length =
      packedCpuLaneConstraintCount := by
    rw [List.length_take]
    omega
  have hwritten := setRange_append boundary boundaryRest (boundaryValues (listRow row) lane)
  have hlanesWritten := setRange_append lanes lanesRest (laneValues (listRow row) lane)
  rw [length_boundaryValues _ hlane] at hwritten
  rw [length_laneValues _ hlane] at hlanesWritten
  simp only [writeLane, ← hlanes, getRange_append hboundary, getRange_append hrest, someOr,
    writeInstructionLane_eq row hlane hboundaryOutput houtput,
    rejectIf_eq_ok.mpr (Nat.not_lt.mpr hused), bind, Except.bind, pure, Except.pure,
    List.length_append, length_boundaryValues _ hlane]
  rw [← hwritten, ← hlanesWritten]
  rfl

/-- The loop overwrites the slices of its lanes. -/
theorem writeLanes_eq (row : List F) (count : ℕ) {lane : ℕ}
    (hcount : lane + count ≤ basicBlockInstructionBound)
    {boundary boundaryRest lanes lanesRest : List F}
    (hboundary : ((List.range' lane count).map boundaryCount).sum ≤ boundaryRest.length)
    (hlanes : lanes.length = lane * packedCpuLaneConstraintCount)
    (hrest : count * packedCpuLaneConstraintCount ≤ lanesRest.length) :
    (List.range' lane count).foldlM (writeLane row (instructionValue (listRow row)))
        ⟨boundary ++ boundaryRest, lanes ++ lanesRest, boundary.length⟩ =
      .ok ⟨(boundary ++ (List.range' lane count).flatMap (boundaryValues (listRow row))) ++
          boundaryRest.drop ((List.range' lane count).map boundaryCount).sum,
        (lanes ++ (List.range' lane count).flatMap (laneValues (listRow row))) ++
          lanesRest.drop (count * packedCpuLaneConstraintCount),
        boundary.length + ((List.range' lane count).map boundaryCount).sum⟩ := by
  induction count generalizing lane boundary boundaryRest lanes lanesRest with
  | zero => simp [pure, Except.pure]
  | succ count ih =>
    have hlane : lane < basicBlockInstructionBound := by omega
    rw [Nat.succ_mul] at hrest
    simp only [List.range'_succ, List.map_cons, List.sum_cons] at hboundary ⊢
    have hroom : packedCpuLaneConstraintCount ≤ lanesRest.length :=
      (Nat.le_add_left _ _).trans hrest
    have hboundaryNext : ((List.range' (lane + 1) count).map boundaryCount).sum ≤
        (boundaryRest.drop (boundaryCount lane)).length := by
      rw [List.length_drop]
      omega
    have hlanesNext : (lanes ++ laneValues (listRow row) lane).length =
        (lane + 1) * packedCpuLaneConstraintCount := by
      rw [List.length_append, hlanes, length_laneValues _ hlane, Nat.succ_mul]
    have hrestNext : count * packedCpuLaneConstraintCount ≤
        (lanesRest.drop packedCpuLaneConstraintCount).length := by
      rw [List.length_drop]
      exact Nat.le_sub_of_add_le hrest
    rw [List.foldlM_cons, writeLane_eq row hlane (by omega) hlanes hroom]
    refine (ih (by omega) hboundaryNext hlanesNext hrestNext).trans ?_
    simp only [List.flatMap_cons, List.append_assoc, List.drop_drop, List.length_append,
      length_boundaryValues _ hlane, Nat.succ_mul, Nat.add_assoc,
      Nat.add_comm packedCpuLaneConstraintCount]

/-- All slices of all lanes are overwritten. -/
theorem writeAllLanes_eq (row : List F) {boundaryBuffer lanesBuffer : List F}
    (hboundary : boundaryBuffer.length = packedCpuSharedBoundaryConstraintCount)
    (hlanes : lanesBuffer.length = basicBlockInstructionBound * packedCpuLaneConstraintCount) :
    (List.range basicBlockInstructionBound).foldlM
        (writeLane row (instructionValue (listRow row))) ⟨boundaryBuffer, lanesBuffer, 0⟩ =
      .ok ⟨(List.range basicBlockInstructionBound).flatMap (boundaryValues (listRow row)),
        (List.range basicBlockInstructionBound).flatMap (laneValues (listRow row)),
        packedCpuSharedBoundaryConstraintCount⟩ := by
  have htotal : ((List.range' 0 basicBlockInstructionBound).map boundaryCount).sum =
      packedCpuSharedBoundaryConstraintCount := by decide
  have hempty : ([] : List F).length = 0 * packedCpuLaneConstraintCount := (Nat.zero_mul _).symm
  have hloop := @writeLanes_eq F _ _ row basicBlockInstructionBound 0 le_rfl [] boundaryBuffer []
    lanesBuffer (htotal.trans hboundary.symm).le hempty hlanes.ge
  rw [htotal, List.drop_of_length_le hboundary.le, List.drop_of_length_le hlanes.le] at hloop
  simpa [List.range_eq_range'] using hloop

/-! ## The CPU slice -/

omit [InverseConstant F] in
theorem writeBusMatches_eq (row constraints : List F)
    (hlength : constraints.length = packedCpuBusMatchConstraintCount) :
    writeBusMatches row constraints = .ok (constrainBusMatches (listRow row)) := by
  have hcount : (constrainBusMatches (listRow row)).length = packedCpuBusMatchConstraintCount := by
    simp only [constrainBusMatches, List.length_flatMap, List.length_map, List.length_range']
    decide
  rw [writeBusMatches, rejectIf_eq_ok.mpr (not_not.mpr hlength)]
  exact fillConstraints_eq (hlength.trans hcount.symm)

omit [InverseConstant F] in
theorem executionLookupWellFormedRelation_evaluates :
    Evaluates (executionLookupWellFormedRelation (F := F))
      ExecutionLookup.constrainExecutionLookupWellFormed := by
  have hfits := lookups_fit
  rw [Bool.and_eq_true, beq_iff_eq] at hfits
  have hreading : Reading Nat.succ columnCount executionLookupWellFormedConstraintCount
      (ExecutionLookup.constrainExecutionLookupWellFormed (R := F)) :=
    .of_reads (ExecutionLookup.constrainExecutionLookupWellFormed Reader.row)
      (ExecutionLookup.constrainExecutionLookupWellFormed (Reads.row Nat.succ))
      (fun row => by rw [ExecutionLookup.map_constrainExecutionLookupWellFormed,
        Reader.readHom_row])
      (by rw [ExecutionLookup.map_constrainExecutionLookupWellFormed, Reader.readsHom_row])
      hfits.1 hfits.2
  exact overwriting_evaluates hreading fun row buffer _ hbuffer =>
    fillConstraints_eq (hbuffer.trans (hreading.length_eq _).symm)

/-- The CPU slice ends with the CPU constraints of the row. -/
theorem writeCpu_eq {row constraints : List F} (hrow : row.length = columnCount)
    (hconstraints : constraints.length = packedCpuAdditionalConstraintCount) :
    writeCpu row constraints = .ok (constrainCpu (listRow row)) := by
  -- The slices are named by what is left after the slices before them.
  obtain ⟨semantic, hsemanticEq⟩ : ∃ slice, slice = constraints.take
    packedCpuSemanticConstraintCount := ⟨_, rfl⟩
  obtain ⟨remaining, hremainingEq⟩ : ∃ slice, slice = semantic.drop
    packedCpuSemanticAuxColumnCount := ⟨_, rfl⟩
  obtain ⟨lanes, hlanesEq⟩ : ∃ slice, slice = remaining.drop
    packedCpuBusMatchConstraintCount := ⟨_, rfl⟩
  have hsemantic : semantic.length = packedCpuSemanticConstraintCount := by
    rw [hsemanticEq, List.length_take, hconstraints]
    decide
  have hremaining : remaining.length =
      packedCpuSemanticConstraintCount - packedCpuSemanticAuxColumnCount := by
    rw [hremainingEq, List.length_drop, hsemantic]
  have hlanes : lanes.length = packedCpuSharedBoundaryConstraintCount +
      basicBlockInstructionBound * packedCpuLaneConstraintCount := by
    rw [hlanesEq, List.length_drop, hremaining]
    decide
  have hpadding : (semantic.take packedCpuSemanticAuxColumnCount).mapIdx (fun offset _ =>
        (((1 : ℕ) : F) - instructionValue (listRow row)) *
          listRow row (BlockMemory.columnCount + offset)) =
      (List.range packedCpuSemanticAuxColumnCount).map (fun offset =>
        (((1 : ℕ) : F) - instructionValue (listRow row)) * cpuPlane (listRow row) offset) := by
    refine List.ext_getElem ?_ fun offset _ _ => by simp [cpuPlane]
    rw [List.length_mapIdx, List.length_take, hsemantic, List.length_map, List.length_range]
    decide
  have hmatchSlice : (remaining.take packedCpuBusMatchConstraintCount).length =
      packedCpuBusMatchConstraintCount := by
    rw [List.length_take, hremaining]
    decide
  have hboundary : (lanes.take packedCpuSharedBoundaryConstraintCount).length =
      packedCpuSharedBoundaryConstraintCount := by
    rw [List.length_take, hlanes]
    decide
  have hlaneSlices : (lanes.drop packedCpuSharedBoundaryConstraintCount).length =
      basicBlockInstructionBound * packedCpuLaneConstraintCount := by
    rw [List.length_drop, hlanes, Nat.add_sub_cancel_left]
  have hlookup : (constraints.drop packedCpuSemanticConstraintCount).length =
      executionLookupWellFormedConstraintCount := by
    rw [List.length_drop, hconstraints]
    decide
  simp only [writeCpu, rejectIf_eq_ok.mpr (not_not.mpr hconstraints), ← hsemanticEq, ← hremainingEq,
    ← hlanesEq, hpadding, writeBusMatches_eq row _ hmatchSlice,
    writeAllLanes_eq row hboundary hlaneSlices, executionLookupWellFormedRelation_evaluates.eq_ok hrow hlookup,
    rejectIf_eq_ok.mpr (not_not.mpr rfl), bind, Except.bind, pure, Except.pure]
  rfl

end BlockCpu

/-- The CPU relation leaves the constraints of its row, whatever its buffer held. -/
theorem blockCpuRelation_evaluates [Field F] [InverseConstant F] :
    Evaluates (blockCpuRelation (F := F)) BlockCpu.evaluate := by
  have hmemory := blockMemoryRelation_evaluates (F := F)
  have hcount := blockMemoryRelation_constraintCount (F := F)
  have hcolumns : BlockMemory.columnCount ≤ BlockCpu.columnCount := by decide
  have hreading := (hmemory.reading.mono hcolumns).append BlockCpu.constrainCpu_reading
  rw [hcount] at hreading
  refine overwriting_evaluates hreading fun row buffer hrow hbuffer => ?_
  have hinner : blockMemoryRelation.evaluate (row.take BlockMemory.columnCount)
      (buffer.take BlockMemory.constraintCount) = .ok (BlockMemory.evaluate (listRow row)) := by
    have htake := hmemory.evaluate_take row buffer (hrow ▸ hcolumns)
      (by rw [hcount, hbuffer]; decide)
    rwa [hcount] at htake
  have hslice : (buffer.drop BlockMemory.constraintCount).length =
      BlockCpu.packedCpuAdditionalConstraintCount := by
    rw [List.length_drop, hbuffer]
    decide
  have hcpu := BlockCpu.writeCpu_eq hrow hslice
  show (blockMemoryRelation.evaluate (row.take BlockMemory.columnCount) _ >>= _) = _
  rw [hinner]
  show (BlockCpu.writeCpu row _ >>= _) = _
  rw [hcpu]
  rfl

end Zksm83
