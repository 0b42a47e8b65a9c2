import Zksm83.Cpu.Lookup

/-!
# The packed CPU relation

The relation that receipts commit to: the memory relation plus the lane semantics of instruction
blocks. Lane constraints are weighted by the instruction flag of the block, and the CPU columns of
other blocks are zero. After `block_cpu.rs`.
-/

namespace Zksm83

open Constraint BlockMetadata PackedLane

namespace BlockCpu

abbrev columnCount : ℕ :=
  BlockMemory.columnCount + packedCpuAuxColumnCount + ExecutionLookup.columnCount
abbrev constraintCount : ℕ := 11483
abbrev packedCpuLaneConstraintCount : ℕ := 317

/-- Declared bound on the degree of every constraint. -/
abbrev maxDegree : ℕ := 23

variable {R : Type*} [Add R] [Sub R] [Mul R] [NatCast R]

/-- The constraint buffer of a lane: unused slots are zero. -/
def padded (constraints : List R) : List R :=
  constraints ++
    List.replicate (packedCpuLaneConstraintCount - constraints.length) ((0 : ℕ) : R)

section Relation

variable [InverseConstant R]

/-- The semantic constraints of one lane. -/
def constrainInstructionLane (row : Row R) (lane : ℕ) : List R :=
  constrainStateWriteMask row lane ++ constrainExecutionLookupGlue row lane ++
    constrainMapperAndRom row lane ++ constrainInstructionFlowWithLookup row lane ++
    constrainDataAndSimpleOperations row lane ++ constrainWordOperationsWithLookup row lane ++
    constrainStackOperations row lane ++ constrainCbBusWithLookup row lane

/-- The CPU constraints of a row. -/
def constrainCpu (row : Row R) : List R :=
  let instructionBlock := instructionValue row
  (List.range packedCpuSemanticAuxColumnCount).map (fun offset =>
      (((1 : ℕ) : R) - instructionBlock) * cpuPlane row offset) ++
    constrainBusMatches row ++
    (List.range basicBlockInstructionBound).flatMap (fun lane =>
      (constrainLaneBoundary row lane).map (fun constraint => constraint * instructionBlock)) ++
    (List.range basicBlockInstructionBound).flatMap (fun lane =>
      (padded (constrainInstructionLane row lane)).map
        (fun constraint => constraint * instructionBlock)) ++
    ExecutionLookup.constrainExecutionLookupWellFormed row

/-- All constraints of `BlockCpuRelation`. -/
def evaluate (row : Row R) : List R :=
  BlockMemory.evaluate row ++ constrainCpu row

end Relation

section Parts

variable [InverseConstant R]

/-- A test of all constraints, in parts that are evaluated one after the other. -/
theorem all_evaluate (row : Row R) (test : R → Bool)
    (htimer : (BlockDeviceTimer.evaluate row).all test = true)
    (hcore : (BlockDeviceTimerCore.constrainTimerCore row
      (BlockDeviceTimerCore.timerCorePlane row)).all test = true)
    (hports : (BlockDevicePpuInterrupt.constrainPpuInterrupt row
        (BlockDevicePpuInterrupt.ppuInterruptPlane row) ++
      BlockDeviceDma.constrainDma row (BlockDeviceDma.dmaPlane row) ++
      BlockDeviceMmio.constrainMmio row (BlockDeviceMmio.mmioPlane row) ++
      BlockDeviceJoypad.constrainJoypad row (BlockDeviceJoypad.joypadPlane row)).all test = true)
    (hapu : (BlockDeviceApu.constrainApu row (BlockDeviceApu.apuPlane row)).all test = true)
    (hwrites : (BlockDeviceSerialMmio.constrainSerialMmio row
        (BlockDeviceSerialMmio.serialMmioPlane row) ++
      BlockDeviceTimerMmio.constrainTimerMmio row (BlockDeviceTimerMmio.timerMmioPlane row) ++
      BlockDevicePpuMmio.constrainPpuMmio row
        (BlockDevicePpuMmio.ppuMmioPlane row)).all test = true)
    (hmemory : (BlockMemory.constrainMemory row (BlockMemory.memoryPlane row)).all test = true)
    (hcpu : (constrainCpu row).all test = true) : (evaluate row).all test = true := by
  simp only [List.all_append, Bool.and_eq_true] at hports hwrites
  obtain ⟨⟨⟨hinterrupt, hdma⟩, hmmio⟩, hjoypad⟩ := hports
  obtain ⟨⟨hserialMmio, htimerMmio⟩, hppuMmio⟩ := hwrites
  simp only [evaluate, BlockMemory.evaluate, BlockDevicePpuMmio.evaluate,
    BlockDeviceTimerMmio.evaluate, BlockDeviceSerialMmio.evaluate, BlockDeviceApu.evaluate,
    BlockDeviceJoypad.evaluate, BlockDeviceMmio.evaluate, BlockDeviceDma.evaluate,
    BlockDevicePpuInterrupt.evaluate, BlockDeviceTimerCore.evaluate, List.all_append,
    Bool.and_eq_true]
  exact ⟨⟨⟨⟨⟨⟨⟨⟨⟨⟨⟨htimer, hcore⟩, hinterrupt⟩, hdma⟩, hmmio⟩, hjoypad⟩, hapu⟩, hserialMmio⟩,
    htimerMmio⟩, hppuMmio⟩, hmemory⟩, hcpu⟩

end Parts

section Map

variable {S : Type*} [Add S] [Sub S] [Mul S] [NatCast S] (φ : ArithHom R S)

theorem map_padded (constraints : List R) :
    (padded constraints).map φ = padded (constraints.map φ) := by
  simp [padded]

theorem map_map_weighted (constraints : List R) (weight : R) :
    (constraints.map (fun constraint => constraint * weight)).map φ =
      (constraints.map φ).map (fun constraint => constraint * φ weight) := by
  simp [Function.comp_def]

@[simp] theorem row_cpuPlane (row : Row R) : φ.row (cpuPlane row) = cpuPlane (φ.row row) := rfl

@[simp] theorem map_cpuPlane (row : Row R) (column : ℕ) :
    φ (cpuPlane row column) = cpuPlane (φ.row row) column := rfl

variable [InverseConstant R] [InverseConstant S] {φ} (hφ : φ.KeepsInverses)

include hφ

theorem map_constrainInstructionLane (row : Row R) (lane : ℕ) :
    (constrainInstructionLane row lane).map φ = constrainInstructionLane (φ.row row) lane := by
  simp [constrainInstructionLane, map_constrainMapperAndRom hφ]

theorem map_constrainCpu (row : Row R) : (constrainCpu row).map φ = constrainCpu (φ.row row) := by
  simp only [constrainCpu, List.map_append, List.map_flatMap, map_map_weighted, map_padded,
    map_constrainLaneBoundary hφ, map_constrainInstructionLane hφ, map_constrainBusMatches,
    ExecutionLookup.map_constrainExecutionLookupWellFormed, map_instructionValue]
  simp [Function.comp_def]

/-- A map that respects the operations sends the constraints of a row to those of its image. -/
theorem map_evaluate (row : Row R) : (evaluate row).map φ = evaluate (φ.row row) := by
  simp [evaluate, map_constrainCpu hφ]

end Map

end BlockCpu

end Zksm83
