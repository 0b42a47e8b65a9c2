import Zksm83.Argument.Relations

/-!
# Buffers that are used again

The prover evaluates its relations on one buffer, over all rows and interpolation points. Every
relation of the packed protocol declares that it overwrites this buffer, and `constraints_overwritten`
shows that it does: two successful calls on one row leave the same values, whatever was in the
buffer before.
-/

namespace Zksm83

open Constraint Zksm83.Uniform

/-- The relations of the packed protocol that declare `ConstraintOutput::Overwritten`. -/
inductive PackedRelation where
  | routing | boundary | control | isa | isaControl | bus | frontend | flow | machine
  | deviceEnvelope | devicePpu | deviceSerial | deviceTimer | deviceTimerCore | devicePpuInterrupt
  | deviceDma | deviceMmio | deviceJoypad | deviceApu | deviceSerialMmio | deviceTimerMmio
  | devicePpuMmio | memory | executionLookup | cpu
  | memoryEvent (challenges : MemoryArgument.MemoryChallenges)
  | continuity (challenges : Continuity.ContinuityChallenges)
  | packedTraceLog (challenges : Logs.LogChallenges NativeField)

namespace PackedRelation

def relation : PackedRelation → UniformRelation NativeField
  | routing => blockRoutingRelation
  | boundary => blockBoundaryRelation
  | control => blockControlRelation
  | isa => blockIsaRelation
  | isaControl => blockIsaControlRelation
  | bus => blockBusRelation
  | frontend => blockFrontendRelation
  | flow => blockFlowRelation
  | machine => blockMachineRelation
  | deviceEnvelope => blockDeviceEnvelopeRelation
  | devicePpu => blockDevicePpuRelation
  | deviceSerial => blockDeviceSerialRelation
  | deviceTimer => blockDeviceTimerRelation
  | deviceTimerCore => blockDeviceTimerCoreRelation
  | devicePpuInterrupt => blockDevicePpuInterruptRelation
  | deviceDma => blockDeviceDmaRelation
  | deviceMmio => blockDeviceMmioRelation
  | deviceJoypad => blockDeviceJoypadRelation
  | deviceApu => blockDeviceApuRelation
  | deviceSerialMmio => blockDeviceSerialMmioRelation
  | deviceTimerMmio => blockDeviceTimerMmioRelation
  | devicePpuMmio => blockDevicePpuMmioRelation
  | memory => blockMemoryRelation
  | executionLookup => BlockCpu.executionLookupWellFormedRelation
  | cpu => blockCpuRelation
  | memoryEvent challenges => MemoryArgument.blockMemoryEventRelation challenges
  | continuity challenges => Continuity.continuityRelation challenges
  | packedTraceLog challenges => Logs.packedTraceLogRelation challenges

/-- Every relation leaves the constraints of its row. -/
theorem evaluates (code : PackedRelation) : ∃ constraints, Evaluates code.relation constraints := by
  cases code with
  | routing => exact ⟨_, blockRoutingRelation_evaluates⟩
  | boundary => exact ⟨_, blockBoundaryRelation_evaluates⟩
  | control => exact ⟨_, blockControlRelation_evaluates⟩
  | isa => exact ⟨_, blockIsaRelation_evaluates⟩
  | isaControl => exact ⟨_, blockIsaControlRelation_evaluates⟩
  | bus => exact ⟨_, blockBusRelation_evaluates⟩
  | frontend => exact ⟨_, blockFrontendRelation_evaluates⟩
  | flow => exact ⟨_, blockFlowRelation_evaluates⟩
  | machine => exact ⟨_, blockMachineRelation_evaluates⟩
  | deviceEnvelope => exact ⟨_, blockDeviceEnvelopeRelation_evaluates⟩
  | devicePpu => exact ⟨_, blockDevicePpuRelation_evaluates⟩
  | deviceSerial => exact ⟨_, blockDeviceSerialRelation_evaluates⟩
  | deviceTimer => exact ⟨_, blockDeviceTimerRelation_evaluates⟩
  | deviceTimerCore => exact ⟨_, blockDeviceTimerCoreRelation_evaluates⟩
  | devicePpuInterrupt => exact ⟨_, blockDevicePpuInterruptRelation_evaluates⟩
  | deviceDma => exact ⟨_, blockDeviceDmaRelation_evaluates⟩
  | deviceMmio => exact ⟨_, blockDeviceMmioRelation_evaluates⟩
  | deviceJoypad => exact ⟨_, blockDeviceJoypadRelation_evaluates⟩
  | deviceApu => exact ⟨_, blockDeviceApuRelation_evaluates⟩
  | deviceSerialMmio => exact ⟨_, blockDeviceSerialMmioRelation_evaluates⟩
  | deviceTimerMmio => exact ⟨_, blockDeviceTimerMmioRelation_evaluates⟩
  | devicePpuMmio => exact ⟨_, blockDevicePpuMmioRelation_evaluates⟩
  | memory => exact ⟨_, blockMemoryRelation_evaluates⟩
  | executionLookup => exact ⟨_, BlockCpu.executionLookupWellFormedRelation_evaluates⟩
  | cpu => exact ⟨_, blockCpuRelation_evaluates⟩
  | memoryEvent challenges =>
    exact ⟨_, MemoryArgument.blockMemoryEventRelation_evaluates challenges⟩
  | continuity challenges => exact ⟨_, Continuity.continuityRelation_evaluates challenges⟩
  | packedTraceLog challenges => exact ⟨_, Logs.packedTraceLogRelation_evaluates challenges⟩

/-- Successful calls on one row leave the same values, from any two buffers, and a call succeeds on
every row and buffer of the relation's lengths. -/
theorem constraints_overwritten (code : PackedRelation) (row first second : List NativeField) :
    code.relation.constraintOutput = .overwritten ∧
    (∀ values values', code.relation.evaluate row first = .ok values →
      code.relation.evaluate row second = .ok values' → values = values') ∧
    (row.length = code.relation.columnCount → first.length = code.relation.constraintCount →
      ∃ values, code.relation.evaluate row first = .ok values) := by
  obtain ⟨constraints, hevaluates⟩ := code.evaluates
  refine ⟨hevaluates.overwritten, fun values values' hfirst hsecond => ?_, fun hrow hfirst =>
    ⟨_, hevaluates.eq_ok hrow hfirst⟩⟩
  rw [hevaluates.eq_of_eq_ok hfirst, hevaluates.eq_of_eq_ok hsecond]

/-- A CPU row of zeros, from a buffer of zeros and from a buffer of ones. -/
theorem constraints_overwritten_cpu :
    ∃ values, blockCpuRelation.evaluate (List.replicate BlockCpu.columnCount (0 : NativeField))
        (List.replicate BlockCpu.constraintCount 0) = .ok values ∧
      blockCpuRelation.evaluate (List.replicate BlockCpu.columnCount (0 : NativeField))
        (List.replicate BlockCpu.constraintCount 1) = .ok values := by
  obtain ⟨values, hvalues⟩ := (constraints_overwritten .cpu
    (List.replicate BlockCpu.columnCount 0) (List.replicate BlockCpu.constraintCount 0) []).2.2
    List.length_replicate List.length_replicate
  obtain ⟨values', hvalues'⟩ := (constraints_overwritten .cpu
    (List.replicate BlockCpu.columnCount 0) (List.replicate BlockCpu.constraintCount 1) []).2.2
    List.length_replicate List.length_replicate
  have heq := (constraints_overwritten .cpu (List.replicate BlockCpu.columnCount 0)
    (List.replicate BlockCpu.constraintCount 0) (List.replicate BlockCpu.constraintCount 1)).2.1
    values values' hvalues hvalues'
  exact ⟨values, hvalues, heq ▸ hvalues'⟩

end PackedRelation

end Zksm83
