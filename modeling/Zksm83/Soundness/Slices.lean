import Zksm83.Library.Bits
import Zksm83.NativeField
import Zksm83.Cpu.Relation

/-!
# The slices of a satisfied row

`BlockMemoryRelation` and `BlockCpuRelation` are towers: every relation appends the constraints of
one slice to the relation below it. A satisfied row satisfies every slice, and the results about
rows start from the slices they need. The metadata columns are repeated in every plane; here they
are read from the front of the row.
-/

namespace Zksm83

open Constraint BlockMetadata BlockFrontend

/-- What `BlockMachineRelation` says about a row, slice by slice. -/
structure MachineSlices (row : Row NativeField) : Prop where
  metadata : Holds (BlockMetadata.evaluate row)
  cycleRouting : Holds (BlockRouting.constrainResource basicBlockMCycleBound row
    BlockRouting.cycleOwnerStart (instructionValue row))
  busRouting : Holds (BlockRouting.constrainResource basicBlockBusEventBound row
    BlockRouting.busOwnerStart (instructionValue row))
  boundaries : Holds (BlockBoundary.constrainBoundaries (boundaryPlane row))
  boundaryMetadata : Holds (constrainSharedMetadata row (boundaryPlane row))
  isaLanes : Holds (BlockIsa.constrainLanes (isaPlane row))
  isaMetadata : Holds (constrainSharedMetadata row (isaPlane row))
  bus : Holds (BlockBus.constrainBus (busPlane row))
  slotActivity : Holds (constrainInstructionSlotActivity row (busPlane row))
  eventCounts : Holds (constrainLaneEventCounts row (busPlane row))
  laneFlow : Holds (BlockFlow.constrainLaneFlow row)
  machine : Holds (BlockMachine.constrainMachine row (BlockMachine.machinePlane row))

/-- A row of `BlockMachineRelation` satisfies every slice. -/
theorem MachineSlices.of_holds {row : Row NativeField} (hrow : Holds (BlockMachine.evaluate row)) :
    MachineSlices row := by
  obtain ⟨hflowRow, hmachine⟩ := (holds_append _ _).mp hrow
  obtain ⟨hfrontendRow, hflow⟩ := (holds_append _ _).mp hflowRow
  simp only [BlockFrontend.evaluate, BlockIsaControl.evaluate, BlockControl.evaluate,
    BlockRouting.evaluate, BlockBoundary.evaluate, BlockIsa.evaluate, BlockBus.evaluate,
    holds_append] at hfrontendRow
  obtain ⟨⟨⟨⟨hisaControl, -, hbus⟩, -⟩, hactivity⟩, hcounts⟩ := hfrontendRow
  obtain ⟨⟨hcontrol, -, hisa⟩, hisaMetadata⟩ := hisaControl
  obtain ⟨⟨hrouting, -, hboundaries⟩, hboundaryMetadata⟩ := hcontrol
  obtain ⟨⟨hmetadata, hcycles⟩, hbusOwners⟩ := hrouting
  exact ⟨hmetadata, hcycles, hbusOwners, hboundaries, hboundaryMetadata, hisa, hisaMetadata, hbus,
    hactivity, hcounts, hflow, hmachine⟩

/-- What `BlockDeviceTimerRelation` adds to the slices below it. -/
structure BlockSlices (row : Row NativeField) : Prop extends MachineSlices row where
  envelope : Holds (BlockDeviceEnvelope.constrainDeviceEnvelope row)
  ppu : Holds (BlockDevicePpu.constrainPpu row (BlockDevicePpu.ppuPlane row))
  serial : Holds (BlockDeviceSerial.constrainSerial row (BlockDeviceSerial.serialPlane row))
  timer : Holds (BlockDeviceTimer.constrainTimer row (BlockDeviceTimer.timerPlane row))

/-- A row of `BlockDeviceTimerRelation` satisfies every slice. -/
theorem BlockSlices.of_holds {row : Row NativeField}
    (hrow : Holds (BlockDeviceTimer.evaluate row)) : BlockSlices row := by
  obtain ⟨hserialRow, htimer⟩ := (holds_append _ _).mp hrow
  obtain ⟨hppuRow, hserial⟩ := (holds_append _ _).mp hserialRow
  obtain ⟨henvelopeRow, hppu⟩ := (holds_append _ _).mp hppuRow
  obtain ⟨hmachineRow, henvelope⟩ := (holds_append _ _).mp henvelopeRow
  exact ⟨MachineSlices.of_holds hmachineRow, henvelope, hppu, hserial, htimer⟩

/-- What `BlockDevicePpuInterruptRelation` adds to the slices below it. -/
structure PpuInterruptSlices (row : Row NativeField) : Prop extends BlockSlices row where
  timerCore : Holds (BlockDeviceTimerCore.constrainTimerCore row
    (BlockDeviceTimerCore.timerCorePlane row))
  ppuInterrupt : Holds (BlockDevicePpuInterrupt.constrainPpuInterrupt row
    (BlockDevicePpuInterrupt.ppuInterruptPlane row))

/-- A row of `BlockDevicePpuInterruptRelation` satisfies every slice. -/
theorem PpuInterruptSlices.of_holds {row : Row NativeField}
    (hrow : Holds (BlockDevicePpuInterrupt.evaluate row)) : PpuInterruptSlices row := by
  obtain ⟨hcoreRow, hinterrupt⟩ := (holds_append _ _).mp hrow
  obtain ⟨htimerRow, hcore⟩ := (holds_append _ _).mp hcoreRow
  exact ⟨BlockSlices.of_holds htimerRow, hcore, hinterrupt⟩

/-- What `BlockDeviceApuRelation` adds to the slices below it. -/
structure ApuSlices (row : Row NativeField) : Prop extends PpuInterruptSlices row where
  dma : Holds (BlockDeviceDma.constrainDma row (BlockDeviceDma.dmaPlane row))
  mmio : Holds (BlockDeviceMmio.constrainMmio row (BlockDeviceMmio.mmioPlane row))
  joypad : Holds (BlockDeviceJoypad.constrainJoypad row (BlockDeviceJoypad.joypadPlane row))
  apu : Holds (BlockDeviceApu.constrainApu row (BlockDeviceApu.apuPlane row))

/-- A row of `BlockDeviceApuRelation` satisfies every slice. -/
theorem ApuSlices.of_holds {row : Row NativeField} (hrow : Holds (BlockDeviceApu.evaluate row)) :
    ApuSlices row := by
  obtain ⟨hjoypadRow, hapu⟩ := (holds_append _ _).mp hrow
  obtain ⟨hmmioRow, hjoypad⟩ := (holds_append _ _).mp hjoypadRow
  obtain ⟨hdmaRow, hmmio⟩ := (holds_append _ _).mp hmmioRow
  obtain ⟨hinterruptRow, hdma⟩ := (holds_append _ _).mp hdmaRow
  exact ⟨PpuInterruptSlices.of_holds hinterruptRow, hdma, hmmio, hjoypad, hapu⟩

/-- What `BlockDeviceTimerMmioRelation` adds to the slices below it. -/
structure TimerMmioSlices (row : Row NativeField) : Prop extends ApuSlices row where
  serialMmio : Holds (BlockDeviceSerialMmio.constrainSerialMmio row
    (BlockDeviceSerialMmio.serialMmioPlane row))
  timerMmio : Holds (BlockDeviceTimerMmio.constrainTimerMmio row
    (BlockDeviceTimerMmio.timerMmioPlane row))

/-- A row of `BlockDeviceTimerMmioRelation` satisfies every slice. -/
theorem TimerMmioSlices.of_holds {row : Row NativeField}
    (hrow : Holds (BlockDeviceTimerMmio.evaluate row)) : TimerMmioSlices row := by
  obtain ⟨hserialRow, htimer⟩ := (holds_append _ _).mp hrow
  obtain ⟨hapuRow, hserial⟩ := (holds_append _ _).mp hserialRow
  exact ⟨ApuSlices.of_holds hapuRow, hserial, htimer⟩

/-- What `BlockMemoryRelation` says about a row, slice by slice. -/
structure MemorySlices (row : Row NativeField) : Prop extends TimerMmioSlices row where
  ppuMmio : Holds (BlockDevicePpuMmio.constrainPpuMmio row (BlockDevicePpuMmio.ppuMmioPlane row))
  memory : Holds (BlockMemory.constrainMemory row (BlockMemory.memoryPlane row))

/-- A row of `BlockMemoryRelation` satisfies every slice. -/
theorem MemorySlices.of_holds {row : Row NativeField} (hrow : Holds (BlockMemory.evaluate row)) :
    MemorySlices row := by
  obtain ⟨hppuMmioRow, hmemory⟩ := (holds_append _ _).mp hrow
  obtain ⟨htimerMmioRow, hppuMmio⟩ := (holds_append _ _).mp hppuMmioRow
  exact ⟨TimerMmioSlices.of_holds htimerMmioRow, hppuMmio, hmemory⟩

/-- What `BlockCpuRelation` says about a row beyond `BlockMemoryRelation`. -/
structure CpuSlices (row : Row NativeField) : Prop extends MemorySlices row where
  busMatches : Holds (PackedLane.constrainBusMatches row)
  laneBoundary : ∀ lane < basicBlockInstructionBound,
    Holds ((PackedLane.constrainLaneBoundary row lane).map
      (fun constraint => constraint * instructionValue row))
  lane : ∀ lane < basicBlockInstructionBound,
    Holds ((BlockCpu.constrainInstructionLane row lane).map
      (fun constraint => constraint * instructionValue row))

/-- A row of `BlockCpuRelation` satisfies every slice. -/
theorem CpuSlices.of_holds {row : Row NativeField} (hrow : Holds (BlockCpu.evaluate row)) :
    CpuSlices row := by
  obtain ⟨hmemory, hcpu⟩ := (holds_append _ _).mp hrow
  simp only [BlockCpu.constrainCpu, holds_append, holds_flatMap, List.mem_range] at hcpu
  obtain ⟨⟨⟨⟨-, hmatches⟩, hboundaries⟩, hlanes⟩, -⟩ := hcpu
  refine ⟨MemorySlices.of_holds hmemory, hmatches, hboundaries, ?_⟩
  intro lane hlane
  have hpadded := hlanes lane hlane
  rw [BlockCpu.padded, List.map_append, holds_append] at hpadded
  exact hpadded.1

end Zksm83
