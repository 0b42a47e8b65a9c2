import Zksm83.Core.State
import Zksm83.Soundness.LaneReading

/-!
# Reading the state at the boundaries of a satisfied row

The local scalars at a boundary of an instruction block are numbers in their ranges, so they are a
CPU state and a mapper state of the core. The constraints of an active lane are listed family by
family.
-/

namespace Zksm83

open Constraint BlockMetadata BlockBoundary BlockFrontend PackedLane

namespace Reading

/-- A local scalar at a boundary, as a number. -/
def scalar (row : Row NativeField) (boundary state : ℕ) : ℕ :=
  (localStateValue (boundaryPlane row) boundary state).val

/-- The program counter, registers, flags and latches at a boundary as a CPU state. -/
def cpuAt (row : Row NativeField) (boundary : ℕ) : CpuState where
  registers :=
    { a := scalar row boundary stateA
      b := scalar row boundary stateB
      c := scalar row boundary stateC
      d := scalar row boundary stateD
      e := scalar row boundary stateE
      h := scalar row boundary stateH
      l := scalar row boundary stateL }
  flags := .fromByte (scalar row boundary stateFlags)
  pc := scalar row boundary statePc
  sp := scalar row boundary stateSp
  ime := match scalar row boundary stateIme with
    | 0 => .disabled
    | 1 => .enablePending
    | _ => .enabled
  runState := match scalar row boundary stateRunState with
    | 0 => .running
    | 1 => .halted
    | 2 => .stopped
    | _ => .haltBug
  mCycles := scalar row boundary stateCpuMCycles

theorem register16_hl_cpuAt (row : Row NativeField) (boundary : ℕ) :
    (cpuAt row boundary).register16 .hl =
      scalar row boundary stateH * 256 + scalar row boundary stateL := rfl

/-- The mapper registers at a boundary. -/
def mbc3At (row : Row NativeField) (boundary : ℕ) : Mbc3State where
  ramEnabled := scalar row boundary stateMbc3RamEnabled = 1
  romBank := scalar row boundary stateMbc3RomBank
  ramRtcSelect := scalar row boundary stateMbc3RamRtcSelect

/-- The machine profile at a boundary. -/
def profileAt (row : Row NativeField) (boundary : ℕ) : MachineProfile :=
  match scalar row boundary stateMachineProfile with
  | 0 => .cleanCoreV1
  | 1 => .dmgPostBootMbc3V1
  | 2 => .dmgPostBootMbc3Rom256KiBNoRtcV1
  | 3 => .dmgPostBootMbc3Rom256KiBRtcV1
  | _ => .dmgPostBootMbc3Rom1MiBRtcV1

theorem natCast_scalar (row : Row NativeField) (boundary state : ℕ) :
    ((scalar row boundary state : ℕ) : NativeField) =
      localStateValue (boundaryPlane row) boundary state :=
  ZMod.natCast_zmod_val _

/-- A value recomposed from bits is small. -/
theorem val_packed_lt {bits : List NativeField} {width : ℕ} (hlength : bits.length = width)
    (hwidth : width < 64) (hbits : ∀ bit ∈ bits, IsBit bit) : (packed bits).val < 2 ^ width := by
  have hlt := bitsNat_lt bits
  rw [hlength] at hlt
  have hsmall : 2 ^ width < fieldModulus :=
    (Nat.pow_lt_pow_right (by norm_num) hwidth).trans (by norm_num)
  rw [packed_eq_natCast hbits, ZMod.val_natCast_of_lt (hlt.trans hsmall)]
  exact hlt

/-- A value in an enumerated range is one of the admitted numbers. -/
theorem exists_of_enumRange {value : NativeField} {count : ℕ} (h : enumRange value count = 0) :
    ∃ admitted < count, value = (admitted : NativeField) := by
  rw [enumRange, productFrom_eq_prod, Nat.cast_one, one_mul, List.prod_eq_zero_iff] at h
  obtain ⟨admitted, hadmitted, hzero⟩ := List.mem_map.mp h
  exact ⟨admitted, List.mem_range.mp hadmitted, sub_eq_zero.mp hzero⟩

theorem val_lt_of_enumRange {value : NativeField} {count : ℕ} (hcount : count < 1000)
    (h : enumRange value count = 0) : value.val < count := by
  obtain ⟨admitted, hadmitted, rfl⟩ := exists_of_enumRange h
  have hsmall : count < fieldModulus := hcount.trans (by norm_num)
  rw [ZMod.val_natCast_of_lt (hadmitted.trans hsmall)]
  exact hadmitted

section Boundary

variable {row : Row NativeField} (hrow : CpuSlices row) (hinstruction : instructionValue row = 1)
  {boundary : ℕ} (hboundary : boundary ≤ basicBlockInstructionBound)

include hrow hinstruction hboundary

theorem holds_boundary : Holds (constrainCpuBoundary row boundary) ∧
    Holds (constrainMapperBoundary row boundary) := by
  have hweighted : ∀ lane < basicBlockInstructionBound, Holds (constrainLaneBoundary row lane) := by
    intro lane hlane constraint hconstraint
    have h := (holds_map _ _).mp (hrow.laneBoundary lane hlane) constraint hconstraint
    rwa [hinstruction, mul_one] at h
  rcases Nat.eq_zero_or_pos boundary with rfl | hpos
  · have h := hweighted 0 (by norm_num)
    rw [constrainLaneBoundary, if_pos rfl, holds_append, holds_append, holds_append] at h
    exact h.1.1
  · have h := hweighted (boundary - 1) (by omega)
    rw [constrainLaneBoundary, holds_append, holds_append, Nat.sub_add_cancel hpos] at h
    exact ⟨h.1.2, h.2⟩

theorem isBit_boundaryBit {index : ℕ} (hindex : index < ramRtcBitsOffset + 4) :
    IsBit (boundaryBit row boundary index) := by
  obtain ⟨hcpu, hmapper⟩ := holds_boundary hrow hinstruction hboundary
  simp only [constrainCpuBoundary, constrainMapperBoundary, holds_append, holds_booleans_iff,
    boundaryBits, List.forall_mem_map, List.mem_range] at hcpu hmapper
  have hlt : index < 106 := hindex
  by_cases hbytes : index < 64
  · simpa using hcpu.1.1.1.1.1 index hbytes
  by_cases hpc : index < 80
  · have h := hcpu.1.1.1.1.2 (index - 64) (by omega)
    rwa [show pcBitsOffset + (index - 64) = index by show 64 + (index - 64) = index; omega] at h
  by_cases hsp : index < 96
  · have h := hcpu.1.1.1.2 (index - 80) (by omega)
    rwa [show spBitsOffset + (index - 80) = index by show 80 + (index - 80) = index; omega] at h
  by_cases hrom : index < 102
  · have h := hmapper.1.1.1.2 (index - 96) (by omega)
    rwa [show romBankBitsOffset + (index - 96) = index by
      show 96 + (index - 96) = index; omega] at h
  · have h := hmapper.1.2 (index - 102) (by omega)
    rwa [show ramRtcBitsOffset + (index - 102) = index by
      show 102 + (index - 102) = index; omega] at h

theorem isBit_boundaryBits {offset width : ℕ} (hwithin : offset + width ≤ ramRtcBitsOffset + 4) :
    ∀ bit ∈ boundaryBits row boundary offset width, IsBit bit := by
  intro bit hbit
  obtain ⟨index, hindex, rfl⟩ := List.mem_map.mp hbit
  have hlt := List.mem_range.mp hindex
  exact isBit_boundaryBit hrow hinstruction hboundary (by omega)

/-- A scalar that is recomposed from boundary bits has their width. -/
theorem scalar_lt_of_packed {state : ℕ} (offset width : ℕ) (hwidth : width < 64)
    (hwithin : offset + width ≤ ramRtcBitsOffset + 4)
    (hpacked : localStateValue (boundaryPlane row) boundary state -
      packed (boundaryBits row boundary offset width) = 0) :
    scalar row boundary state < 2 ^ width := by
  rw [scalar, sub_eq_zero.mp hpacked]
  exact val_packed_lt (by simp [boundaryBits]) hwidth
    (isBit_boundaryBits hrow hinstruction hboundary hwithin)

theorem scalar_byte_lt {state : ℕ} (hstate : state < 8) : scalar row boundary state < 256 := by
  have h := (holds_boundary hrow hinstruction hboundary).1
  simp only [constrainCpuBoundary, holds_append, holds_map, List.mem_range] at h
  exact scalar_lt_of_packed hrow hinstruction hboundary (state * 8) 8 (by norm_num)
    (by show state * 8 + 8 ≤ 106; omega) (h.1.1.2 state hstate)

/-- The ranges of the other CPU scalars. -/
theorem scalar_cpu_lt : scalar row boundary statePc < 65536 ∧ scalar row boundary stateSp < 65536 ∧
    scalar row boundary stateIme < 3 ∧ scalar row boundary stateRunState < 4 ∧
    scalar row boundary stateMachineProfile < 5 := by
  have h := (holds_boundary hrow hinstruction hboundary).1
  simp only [constrainCpuBoundary, holds_append, holds_cons] at h
  obtain ⟨hpc, hsp, hime, hrun, hprofile, -⟩ := h.2
  exact ⟨scalar_lt_of_packed hrow hinstruction hboundary _ 16 (by norm_num) (by norm_num) hpc,
    scalar_lt_of_packed hrow hinstruction hboundary _ 16 (by norm_num) (by norm_num) hsp,
    val_lt_of_enumRange (by norm_num) hime, val_lt_of_enumRange (by norm_num) hrun,
    val_lt_of_enumRange (by norm_num) hprofile⟩

end Boundary

/-- The constraints of an active lane, family by family. -/
structure LaneSlices (row : Row NativeField) (lane : ℕ) : Prop where
  stateWriteMask : Holds (constrainStateWriteMask row lane)
  lookupGlue : Holds (constrainExecutionLookupGlue row lane)
  romMapping : Holds (constrainRomMapping row lane)
  externalRamPolicy : Holds (constrainExternalRamPolicy row lane)
  mapperUpdates : Holds (constrainMapperUpdates row lane)
  instructionWitness : Holds (constrainInstructionWitness row lane)
  fetchAlignment : Holds (constrainFetchAlignment row lane)
  branchRouting : Holds (constrainBranchRoutingWithLookup row lane)
  programCounter : Holds (constrainProgramCounter row lane)
  immediateLoads : Holds (constrainImmediateLoads row lane)
  storeSp : Holds (constrainStoreSp row lane)
  load8 : Holds (constrainLoad8 row lane)
  accumulatorTransfers : Holds (constrainAccumulatorTransfers row lane)
  lowPower : Holds (constrainLowPower row lane)
  ime : Holds (constrainIme row lane)
  wordOperations : Holds (constrainWordOperationsWithLookup row lane)
  stackOperations : Holds (constrainStackOperations row lane)
  cbBus : Holds (constrainCbBusWithLookup row lane)

/-- An active lane of a satisfied row satisfies every family. -/
theorem LaneSlices.of_active {row : Row NativeField} (hrow : CpuSlices row) {lane : ℕ}
    (hlane : lane < basicBlockInstructionBound) (hactive : laneValue row lane = 1) :
    LaneSlices row lane := by
  have hinstruction := instructionValue_eq_one hrow.toBlockSlices hlane hactive
  have hholds : Holds (BlockCpu.constrainInstructionLane row lane) := by
    intro constraint hconstraint
    have h := (holds_map _ _).mp (hrow.lane lane hlane) constraint hconstraint
    rwa [hinstruction, mul_one] at h
  simp only [BlockCpu.constrainInstructionLane, constrainMapperAndRom,
    constrainInstructionFlowWithLookup, constrainDataAndSimpleOperations, holds_append] at hholds
  obtain ⟨⟨⟨⟨⟨⟨⟨hmask, hglue⟩, ⟨hrom, hpolicy⟩, hupdates⟩, ⟨⟨hwitness, hfetch⟩, hbranch⟩, hpc⟩,
    hdata⟩, hword⟩, hstack⟩, hcb⟩ := hholds
  obtain ⟨⟨⟨⟨⟨⟨hloads, hstore⟩, hload8⟩, htransfers⟩, -⟩, hpower⟩, hime⟩ := hdata
  exact ⟨hmask, hglue, hrom, hpolicy, hupdates, hwitness, hfetch, hbranch, hpc, hloads, hstore,
    hload8, htransfers, hpower, hime, hword, hstack, hcb⟩

end Reading

end Zksm83
