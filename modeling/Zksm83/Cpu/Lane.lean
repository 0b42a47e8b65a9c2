import Zksm83.Block.Memory

/-!
# Packed instruction lanes

The view that the instruction semantics have of one lane: the local state before and after it, its
ISA outputs, its bit columns, and its bus events numbered from zero. The numbered events are read
from the shared bus slots through committed match columns. After `cpu/packed.rs`,
`trace/cpu_semantic.rs`, `cpu/selectors.rs` and the helpers of `cpu.rs`.
-/

namespace Zksm83

open Constraint BlockMetadata BlockRouting BlockBoundary BlockIsa BlockBus BlockFrontend

namespace PackedLane

abbrev cpuByteStateBitCount : ℕ := 8 * 8
abbrev cpuWordStateBitCount : ℕ := 16
abbrev pcBitsOffset : ℕ := cpuByteStateBitCount
abbrev spBitsOffset : ℕ := pcBitsOffset + cpuWordStateBitCount
abbrev romBankBitsOffset : ℕ := spBitsOffset + cpuWordStateBitCount
abbrev ramRtcBitsOffset : ℕ := romBankBitsOffset + 6
abbrev cpuBoundaryAuxColumnCount : ℕ := ramRtcBitsOffset + 4
abbrev cpuSharedBoundaryCount : ℕ := basicBlockInstructionBound + 1

abbrev operandBits : ℕ := 0
abbrev immediateLowBits : ℕ := 8
abbrev immediateHighBits : ℕ := 16
abbrev sequentialPcBits : ℕ := 24
abbrev pcWrap : ℕ := 40
abbrev haltBug : ℕ := 41
abbrev controlUnderflow : ℕ := 42
abbrev controlOverflow : ℕ := 43
abbrev wordWrap : ℕ := 44
abbrev stackWrap : ℕ := 45
abbrev stackFirstWrap : ℕ := 46
abbrev popFlagsLowNibbleBits : ℕ := 47
abbrev addressWrap : ℕ := 51
abbrev fetchOneWrap : ℕ := 52
abbrev fetchTwoWrap : ℕ := 53
abbrev cpuLaneAuxColumnCount : ℕ := 54

abbrev packedCpuSemanticAuxColumnCount : ℕ :=
  cpuSharedBoundaryCount * cpuBoundaryAuxColumnCount +
    basicBlockInstructionBound * cpuLaneAuxColumnCount
abbrev packedCpuBusMatchColumnsPerLane : ℕ :=
  basicBlockBusEventBound * (basicBlockBusEventBound + 1) / 2
abbrev packedCpuBusMatchColumnCount : ℕ :=
  basicBlockInstructionBound * packedCpuBusMatchColumnsPerLane
abbrev packedCpuAuxColumnCount : ℕ :=
  packedCpuSemanticAuxColumnCount + packedCpuBusMatchColumnCount
abbrev packedCpuAuxStart : ℕ := BlockMemory.columnCount

/-- Column of the match between an event of a lane and a shared slot. -/
def packedCpuBusMatchOffset (lane localSlot sharedSlot : ℕ) : ℕ :=
  packedCpuSemanticAuxColumnCount + lane * packedCpuBusMatchColumnsPerLane +
    (localSlot * basicBlockBusEventBound - localSlot * (localSlot - 1) / 2) +
    (sharedSlot - localSlot)

variable {R : Type*}

/-- The CPU columns of a row. -/
def cpuPlane (row : Row R) : Row R := slice row packedCpuAuxStart

/-- A local scalar before the lane. -/
def before (row : Row R) (lane scalar : ℕ) : R := localStateValue (boundaryPlane row) lane scalar

/-- A local scalar after the lane. -/
def after (row : Row R) (lane scalar : ℕ) : R :=
  localStateValue (boundaryPlane row) (lane + 1) scalar

/-- Whether the lane executes an instruction. -/
def instruction (row : Row R) (lane : ℕ) : R := laneValue row lane

/-- A fixed-ISA output of the lane. -/
def isa (row : Row R) (lane output : ℕ) : R := laneOutputValue (isaPlane row) lane output

/-- A bit of the lane's fixed-ISA address. -/
def isaAddressBit (row : Row R) (lane bit : ℕ) : R := laneAddressBitValue (isaPlane row) lane bit

/-- The branch decision of the lane. -/
def branchTaken (row : Row R) (lane : ℕ) : R := laneBranchValue (isaPlane row) lane

/-- A committed bit of the state at a boundary. -/
def boundaryBit (row : Row R) (boundary offset : ℕ) : R :=
  cpuPlane row (boundary * cpuBoundaryAuxColumnCount + offset)

/-- A bit of a byte register before the lane. -/
def beforeCpuBit (row : Row R) (lane state bit : ℕ) : R := boundaryBit row lane (state * 8 + bit)

/-- A bit of a byte register after the lane. -/
def afterCpuBit (row : Row R) (lane state bit : ℕ) : R :=
  boundaryBit row (lane + 1) (state * 8 + bit)

/-- A bit of SP before the lane. -/
def beforeSpBit (row : Row R) (lane bit : ℕ) : R := boundaryBit row lane (spBitsOffset + bit)

/-- A bit of SP after the lane. -/
def afterSpBit (row : Row R) (lane bit : ℕ) : R := boundaryBit row (lane + 1) (spBitsOffset + bit)

/-- A bit of the RAM/RTC selector before the lane. -/
def beforeSelectBit (row : Row R) (lane bit : ℕ) : R := boundaryBit row lane (ramRtcBitsOffset + bit)

/-- A witness column of the lane. -/
def laneColumn (row : Row R) (lane column : ℕ) : R :=
  cpuPlane row (cpuSharedBoundaryCount * cpuBoundaryAuxColumnCount +
    lane * cpuLaneAuxColumnCount + column)

/-- The committed match between an event of the lane and a shared slot. -/
def committedLocalBusMatch (row : Row R) (lane localSlot sharedSlot : ℕ) : R :=
  cpuPlane row (packedCpuBusMatchOffset lane localSlot sharedSlot)

variable [Add R] [Sub R] [Mul R] [NatCast R]

/-- A witness of the lane that is recomposed from its bits. -/
def lanePacked (row : Row R) (lane start width : ℕ) : R :=
  packed ((List.range width).map (fun bit => laneColumn row lane (start + bit)))

/-- The low immediate byte. -/
def immediateLow (row : Row R) (lane : ℕ) : R := lanePacked row lane immediateLowBits 8

/-- The high immediate byte. -/
def immediateHigh (row : Row R) (lane : ℕ) : R := lanePacked row lane immediateHighBits 8

/-- The program counter after the fetched bytes. -/
def sequentialPc (row : Row R) (lane : ℕ) : R := lanePacked row lane sequentialPcBits 16

/-- The byte operand of a register load. -/
def operandValue (row : Row R) (lane : ℕ) : R := lanePacked row lane operandBits 8

/-- The low nibble that POP AF discards. -/
def popFlagsLowNibble (row : Row R) (lane : ℕ) : R := lanePacked row lane popFlagsLowNibbleBits 4

/-- A value of a lane event, summed over the shared slots it may be matched with. -/
def projectLocalBus (row : Row R) (lane localSlot : ℕ) (sharedValue : Row R → ℕ → R) : R :=
  total ((List.range' localSlot (basicBlockBusEventBound - localSlot)).map (fun sharedSlot =>
    committedLocalBusMatch row lane localSlot sharedSlot * sharedValue (busPlane row) sharedSlot))

/-- A tuple field of a lane event. -/
def busField (row : Row R) (lane localSlot offset : ℕ) : R :=
  projectLocalBus row lane localSlot (fun bus sharedSlot => slotFieldValue bus sharedSlot offset)

/-- The CPU address of a lane event. -/
def busAddress (row : Row R) (lane localSlot : ℕ) : R := busField row lane localSlot busAddressOffset

/-- The byte of a lane event. -/
def busValue (row : Row R) (lane localSlot : ℕ) : R := busField row lane localSlot busValueOffset

/-- A bit of the CPU address of a lane event. -/
def busAddressBit (row : Row R) (lane localSlot bit : ℕ) : R :=
  projectLocalBus row lane localSlot (fun bus sharedSlot => slotAddressBit bus sharedSlot bit)

/-- A bit of the physical address of a lane event. -/
def busPhysicalBit (row : Row R) (lane localSlot bit : ℕ) : R :=
  projectLocalBus row lane localSlot (fun bus sharedSlot => slotPhysicalAddressBit bus sharedSlot bit)

/-- A bit of the byte of a lane event. -/
def busValueBit (row : Row R) (lane localSlot bit : ℕ) : R :=
  projectLocalBus row lane localSlot (fun bus sharedSlot => slotValueBit bus sharedSlot bit)

/-- Whether a lane event queries the ROM table. -/
def busRomSelector (row : Row R) (lane localSlot : ℕ) : R :=
  projectLocalBus row lane localSlot slotRomSelectorValue

/-- The selector of one event kind of a lane event. -/
def busKindSelector (row : Row R) (lane localSlot code : ℕ) : R :=
  projectLocalBus row lane localSlot (fun bus sharedSlot => slotKindSelector bus sharedSlot code)

/-- The selector of an operation of the fixed ISA. -/
def operationSelector (row : Row R) (lane code : ℕ) : R :=
  bitSelector ((List.range 6).map (fun bit => isa row lane (isaOperationBitsStart + bit))) code

/-- The selector of an argument of the fixed ISA. -/
def argumentSelector (row : Row R) (lane start width code : ℕ) : R :=
  bitSelector ((List.range width).map (fun bit => isa row lane (start + bit))) code

/-- The selector of the first argument. -/
def argumentZero (row : Row R) (lane code : ℕ) : R :=
  argumentSelector row lane isaArgumentZeroBitsStart 3 code

/-- The selector of the second argument. -/
def argumentOne (row : Row R) (lane code : ℕ) : R :=
  argumentSelector row lane isaArgumentOneBitsStart 4 code

/-- Byte registers by their argument code. -/
def byteRegisterRoutes : List (ℕ × ℕ) :=
  [(0, stateB), (1, stateC), (2, stateD), (3, stateE), (4, stateH), (5, stateL), (7, stateA)]

/-- Register pairs by their argument code. -/
def wordRegisterRoutes : List (ℕ × ℕ × ℕ) :=
  [(0, stateB, stateC), (1, stateD, stateE), (2, stateH, stateL)]

/-- A register pair before the lane. -/
def beforeWord (row : Row R) (lane high low : ℕ) : R :=
  before row lane high * ((256 : ℕ) : R) + before row lane low

/-- A register pair after the lane. -/
def afterWord (row : Row R) (lane high low : ℕ) : R :=
  after row lane high * ((256 : ℕ) : R) + after row lane low

/-- The match that ownership prescribes: the event starts at the first owned slot. -/
def expectedLocalBusMatch (row : Row R) (lane localSlot sharedSlot : ℕ) : R :=
  let firstSlot := sharedSlot - localSlot
  let owner := busOwnerValue row firstSlot lane
  let first := if firstSlot = 0 then owner
    else owner * (((1 : ℕ) : R) - busOwnerValue row (firstSlot - 1) lane)
  if localSlot = 0 then first else first * busOwnerValue row sharedSlot lane

/-- The match columns. -/
def constrainBusMatches (row : Row R) : List R :=
  (List.range basicBlockInstructionBound).flatMap (fun lane =>
    (List.range basicBlockBusEventBound).flatMap (fun localSlot =>
      (List.range' localSlot (basicBlockBusEventBound - localSlot)).map (fun sharedSlot =>
        committedLocalBusMatch row lane localSlot sharedSlot -
          expectedLocalBusMatch row lane localSlot sharedSlot)))

/-- The value is one of the first `count` naturals. -/
def enumRange (value : R) (count : ℕ) : R :=
  productFrom ((1 : ℕ) : R) ((List.range count).map (fun admitted : ℕ => value - (admitted : R)))

/-- One when all listed bits are zero. -/
def zeroFromBits (bits : List R) : R :=
  let one : R := ((1 : ℕ) : R)
  productFrom one (bits.map (fun bit => one - bit))

/-- The bits of a field of the state at a boundary. -/
def boundaryBits (row : Row R) (boundary offset width : ℕ) : List R :=
  (List.range width).map (fun bit => boundaryBit row boundary (offset + bit))

/-- Ranges and decompositions of the CPU state at a boundary. -/
def constrainCpuBoundary (row : Row R) (boundary : ℕ) : List R :=
  let state := localStateValue (boundaryPlane row) boundary
  booleans (boundaryBits row boundary 0 cpuByteStateBitCount) ++
    booleans (boundaryBits row boundary pcBitsOffset 16) ++
    booleans (boundaryBits row boundary spBitsOffset 16) ++
    (List.range 8).map (fun byte => state byte - packed (boundaryBits row boundary (byte * 8) 8)) ++
    (List.range 4).map (fun bit => boundaryBit row boundary (stateFlags * 8 + bit)) ++
    [state statePc - packed (boundaryBits row boundary pcBitsOffset 16),
      state stateSp - packed (boundaryBits row boundary spBitsOffset 16),
      enumRange (state stateIme) 3, enumRange (state stateRunState) 4,
      enumRange (state stateMachineProfile) 5]

/-- Scalars that the ISA row does not mark as written are unchanged; the HALT bug resets the run
state. -/
def constrainStateWriteMask (row : Row R) (lane : ℕ) : List R :=
  let one : R := ((1 : ℕ) : R)
  (List.range stateCpuMCycles).map (fun state =>
    instruction row lane * (one - isa row lane (isaWriteBitsStart + state)) *
      (after row lane state - before row lane state +
        (if state = stateRunState then ((3 : ℕ) : R) * laneColumn row lane haltBug
          else ((0 : ℕ) : R))))

section Profile

variable [InverseConstant R]

abbrev profileCodeCount : ℕ := 5
abbrev profileDmgMbc3Rom256KibNoRtc : ℕ := 2
abbrev profileDmgMbc3Rom256KibRtc : ℕ := 3
abbrev profileDmgMbc3Rom1MibRtc : ℕ := 4

/-- The codes of the machine profiles other than `code`. -/
def otherProfiles (code : ℕ) : List ℕ :=
  (List.range profileCodeCount).filter (fun admitted => admitted ≠ code)

/-- The Lagrange selector of a machine profile; its denominator is a nonzero constant. -/
def profileCodeSelector (profile : R) (code : ℕ) : R :=
  productFrom ((1 : ℕ) : R)
      ((otherProfiles code).map (fun admitted : ℕ => profile - (admitted : R))) *
    inverseConstant ((otherProfiles code).map (fun admitted : ℕ => (code : ℤ) - admitted)).prod

/-- Whether the profile has a 256 KiB ROM. -/
def profile256KibSelector (profile : R) : R :=
  profileCodeSelector profile profileDmgMbc3Rom256KibNoRtc +
    profileCodeSelector profile profileDmgMbc3Rom256KibRtc

/-- Whether the profile has an RTC. -/
def profileRtcSelector (profile : R) : R :=
  profileCodeSelector profile profileDmgMbc3Rom256KibRtc +
    profileCodeSelector profile profileDmgMbc3Rom1MibRtc

/-- Ranges and decompositions of the mapper state at a boundary. -/
def constrainMapperBoundary (row : Row R) (boundary : ℕ) : List R :=
  let state := localStateValue (boundaryPlane row) boundary
  [boolean (state stateMbc3RamEnabled)] ++
    booleans (boundaryBits row boundary romBankBitsOffset 6) ++
    [state stateMbc3RomBank - packed (boundaryBits row boundary romBankBitsOffset 6),
      zeroFromBits (boundaryBits row boundary romBankBitsOffset 6),
      profile256KibSelector (state stateMachineProfile) *
        (state stateMbc3RomBank - packed (boundaryBits row boundary romBankBitsOffset 4))] ++
    booleans (boundaryBits row boundary ramRtcBitsOffset 4) ++
    [state stateMbc3RamRtcSelect - packed (boundaryBits row boundary ramRtcBitsOffset 4)]

/-- The boundary constraints of a lane: the first lane also carries those of the block start. -/
def constrainLaneBoundary (row : Row R) (lane : ℕ) : List R :=
  (if lane = 0 then constrainCpuBoundary row 0 ++ constrainMapperBoundary row 0 else []) ++
    constrainCpuBoundary row (lane + 1) ++ constrainMapperBoundary row (lane + 1)

end Profile

section Map

variable {S : Type*} [Add S] [Sub S] [Mul S] [NatCast S] (φ : ArithHom R S)

@[simp] theorem map_before (row : Row R) (lane scalar : ℕ) :
    φ (before row lane scalar) = before (φ.row row) lane scalar := rfl

@[simp] theorem map_after (row : Row R) (lane scalar : ℕ) :
    φ (after row lane scalar) = after (φ.row row) lane scalar := rfl

@[simp] theorem map_instruction (row : Row R) (lane : ℕ) :
    φ (instruction row lane) = instruction (φ.row row) lane := rfl

@[simp] theorem map_isa (row : Row R) (lane output : ℕ) :
    φ (isa row lane output) = isa (φ.row row) lane output := rfl

@[simp] theorem map_isaAddressBit (row : Row R) (lane bit : ℕ) :
    φ (isaAddressBit row lane bit) = isaAddressBit (φ.row row) lane bit := rfl

@[simp] theorem map_branchTaken (row : Row R) (lane : ℕ) :
    φ (branchTaken row lane) = branchTaken (φ.row row) lane := rfl

@[simp] theorem map_boundaryBit (row : Row R) (boundary offset : ℕ) :
    φ (boundaryBit row boundary offset) = boundaryBit (φ.row row) boundary offset := rfl

@[simp] theorem map_beforeCpuBit (row : Row R) (lane state bit : ℕ) :
    φ (beforeCpuBit row lane state bit) = beforeCpuBit (φ.row row) lane state bit := rfl

@[simp] theorem map_afterCpuBit (row : Row R) (lane state bit : ℕ) :
    φ (afterCpuBit row lane state bit) = afterCpuBit (φ.row row) lane state bit := rfl

@[simp] theorem map_beforeSpBit (row : Row R) (lane bit : ℕ) :
    φ (beforeSpBit row lane bit) = beforeSpBit (φ.row row) lane bit := rfl

@[simp] theorem map_afterSpBit (row : Row R) (lane bit : ℕ) :
    φ (afterSpBit row lane bit) = afterSpBit (φ.row row) lane bit := rfl

@[simp] theorem map_beforeSelectBit (row : Row R) (lane bit : ℕ) :
    φ (beforeSelectBit row lane bit) = beforeSelectBit (φ.row row) lane bit := rfl

@[simp] theorem map_laneColumn (row : Row R) (lane column : ℕ) :
    φ (laneColumn row lane column) = laneColumn (φ.row row) lane column := rfl

@[simp] theorem map_committedLocalBusMatch (row : Row R) (lane localSlot sharedSlot : ℕ) :
    φ (committedLocalBusMatch row lane localSlot sharedSlot) =
      committedLocalBusMatch (φ.row row) lane localSlot sharedSlot := rfl

@[simp] theorem map_lanePacked (row : Row R) (lane start width : ℕ) :
    φ (lanePacked row lane start width) = lanePacked (φ.row row) lane start width := by
  simp [lanePacked, Function.comp_def]

@[simp] theorem map_immediateLow (row : Row R) (lane : ℕ) :
    φ (immediateLow row lane) = immediateLow (φ.row row) lane := by simp [immediateLow]

@[simp] theorem map_immediateHigh (row : Row R) (lane : ℕ) :
    φ (immediateHigh row lane) = immediateHigh (φ.row row) lane := by simp [immediateHigh]

@[simp] theorem map_sequentialPc (row : Row R) (lane : ℕ) :
    φ (sequentialPc row lane) = sequentialPc (φ.row row) lane := by simp [sequentialPc]

@[simp] theorem map_operandValue (row : Row R) (lane : ℕ) :
    φ (operandValue row lane) = operandValue (φ.row row) lane := by simp [operandValue]

@[simp] theorem map_popFlagsLowNibble (row : Row R) (lane : ℕ) :
    φ (popFlagsLowNibble row lane) = popFlagsLowNibble (φ.row row) lane := by
  simp [popFlagsLowNibble]

theorem map_projectLocalBus (row : Row R) (lane localSlot : ℕ) (sharedValue : Row R → ℕ → R)
    (image : Row S → ℕ → S)
    (himage : ∀ slot, φ (sharedValue (busPlane row) slot) = image (busPlane (φ.row row)) slot) :
    φ (projectLocalBus row lane localSlot sharedValue) =
      projectLocalBus (φ.row row) lane localSlot image := by
  simp [projectLocalBus, himage, Function.comp_def]

@[simp] theorem map_busField (row : Row R) (lane localSlot offset : ℕ) :
    φ (busField row lane localSlot offset) = busField (φ.row row) lane localSlot offset :=
  map_projectLocalBus φ row lane localSlot _ _ (fun _ => rfl)

@[simp] theorem map_busAddress (row : Row R) (lane localSlot : ℕ) :
    φ (busAddress row lane localSlot) = busAddress (φ.row row) lane localSlot :=
  map_busField φ row lane localSlot _

@[simp] theorem map_busValue (row : Row R) (lane localSlot : ℕ) :
    φ (busValue row lane localSlot) = busValue (φ.row row) lane localSlot :=
  map_busField φ row lane localSlot _

@[simp] theorem map_busAddressBit (row : Row R) (lane localSlot bit : ℕ) :
    φ (busAddressBit row lane localSlot bit) = busAddressBit (φ.row row) lane localSlot bit :=
  map_projectLocalBus φ row lane localSlot _ _ (fun _ => rfl)

@[simp] theorem map_busPhysicalBit (row : Row R) (lane localSlot bit : ℕ) :
    φ (busPhysicalBit row lane localSlot bit) = busPhysicalBit (φ.row row) lane localSlot bit :=
  map_projectLocalBus φ row lane localSlot _ _ (fun _ => rfl)

@[simp] theorem map_busValueBit (row : Row R) (lane localSlot bit : ℕ) :
    φ (busValueBit row lane localSlot bit) = busValueBit (φ.row row) lane localSlot bit :=
  map_projectLocalBus φ row lane localSlot _ _ (fun _ => rfl)

@[simp] theorem map_busRomSelector (row : Row R) (lane localSlot : ℕ) :
    φ (busRomSelector row lane localSlot) = busRomSelector (φ.row row) lane localSlot :=
  map_projectLocalBus φ row lane localSlot _ _ (fun _ => rfl)

@[simp] theorem map_busKindSelector (row : Row R) (lane localSlot code : ℕ) :
    φ (busKindSelector row lane localSlot code) = busKindSelector (φ.row row) lane localSlot code :=
  map_projectLocalBus φ row lane localSlot _ _ (fun _ => by simp)

@[simp] theorem map_operationSelector (row : Row R) (lane code : ℕ) :
    φ (operationSelector row lane code) = operationSelector (φ.row row) lane code := by
  simp [operationSelector, Function.comp_def]

@[simp] theorem map_argumentSelector (row : Row R) (lane start width code : ℕ) :
    φ (argumentSelector row lane start width code) =
      argumentSelector (φ.row row) lane start width code := by
  simp [argumentSelector, Function.comp_def]

@[simp] theorem map_argumentZero (row : Row R) (lane code : ℕ) :
    φ (argumentZero row lane code) = argumentZero (φ.row row) lane code := by
  simp [argumentZero]

@[simp] theorem map_argumentOne (row : Row R) (lane code : ℕ) :
    φ (argumentOne row lane code) = argumentOne (φ.row row) lane code := by
  simp [argumentOne]

@[simp] theorem map_beforeWord (row : Row R) (lane high low : ℕ) :
    φ (beforeWord row lane high low) = beforeWord (φ.row row) lane high low := by
  simp [beforeWord]

@[simp] theorem map_afterWord (row : Row R) (lane high low : ℕ) :
    φ (afterWord row lane high low) = afterWord (φ.row row) lane high low := by
  simp [afterWord]

@[simp] theorem map_expectedLocalBusMatch (row : Row R) (lane localSlot sharedSlot : ℕ) :
    φ (expectedLocalBusMatch row lane localSlot sharedSlot) =
      expectedLocalBusMatch (φ.row row) lane localSlot sharedSlot := by
  simp [expectedLocalBusMatch, apply_ite φ]

@[simp] theorem map_constrainBusMatches (row : Row R) :
    (constrainBusMatches row).map φ = constrainBusMatches (φ.row row) := by
  simp [constrainBusMatches, List.map_flatMap, Function.comp_def]

@[simp] theorem map_enumRange (value : R) (count : ℕ) :
    φ (enumRange value count) = enumRange (φ value) count := by
  simp [enumRange, Function.comp_def]

@[simp] theorem map_zeroFromBits (bits : List R) :
    φ (zeroFromBits bits) = zeroFromBits (bits.map φ) := by
  simp [zeroFromBits, Function.comp_def]

@[simp] theorem map_boundaryBits (row : Row R) (boundary offset width : ℕ) :
    (boundaryBits row boundary offset width).map φ =
      boundaryBits (φ.row row) boundary offset width := by
  simp [boundaryBits, Function.comp_def]

@[simp] theorem map_constrainCpuBoundary (row : Row R) (boundary : ℕ) :
    (constrainCpuBoundary row boundary).map φ = constrainCpuBoundary (φ.row row) boundary := by
  simp [constrainCpuBoundary, Function.comp_def]

@[simp] theorem map_constrainStateWriteMask (row : Row R) (lane : ℕ) :
    (constrainStateWriteMask row lane).map φ = constrainStateWriteMask (φ.row row) lane := by
  simp [constrainStateWriteMask, Function.comp_def, apply_ite φ]

variable [InverseConstant R] [InverseConstant S] {φ} (hφ : φ.KeepsInverses)

include hφ

theorem map_profileCodeSelector (profile : R) (code : ℕ) :
    φ (profileCodeSelector profile code) = profileCodeSelector (φ profile) code := by
  simp [profileCodeSelector, Function.comp_def, hφ _]

theorem map_profile256KibSelector (profile : R) :
    φ (profile256KibSelector profile) = profile256KibSelector (φ profile) := by
  simp [profile256KibSelector, map_profileCodeSelector hφ]

theorem map_profileRtcSelector (profile : R) :
    φ (profileRtcSelector profile) = profileRtcSelector (φ profile) := by
  simp [profileRtcSelector, map_profileCodeSelector hφ]

theorem map_constrainMapperBoundary (row : Row R) (boundary : ℕ) :
    (constrainMapperBoundary row boundary).map φ =
      constrainMapperBoundary (φ.row row) boundary := by
  simp [constrainMapperBoundary, map_profile256KibSelector hφ]

theorem map_constrainLaneBoundary (row : Row R) (lane : ℕ) :
    (constrainLaneBoundary row lane).map φ = constrainLaneBoundary (φ.row row) lane := by
  simp [constrainLaneBoundary, map_constrainMapperBoundary hφ, apply_ite (List.map φ.toFun)]

end Map

end PackedLane

end Zksm83
