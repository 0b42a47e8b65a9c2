import Zksm83.Cpu.Lane

/-!
# Mapper, fetch, and control flow of packed lanes

ROM mapping, the external-RAM policy and the MBC3 registers of a lane, followed by its fetched
bytes, its branch decision and its program counter. After `cpu/mbc3.rs` and `cpu/control.rs`.
-/

namespace Zksm83

open Constraint BlockBus

namespace PackedLane

variable {R : Type*} [Add R] [Sub R] [Mul R] [NatCast R]

/-- The CPU address of a lane event, recomposed from its projected bits. -/
def busAddressPacked (row : Row R) (lane slot : ℕ) : R :=
  packed ((List.range 16).map (busAddressBit row lane slot))

/-- The physical address of a lane event, recomposed from its projected bits. -/
def busPhysicalPacked (row : Row R) (lane slot : ℕ) : R :=
  packed ((List.range romAddressBitCount).map (busPhysicalBit row lane slot))

/-- The low bits of the byte of a lane event. -/
def busValueBits (row : Row R) (lane slot width : ℕ) : List R :=
  (List.range width).map (busValueBit row lane slot)

/-- ROM events stay below `0x8000` and address the selected bank. -/
def constrainRomMapping (row : Row R) (lane : ℕ) : List R :=
  let one : R := ((1 : ℕ) : R)
  let bank := before row lane stateMbc3RomBank
  (List.range basicBlockBusEventBound).flatMap (fun slot =>
    let selected := busRomSelector row lane slot
    let expected := busAddressPacked row lane slot +
      busAddressBit row lane slot 14 * (bank - one) * ((0x4000 : ℕ) : R)
    [selected * busAddressBit row lane slot 15,
      selected * (busPhysicalPacked row lane slot - expected)])

/-- The selector of a RAM/RTC selector value. -/
def nibbleSelector (row : Row R) (lane value : ℕ) : R :=
  bitSelector ((List.range 4).map (beforeSelectBit row lane)) value

/-- Whether the RAM/RTC selector names an RTC register. -/
def rtcRegisterSelected (row : Row R) (lane : ℕ) : R :=
  total ((List.range' 0x08 5).map (nibbleSelector row lane))

/-- The four quarters of the control area, gated by the control selector. -/
def controlSegment (row : Row R) (lane slot : ℕ) (control : R) (high low : Bool) : R :=
  let one : R := ((1 : ℕ) : R)
  let thirteen := busAddressBit row lane slot 13
  let fourteen := busAddressBit row lane slot 14
  control * (if high then fourteen else one - fourteen) * (if low then thirteen else one - thirteen)

/-- Whether the written low nibble is `0x0a`. -/
def ramEnableValue (row : Row R) (lane slot : ℕ) : R :=
  let one : R := ((1 : ℕ) : R)
  let bit := busValueBit row lane slot
  (one - bit 0) * bit 1 * (one - bit 2) * bit 3

section Profile

variable [InverseConstant R]

/-- Ignored external-RAM events: their address range, their empty tuple, and the mapper state that
makes the core ignore them. -/
def constrainExternalRamPolicy (row : Row R) (lane : ℕ) : List R :=
  let one : R := ((1 : ℕ) : R)
  let available := before row lane stateMbc3RamEnabled * (one - beforeSelectBit row lane 2) *
    (one - beforeSelectBit row lane 3)
  let rtcProfile := profileRtcSelector (before row lane stateMachineProfile)
  (List.range basicBlockBusEventBound).flatMap (fun slot =>
    let openRead := busKindSelector row lane slot 9
    let selected := openRead + busKindSelector row lane slot 10
    [selected * (one - busAddressBit row lane slot 15),
      selected * busAddressBit row lane slot 14,
      selected * (one - busAddressBit row lane slot 13),
      selected * available,
      selected * busField row lane slot busPhysicalOffset,
      selected * busField row lane slot busBeforeOffset,
      selected * busField row lane slot busAuxiliaryOffset,
      selected * busField row lane slot busIndexOffset,
      selected * rtcProfile * rtcRegisterSelected row lane,
      openRead * (busField row lane slot busValueOffset - ((0xff : ℕ) : R))])

/-- The ROM bank a written byte selects: zero becomes one. -/
def mappedRomBank (row : Row R) (lane slot : ℕ) : R :=
  let one : R := ((1 : ℕ) : R)
  let size256Kib := profile256KibSelector (before row lane stateMachineProfile)
  let bank := fun width => packed (busValueBits row lane slot width) +
    zeroFromBits (busValueBits row lane slot width)
  size256Kib * bank 4 + (one - size256Kib) * bank 6

/-- Control writes: at most one in a lane, and the mapper registers follow it. -/
def constrainMapperUpdates (row : Row R) (lane : ℕ) : List R :=
  let control := fun slot => busKindSelector row lane slot 8
  let update := fun (high low : Bool) (value : ℕ → R) (state : ℕ) =>
    totalOver basicBlockBusEventBound (fun slot =>
      controlSegment row lane slot (control slot) high low * (value slot - before row lane state))
  let step := fun (state : ℕ) (change : R) => after row lane state - before row lane state - change
  (List.range basicBlockBusEventBound).flatMap (fun slot =>
      [control slot * busAddressBit row lane slot 15,
        control slot * busField row lane slot busPhysicalOffset]) ++
    [boolean (totalOver basicBlockBusEventBound control),
      step stateMbc3RamEnabled (update false false (ramEnableValue row lane) stateMbc3RamEnabled),
      step stateMbc3RomBank (update false true (mappedRomBank row lane) stateMbc3RomBank),
      step stateMbc3RamRtcSelect (update true false
        (fun slot => packed (busValueBits row lane slot 4)) stateMbc3RamRtcSelect)]

/-- The mapper constraints of a lane. -/
def constrainMapperAndRom (row : Row R) (lane : ℕ) : List R :=
  constrainRomMapping row lane ++ constrainExternalRamPolicy row lane ++
    constrainMapperUpdates row lane

end Profile

/-- The witness columns that are zero outside instructions. -/
def instructionWitness (row : Row R) (lane : ℕ) : List R :=
  [immediateLow row lane, immediateHigh row lane, sequentialPc row lane,
    laneColumn row lane pcWrap, laneColumn row lane haltBug, laneColumn row lane controlUnderflow,
    laneColumn row lane controlOverflow, laneColumn row lane fetchOneWrap,
    laneColumn row lane fetchTwoWrap]

/-- The columns of a lane from `start` on. -/
def laneBits (row : Row R) (lane start width : ℕ) : List R :=
  (List.range width).map (fun bit => laneColumn row lane (start + bit))

/-- The immediates are the fetched bytes, and the sequential program counter steps over them. -/
def constrainInstructionWitness (row : Row R) (lane : ℕ) : List R :=
  let one : R := ((1 : ℕ) : R)
  let active := instruction row lane
  let low := immediateLow row lane
  let high := immediateHigh row lane
  let count := isa row lane isaImmediateReads
  let bug := laneColumn row lane haltBug
  let runState := before row lane stateRunState
  booleans (laneBits row lane immediateLowBits 8) ++
    booleans (laneBits row lane immediateHighBits 8) ++
    booleans (laneBits row lane sequentialPcBits 16) ++
    booleans ([pcWrap, haltBug, controlUnderflow, controlOverflow, fetchOneWrap,
      fetchTwoWrap].map (laneColumn row lane)) ++
    [low - packed (laneBits row lane immediateLowBits 8),
      high - packed (laneBits row lane immediateHighBits 8),
      sequentialPc row lane - packed (laneBits row lane sequentialPcBits 16),
      active * count * (low - busValue row lane 1),
      active * count * (count - one) * (high - busValue row lane 2),
      active * low * (count - one) * (count - ((2 : ℕ) : R)),
      active * high * (count - ((2 : ℕ) : R)),
      active * runState * (runState - ((3 : ℕ) : R)),
      active * bug * (runState - ((3 : ℕ) : R)),
      active * (one - bug) * runState * (runState - one) * (runState - ((2 : ℕ) : R)),
      active * (sequentialPc row lane - before row lane statePc - isa row lane isaOpcodeFetches -
        isa row lane isaImmediateReads + bug + ((65536 : ℕ) : R) * laneColumn row lane pcWrap)] ++
    (instructionWitness row lane).map (fun value => (one - active) * value)

/-- The address of the byte after the opcode. -/
def fetchOne (row : Row R) (lane : ℕ) : R :=
  before row lane statePc + ((1 : ℕ) : R) - laneColumn row lane haltBug -
    ((65536 : ℕ) : R) * laneColumn row lane fetchOneWrap

/-- The address of the second byte after the opcode. -/
def fetchTwo (row : Row R) (lane : ℕ) : R :=
  before row lane statePc + ((2 : ℕ) : R) - laneColumn row lane haltBug -
    ((65536 : ℕ) : R) * laneColumn row lane fetchTwoWrap

/-- The first events of the lane carry the opcode, the CB opcode and the immediates. -/
def constrainFetchAlignment (row : Row R) (lane : ℕ) : List R :=
  let one : R := ((1 : ℕ) : R)
  let active := instruction row lane
  let prefixed := isaAddressBit row lane 8
  let opcode := packed ((List.range 8).map (isaAddressBit row lane))
  let count := isa row lane isaImmediateReads
  [active * (busAddress row lane 0 - before row lane statePc),
    active * (busValue row lane 0 - (one - prefixed) * opcode - prefixed * ((0xcb : ℕ) : R)),
    active * prefixed * (busAddress row lane 1 - fetchOne row lane),
    active * prefixed * (busValue row lane 1 - opcode),
    active * (one - prefixed) * count * (busAddress row lane 1 - fetchOne row lane),
    active * (one - prefixed) * count * (count - one) * (busAddress row lane 2 - fetchTwo row lane)]

/-- The operations that take a condition. -/
def conditionalOperation (row : Row R) (lane : ℕ) : R :=
  operationSelector row lane 3 + operationSelector row lane 20 + operationSelector row lane 28 +
    operationSelector row lane 34

/-- Whether the condition argument is one of the four flag conditions. -/
def conditionArgument (row : Row R) (lane : ℕ) : R :=
  argumentZero row lane 1 + argumentZero row lane 2 + argumentZero row lane 3 +
    argumentZero row lane 4

/-- Unconditional transfers branch, and other operations without a condition do not. -/
def constrainBranchRoutingWithLookup (row : Row R) (lane : ℕ) : List R :=
  let one : R := ((1 : ℕ) : R)
  let active := instruction row lane
  let branch := branchTaken row lane
  let conditional := conditionalOperation row lane * conditionArgument row lane
  let fixed := conditionalOperation row lane * argumentZero row lane 0 +
    operationSelector row lane 25 + operationSelector row lane 26 + operationSelector row lane 36
  [active * fixed * (branch - one), active * (one - conditional - fixed) * branch]

/-- The operations that set the program counter themselves. -/
def controlOperation (row : Row R) (lane : ℕ) : R :=
  operationSelector row lane 3 + operationSelector row lane 20 + operationSelector row lane 25 +
    operationSelector row lane 26 + operationSelector row lane 28 + operationSelector row lane 34 +
    operationSelector row lane 36

/-- The program counter after the lane. -/
def constrainProgramCounter (row : Row R) (lane : ℕ) : List R :=
  let one : R := ((1 : ℕ) : R)
  let active := instruction row lane
  let branch := branchTaken row lane
  let sequential := sequentialPc row lane
  let low := immediateLow row lane
  let immediateWord := low + ((256 : ℕ) : R) * immediateHigh row lane
  let underflow := laneColumn row lane controlUnderflow
  let overflow := laneColumn row lane controlOverflow
  let relative := operationSelector row lane 3
  let relativeTaken := active * relative * branch
  let relativeTarget := sequential + low -
    ((256 : ℕ) : R) * laneColumn row lane (immediateLowBits + 7) +
    ((65536 : ℕ) : R) * underflow - ((65536 : ℕ) : R) * overflow
  let pc := after row lane statePc
  let popped := busValue row lane 1 + ((256 : ℕ) : R) * busValue row lane 2
  [active * (one - controlOperation row lane) * (pc - sequential),
    underflow * overflow,
    (one - relativeTaken) * underflow,
    (one - relativeTaken) * overflow,
    active * relative * (pc - branch * relativeTarget - (one - branch) * sequential),
    active * (operationSelector row lane 28 + operationSelector row lane 34) *
      (pc - branch * immediateWord - (one - branch) * sequential),
    active * operationSelector row lane 26 * (pc - beforeWord row lane stateH stateL),
    active * operationSelector row lane 20 *
      (pc - branch * popped - (one - branch) * sequential),
    active * operationSelector row lane 25 * (pc - popped),
    active * operationSelector row lane 36 * (pc - ((8 : ℕ) : R) *
      packed ((List.range 3).map (fun bit => isa row lane (isaArgumentZeroBitsStart + bit))))]

/-- The flow constraints of a lane. -/
def constrainInstructionFlowWithLookup (row : Row R) (lane : ℕ) : List R :=
  constrainInstructionWitness row lane ++ constrainFetchAlignment row lane ++
    constrainBranchRoutingWithLookup row lane ++ constrainProgramCounter row lane

section Map

variable {S : Type*} [Add S] [Sub S] [Mul S] [NatCast S] (φ : ArithHom R S)

@[simp] theorem map_busAddressPacked (row : Row R) (lane slot : ℕ) :
    φ (busAddressPacked row lane slot) = busAddressPacked (φ.row row) lane slot := by
  simp [busAddressPacked, Function.comp_def]

@[simp] theorem map_busPhysicalPacked (row : Row R) (lane slot : ℕ) :
    φ (busPhysicalPacked row lane slot) = busPhysicalPacked (φ.row row) lane slot := by
  simp [busPhysicalPacked, Function.comp_def]

@[simp] theorem map_busValueBits (row : Row R) (lane slot width : ℕ) :
    (busValueBits row lane slot width).map φ = busValueBits (φ.row row) lane slot width := by
  simp [busValueBits, Function.comp_def]

@[simp] theorem map_constrainRomMapping (row : Row R) (lane : ℕ) :
    (constrainRomMapping row lane).map φ = constrainRomMapping (φ.row row) lane := by
  simp [constrainRomMapping, List.map_flatMap]

@[simp] theorem map_nibbleSelector (row : Row R) (lane value : ℕ) :
    φ (nibbleSelector row lane value) = nibbleSelector (φ.row row) lane value := by
  simp [nibbleSelector, Function.comp_def]

@[simp] theorem map_rtcRegisterSelected (row : Row R) (lane : ℕ) :
    φ (rtcRegisterSelected row lane) = rtcRegisterSelected (φ.row row) lane := by
  simp [rtcRegisterSelected, Function.comp_def]

@[simp] theorem map_controlSegment (row : Row R) (lane slot : ℕ) (control : R) (high low : Bool) :
    φ (controlSegment row lane slot control high low) =
      controlSegment (φ.row row) lane slot (φ control) high low := by
  simp [controlSegment, apply_ite φ]

@[simp] theorem map_ramEnableValue (row : Row R) (lane slot : ℕ) :
    φ (ramEnableValue row lane slot) = ramEnableValue (φ.row row) lane slot := by
  simp [ramEnableValue]

@[simp] theorem map_laneBits (row : Row R) (lane start width : ℕ) :
    (laneBits row lane start width).map φ = laneBits (φ.row row) lane start width := by
  simp [laneBits, Function.comp_def]

@[simp] theorem map_constrainInstructionWitness (row : Row R) (lane : ℕ) :
    (constrainInstructionWitness row lane).map φ =
      constrainInstructionWitness (φ.row row) lane := by
  simp [constrainInstructionWitness, instructionWitness]

@[simp] theorem map_constrainFetchAlignment (row : Row R) (lane : ℕ) :
    (constrainFetchAlignment row lane).map φ = constrainFetchAlignment (φ.row row) lane := by
  simp [constrainFetchAlignment, fetchOne, fetchTwo, Function.comp_def]

@[simp] theorem map_conditionalOperation (row : Row R) (lane : ℕ) :
    φ (conditionalOperation row lane) = conditionalOperation (φ.row row) lane := by
  simp [conditionalOperation]

@[simp] theorem map_conditionArgument (row : Row R) (lane : ℕ) :
    φ (conditionArgument row lane) = conditionArgument (φ.row row) lane := by
  simp [conditionArgument]

@[simp] theorem map_constrainInstructionFlowWithLookup (row : Row R) (lane : ℕ) :
    (constrainInstructionFlowWithLookup row lane).map φ =
      constrainInstructionFlowWithLookup (φ.row row) lane := by
  simp [constrainInstructionFlowWithLookup, constrainBranchRoutingWithLookup,
    constrainProgramCounter, controlOperation, Function.comp_def]

variable [InverseConstant R] [InverseConstant S] {φ} (hφ : φ.KeepsInverses)

include hφ

theorem map_constrainExternalRamPolicy (row : Row R) (lane : ℕ) :
    (constrainExternalRamPolicy row lane).map φ = constrainExternalRamPolicy (φ.row row) lane := by
  simp [constrainExternalRamPolicy, List.map_flatMap, map_profileRtcSelector hφ]

theorem map_constrainMapperUpdates (row : Row R) (lane : ℕ) :
    (constrainMapperUpdates row lane).map φ = constrainMapperUpdates (φ.row row) lane := by
  simp [constrainMapperUpdates, mappedRomBank, List.map_flatMap, map_profile256KibSelector hφ]

theorem map_constrainMapperAndRom (row : Row R) (lane : ℕ) :
    (constrainMapperAndRom row lane).map φ = constrainMapperAndRom (φ.row row) lane := by
  simp [constrainMapperAndRom, map_constrainExternalRamPolicy hφ, map_constrainMapperUpdates hφ]

end Map

end PackedLane

end Zksm83
