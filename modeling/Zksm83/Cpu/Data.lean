import Zksm83.Cpu.Flow

/-!
# Loads, word operations, stack, and CB memory operands of packed lanes

After `cpu/data.rs`, `cpu/word.rs`, `cpu/stack.rs` and the packed part of `cpu/bit.rs`.
-/

namespace Zksm83

open Constraint

namespace PackedLane

variable {R : Type*} [Add R] [Sub R] [Mul R] [NatCast R]

/-- The byte or word loaded from the immediates, and the zero byte after STOP. -/
def constrainImmediateLoads (row : Row R) (lane : ℕ) : List R :=
  let active := instruction row lane
  let low := immediateLow row lane
  let high := immediateHigh row lane
  let load16 := operationSelector row lane 4
  let load8 := operationSelector row lane 11
  let memory := active * load8 * argumentZero row lane 6
  wordRegisterRoutes.flatMap (fun route =>
      [active * load16 * argumentZero row lane route.1 * (after row lane route.2.1 - high),
        active * load16 * argumentZero row lane route.1 * (after row lane route.2.2 - low)]) ++
    [active * load16 * argumentZero row lane 3 *
      (after row lane stateSp - (low + ((256 : ℕ) : R) * high))] ++
    byteRegisterRoutes.map (fun route =>
      active * load8 * argumentZero row lane route.1 * (after row lane route.2 - low)) ++
    [memory * (busAddress row lane 2 - beforeWord row lane stateH stateL),
      memory * (busValue row lane 2 - low),
      active * operationSelector row lane 2 * low]

/-- LD (nn),SP writes both halves of SP. -/
def constrainStoreSp (row : Row R) (lane : ℕ) : List R :=
  let one : R := ((1 : ℕ) : R)
  let store := instruction row lane * operationSelector row lane 1
  let wrap := laneColumn row lane addressWrap
  let address := immediateLow row lane + ((256 : ℕ) : R) * immediateHigh row lane
  let spByte := fun start => packed ((List.range 8).map (fun bit => beforeSpBit row lane (start + bit)))
  [boolean wrap,
    store * (busAddress row lane 3 - address),
    store * (busValue row lane 3 - spByte 0),
    store * (busAddress row lane 4 - address - one + ((65536 : ℕ) : R) * wrap),
    store * (busValue row lane 4 - spByte 8),
    (one - store) * wrap]

/-- The byte source of a register load: a register, or the first event after the fetch. -/
def selectedByteSource (row : Row R) (lane : ℕ) : R :=
  total (byteRegisterRoutes.map (fun route =>
    argumentOne row lane route.1 * before row lane route.2)) +
    argumentOne row lane 6 * busValue row lane 1

/-- LD r,r' with either side in memory. -/
def constrainLoad8 (row : Row R) (lane : ℕ) : List R :=
  let load := instruction row lane * operationSelector row lane 17
  let operand := operandValue row lane
  let memory := load * argumentZero row lane 6
  [load * (operand - selectedByteSource row lane)] ++
    byteRegisterRoutes.map (fun route =>
      load * argumentZero row lane route.1 * (after row lane route.2 - operand)) ++
    [memory * (busAddress row lane 1 - beforeWord row lane stateH stateL),
      memory * (busValue row lane 1 - operand)]

/-- A transfer between A and the event in `slot` at `address`. -/
def constrainDirectionalTransfer (row : Row R) (lane slot : ℕ)
    (operation directionIn directionOut address : R) : List R :=
  [operation * (busAddress row lane slot - address),
    operation * directionIn * (after row lane stateA - busValue row lane slot),
    operation * directionOut * (busValue row lane slot - before row lane stateA)]

/-- The transfers between A and memory. -/
def constrainAccumulatorTransfers (row : Row R) (lane : ℕ) : List R :=
  let active := instruction row lane
  let low := immediateLow row lane
  let hl := beforeWord row lane stateH stateL
  let indirectAddress := argumentZero row lane 0 * beforeWord row lane stateB stateC +
    argumentZero row lane 1 * beforeWord row lane stateD stateE +
    (argumentZero row lane 2 + argumentZero row lane 3) * hl
  let zeroIn := argumentZero row lane 0
  let zeroOut := argumentZero row lane 1
  constrainDirectionalTransfer row lane 1 (active * operationSelector row lane 6)
      (argumentOne row lane 0) (argumentOne row lane 1) indirectAddress ++
    constrainDirectionalTransfer row lane 2 (active * operationSelector row lane 21)
      zeroIn zeroOut (((0xff00 : ℕ) : R) + low) ++
    constrainDirectionalTransfer row lane 1 (active * operationSelector row lane 29)
      zeroIn zeroOut (((0xff00 : ℕ) : R) + before row lane stateC) ++
    constrainDirectionalTransfer row lane 3 (active * operationSelector row lane 30)
      zeroIn zeroOut (low + ((256 : ℕ) : R) * immediateHigh row lane)

/-- CPL, SCF and CCF. -/
def constrainSimpleFlagOperations (row : Row R) (lane : ℕ) : List R :=
  let active := instruction row lane
  let zero := beforeCpuBit row lane stateFlags 7 * ((128 : ℕ) : R)
  let carry := beforeCpuBit row lane stateFlags 4
  let flags := after row lane stateFlags
  let complement := active * operationSelector row lane 14
  [complement * (after row lane stateA + before row lane stateA - ((255 : ℕ) : R)),
    complement * (flags - zero - ((96 : ℕ) : R) - carry * ((16 : ℕ) : R)),
    active * operationSelector row lane 15 * (flags - zero - ((16 : ℕ) : R)),
    active * operationSelector row lane 16 *
      (flags - zero - (((1 : ℕ) : R) - carry) * ((16 : ℕ) : R))]

/-- STOP stops; HALT sleeps or arms the HALT bug. -/
def constrainLowPower (row : Row R) (lane : ℕ) : List R :=
  let active := instruction row lane
  let runState := after row lane stateRunState
  [active * operationSelector row lane 2 * (runState - ((2 : ℕ) : R)),
    active * operationSelector row lane 18 * (runState - ((1 : ℕ) : R)) *
      (runState - ((3 : ℕ) : R))]

/-- The interrupt-enable latch with its one-instruction delay. -/
def constrainIme (row : Row R) (lane : ℕ) : List R :=
  let one : R := ((1 : ℕ) : R)
  let two : R := ((2 : ℕ) : R)
  let active := instruction row lane
  let ime := before row lane stateIme
  let next := after row lane stateIme
  let disable := operationSelector row lane 32
  let enable := operationSelector row lane 33
  let reti := operationSelector row lane 25
  let ordinary := one - disable - enable - reti
  let caseZero := (ime - one) * (ime - two)
  let caseOne := ime * (ime - two)
  let caseTwo := ime * (ime - one)
  [active * disable * next,
    active * reti * (next - two),
    active * ordinary * caseZero * next,
    active * enable * caseZero * (next - one),
    active * (ordinary + enable) * caseOne * (next - two),
    active * ordinary * caseTwo * (next - two),
    active * enable * caseTwo * (next - one)]

/-- Register, immediate, and accumulator constraints of a lane. -/
def constrainDataAndSimpleOperations (row : Row R) (lane : ℕ) : List R :=
  constrainImmediateLoads row lane ++ constrainStoreSp row lane ++ constrainLoad8 row lane ++
    constrainAccumulatorTransfers row lane ++ constrainSimpleFlagOperations row lane ++
    constrainLowPower row lane ++ constrainIme row lane

/-- The register pair that the first argument selects. -/
def selectedRegisterWord (row : Row R) (lane : ℕ) (isAfter : Bool) : R :=
  total (wordRegisterRoutes.map (fun route => argumentZero row lane route.1 *
      (if isAfter then afterWord row lane route.2.1 route.2.2
        else beforeWord row lane route.2.1 route.2.2))) +
    argumentZero row lane 3 * (if isAfter then after row lane stateSp else before row lane stateSp)

/-- Word increments and decrements, the HL post-steps, and LD SP,HL. -/
def constrainWordOperationsWithLookup (row : Row R) (lane : ℕ) : List R :=
  let one : R := ((1 : ℕ) : R)
  let active := instruction row lane
  let increment := operationSelector row lane 7
  let decrement := operationSelector row lane 8
  let indirect := operationSelector row lane 6
  let wrap := laneColumn row lane wordWrap
  let carry := ((65536 : ℕ) : R) * wrap
  let current := selectedRegisterWord row lane false
  let next := selectedRegisterWord row lane true
  let currentHl := beforeWord row lane stateH stateL
  let nextHl := afterWord row lane stateH stateL
  let wrapUse := active * (increment + decrement +
    indirect * (argumentZero row lane 2 + argumentZero row lane 3))
  [boolean wrap,
    active * increment * (next - current - one + carry),
    active * decrement * (next - current + one - carry),
    active * indirect * argumentZero row lane 2 * (nextHl - currentHl - one + carry),
    active * indirect * argumentZero row lane 3 * (nextHl - currentHl + one - carry),
    active * operationSelector row lane 27 * (after row lane stateSp - currentHl),
    (one - wrapUse) * wrap]

/-- The register pair that a PUSH stores. -/
def selectedStackWord (row : Row R) (lane : ℕ) : R :=
  total ((wordRegisterRoutes ++ [(3, stateA, stateFlags)]).map (fun route : ℕ × ℕ × ℕ =>
    argumentZero row lane route.1 * beforeWord row lane route.2.1 route.2.2))

/-- CALL, PUSH and RST: stack pointer, addresses, and pushed word. -/
def constrainPushes (row : Row R) (lane : ℕ) : List R :=
  let active := instruction row lane
  let call := operationSelector row lane 34
  let push := operationSelector row lane 35
  let restart := operationSelector row lane 36
  let callTaken := call * branchTaken row lane
  let pushControl := callTaken + push + restart
  let wrap := ((65536 : ℕ) : R) * laneColumn row lane stackWrap
  let firstWrap := ((65536 : ℕ) : R) * laneColumn row lane stackFirstWrap
  let sp := before row lane stateSp
  let routed := fun (field : ℕ → R) (callSlot pushSlot : ℕ) =>
    callTaken * field callSlot + (push + restart) * field pushSlot
  let pushedWord := (callTaken + restart) * sequentialPc row lane +
    push * selectedStackWord row lane
  [active * (call + push + restart) *
      (after row lane stateSp - sp + ((2 : ℕ) : R) * pushControl - wrap),
    active * (routed (busAddress row lane) 3 1 - pushControl * (sp - ((1 : ℕ) : R) + firstWrap)),
    active * (routed (busAddress row lane) 4 2 - pushControl * (sp - ((2 : ℕ) : R) + wrap)),
    active * (routed (busValue row lane) 4 2 + ((256 : ℕ) : R) * routed (busValue row lane) 3 1 -
      pushedWord)]

/-- RET, POP and RETI: stack pointer, addresses, and popped registers. -/
def constrainPops (row : Row R) (lane : ℕ) : List R :=
  let active := instruction row lane
  let returnOperation := operationSelector row lane 20
  let pop := operationSelector row lane 24
  let reti := operationSelector row lane 25
  let popControl := returnOperation * branchTaken row lane + pop + reti
  let popGroup := returnOperation + pop + reti
  let sp := before row lane stateSp
  let low := busValue row lane 1
  let high := busValue row lane 2
  [active * popGroup * (after row lane stateSp - sp - ((2 : ℕ) : R) * popControl +
      ((65536 : ℕ) : R) * laneColumn row lane stackWrap),
    active * popGroup * (busAddress row lane 1 - popControl * sp),
    active * popGroup * (busAddress row lane 2 - popControl * (sp + ((1 : ℕ) : R) -
      ((65536 : ℕ) : R) * laneColumn row lane stackFirstWrap))] ++
    wordRegisterRoutes.flatMap (fun route =>
      [active * pop * argumentZero row lane route.1 * (after row lane route.2.1 - high),
        active * pop * argumentZero row lane route.1 * (after row lane route.2.2 - low)]) ++
    [active * pop * argumentZero row lane 3 * (after row lane stateA - high),
      active * pop * argumentZero row lane 3 *
        (low - after row lane stateFlags - popFlagsLowNibble row lane)]

/-- The stack constraints of a lane; the interrupt mode of the shared helper is zero in lanes. -/
def constrainStackOperations (row : Row R) (lane : ℕ) : List R :=
  let one : R := ((1 : ℕ) : R)
  let active := instruction row lane
  let stackUse := active * (operationSelector row lane 24 + operationSelector row lane 25 +
    operationSelector row lane 35 + operationSelector row lane 36 + branchTaken row lane *
    (operationSelector row lane 20 + operationSelector row lane 34)) + ((0 : ℕ) : R)
  let popAf := active * operationSelector row lane 24 * argumentZero row lane 3
  [boolean (laneColumn row lane stackWrap), boolean (laneColumn row lane stackFirstWrap)] ++
    booleans (laneBits row lane popFlagsLowNibbleBits 4) ++
    [popFlagsLowNibble row lane - packed (laneBits row lane popFlagsLowNibbleBits 4)] ++
    constrainPushes row lane ++ constrainPops row lane ++
    [(one - stackUse) * laneColumn row lane stackWrap,
      (one - stackUse) * laneColumn row lane stackFirstWrap,
      (one - popAf) * popFlagsLowNibble row lane]

/-- CB operations on (HL) read and write at HL. -/
def constrainCbBusWithLookup (row : Row R) (lane : ℕ) : List R :=
  let active := instruction row lane
  let memory := argumentOne row lane 6
  let hl := beforeWord row lane stateH stateL
  let rotate := operationSelector row lane 37
  let reset := operationSelector row lane 39
  let set := operationSelector row lane 40
  [active * (rotate + operationSelector row lane 38 + reset + set) * memory *
      (busAddress row lane 2 - hl),
    active * (rotate + reset + set) * memory * (busAddress row lane 3 - hl)]

section Map

variable {S : Type*} [Add S] [Sub S] [Mul S] [NatCast S] (φ : ArithHom R S)

@[simp] theorem map_constrainImmediateLoads (row : Row R) (lane : ℕ) :
    (constrainImmediateLoads row lane).map φ = constrainImmediateLoads (φ.row row) lane := by
  simp [constrainImmediateLoads, List.map_flatMap, Function.comp_def]

@[simp] theorem map_selectedByteSource (row : Row R) (lane : ℕ) :
    φ (selectedByteSource row lane) = selectedByteSource (φ.row row) lane := by
  simp [selectedByteSource, Function.comp_def]

@[simp] theorem map_constrainAccumulatorTransfers (row : Row R) (lane : ℕ) :
    (constrainAccumulatorTransfers row lane).map φ =
      constrainAccumulatorTransfers (φ.row row) lane := by
  simp [constrainAccumulatorTransfers, constrainDirectionalTransfer]

@[simp] theorem map_constrainIme (row : Row R) (lane : ℕ) :
    (constrainIme row lane).map φ = constrainIme (φ.row row) lane := by
  simp [constrainIme]

@[simp] theorem map_constrainDataAndSimpleOperations (row : Row R) (lane : ℕ) :
    (constrainDataAndSimpleOperations row lane).map φ =
      constrainDataAndSimpleOperations (φ.row row) lane := by
  simp [constrainDataAndSimpleOperations, constrainStoreSp, constrainLoad8,
    constrainSimpleFlagOperations, constrainLowPower, Function.comp_def]

@[simp] theorem map_selectedRegisterWord (row : Row R) (lane : ℕ) (isAfter : Bool) :
    φ (selectedRegisterWord row lane isAfter) = selectedRegisterWord (φ.row row) lane isAfter := by
  simp [selectedRegisterWord, Function.comp_def, apply_ite φ]

@[simp] theorem map_constrainWordOperationsWithLookup (row : Row R) (lane : ℕ) :
    (constrainWordOperationsWithLookup row lane).map φ =
      constrainWordOperationsWithLookup (φ.row row) lane := by
  simp [constrainWordOperationsWithLookup]

@[simp] theorem map_selectedStackWord (row : Row R) (lane : ℕ) :
    φ (selectedStackWord row lane) = selectedStackWord (φ.row row) lane := by
  simp [selectedStackWord, Function.comp_def]

@[simp] theorem map_constrainStackOperations (row : Row R) (lane : ℕ) :
    (constrainStackOperations row lane).map φ = constrainStackOperations (φ.row row) lane := by
  simp [constrainStackOperations, constrainPushes, constrainPops, List.map_flatMap]

@[simp] theorem map_constrainCbBusWithLookup (row : Row R) (lane : ℕ) :
    (constrainCbBusWithLookup row lane).map φ = constrainCbBusWithLookup (φ.row row) lane := by
  simp [constrainCbBusWithLookup]

end Map

end PackedLane

end Zksm83
