import Zksm83.Block.Isa

/-!
# The shared ordered bus plane

Five bus slots per block. A slot holds an activity flag, a five-bit event kind, and the tuple
(CPU address, physical address, before byte, auxiliary value, value, index), followed by the bit
decompositions of the two addresses and the two bytes and by the ROM query columns.
After `block_bus.rs`.
-/

namespace Zksm83

open Constraint

abbrev traceBusKindBits : ℕ := 5
abbrev traceBusSlotWidth : ℕ := 12
abbrev romAddressBitCount : ℕ := 20

namespace BlockBus

abbrev columnCount : ℕ := 336

abbrev busStart : ℕ := BlockMetadata.columnCount
abbrev addressBitsStart : ℕ := busStart + basicBlockBusEventBound * traceBusSlotWidth
abbrev physicalBitsStart : ℕ := addressBitsStart + basicBlockBusEventBound * 16
abbrev valueBitsStart : ℕ := physicalBitsStart + basicBlockBusEventBound * romAddressBitCount
abbrev beforeBitsStart : ℕ := valueBitsStart + basicBlockBusEventBound * 8
abbrev romSelectorStart : ℕ := beforeBitsStart + basicBlockBusEventBound * 8
abbrev romValueStart : ℕ := romSelectorStart + basicBlockBusEventBound

abbrev busAddressOffset : ℕ := 1 + traceBusKindBits
abbrev busPhysicalOffset : ℕ := busAddressOffset + 1
abbrev busBeforeOffset : ℕ := busAddressOffset + 2
abbrev busAuxiliaryOffset : ℕ := busAddressOffset + 3
abbrev busValueOffset : ℕ := busAddressOffset + 4
abbrev busIndexOffset : ℕ := busAddressOffset + 5
abbrev busTupleFields : ℕ := 6

/-- First column of a slot's tuple. -/
def slotStart (slot : ℕ) : ℕ := busStart + slot * traceBusSlotWidth

variable {R : Type*}

/-- A field of a slot's tuple. -/
def slotFieldValue (row : Row R) (slot offset : ℕ) : R := row (slotStart slot + offset)

/-- The activity flag of a slot. -/
def slotActiveValue (row : Row R) (slot : ℕ) : R := row (slotStart slot)

/-- The CPU address of a slot. -/
def slotAddressValue (row : Row R) (slot : ℕ) : R := slotFieldValue row slot busAddressOffset

/-- The physical address of a slot. -/
def slotPhysicalAddressValue (row : Row R) (slot : ℕ) : R :=
  slotFieldValue row slot busPhysicalOffset

/-- The byte of a slot before the event. -/
def slotBeforeValue (row : Row R) (slot : ℕ) : R := slotFieldValue row slot busBeforeOffset

/-- The auxiliary value of a slot. -/
def slotAuxiliaryValue (row : Row R) (slot : ℕ) : R := slotFieldValue row slot busAuxiliaryOffset

/-- The byte a slot reads or writes. -/
def slotValueValue (row : Row R) (slot : ℕ) : R := slotFieldValue row slot busValueOffset

/-- The log index of a slot. -/
def slotIndexValue (row : Row R) (slot : ℕ) : R := slotFieldValue row slot busIndexOffset

/-- A bit of one of the four decompositions of a slot. -/
def slotBitValue (row : Row R) (start slot bit width : ℕ) : R := row (start + slot * width + bit)

def slotAddressBit (row : Row R) (slot bit : ℕ) : R := slotBitValue row addressBitsStart slot bit 16

def slotPhysicalAddressBit (row : Row R) (slot bit : ℕ) : R :=
  slotBitValue row physicalBitsStart slot bit romAddressBitCount

def slotValueBit (row : Row R) (slot bit : ℕ) : R := slotBitValue row valueBitsStart slot bit 8

def slotBeforeBit (row : Row R) (slot bit : ℕ) : R := slotBitValue row beforeBitsStart slot bit 8

/-- Whether a slot queries the ROM table. -/
def slotRomSelectorValue (row : Row R) (slot : ℕ) : R := row (romSelectorStart + slot)

/-- The byte of a slot's ROM query. -/
def slotRomValueValue (row : Row R) (slot : ℕ) : R := row (romValueStart + slot)

/-- The kind bits of a slot, lowest first. -/
def slotKindBits (row : Row R) (slot : ℕ) : List R :=
  (List.range traceBusKindBits).map (fun bit => row (slotStart slot + 1 + bit))

variable [Add R] [Sub R] [Mul R] [NatCast R]

/-- The selector of one event kind of a slot. -/
def slotKindSelector (row : Row R) (slot code : ℕ) : R := bitSelector (slotKindBits row slot) code

/-- Sum of the selectors of several event kinds of a slot. -/
def kindSelectorSum (row : Row R) (slot : ℕ) (codes : List ℕ) : R :=
  total (codes.map (slotKindSelector row slot))

/-- The event kinds that read the ROM table. -/
abbrev romKindCodes : List ℕ := [1, 2, 3, 16]

/-- One decomposition: its bits are bits and recompose the tuple field. -/
def constrainDecomposition (row : Row R) (slot bitsStart width tupleOffset : ℕ) : List R :=
  (List.range width).map (fun bit => boolean (slotBitValue row bitsStart slot bit width)) ++
    [slotFieldValue row slot tupleOffset -
      packed ((List.range width).map (fun bit => slotBitValue row bitsStart slot bit width))]

/-- The four decompositions of a slot. -/
def constrainSlotDecompositions (row : Row R) (slot : ℕ) : List R :=
  constrainDecomposition row slot addressBitsStart 16 busAddressOffset ++
    constrainDecomposition row slot physicalBitsStart romAddressBitCount busPhysicalOffset ++
    constrainDecomposition row slot valueBitsStart 8 busValueOffset ++
    constrainDecomposition row slot beforeBitsStart 8 busBeforeOffset

/-- The constraints of one slot. -/
def constrainSlot (row : Row R) (slot : ℕ) : List R :=
  let one : R := ((1 : ℕ) : R)
  let slotActive := slotActiveValue row slot
  let rom := slotRomSelectorValue row slot
  [boolean slotActive] ++ (slotKindBits row slot).map boolean ++
    [totalOver 19 (slotKindSelector row slot) - one,
      slotActive - (one - slotKindSelector row slot 0)] ++
    (List.range busTupleFields).map (fun offset =>
      (one - slotActive) * slotFieldValue row slot (busAddressOffset + offset)) ++
    constrainSlotDecompositions row slot ++
    [boolean rom, rom - kindSelectorSum row slot romKindCodes,
      slotRomValueValue row slot - rom * slotValueValue row slot]

/-- The constraints of all slots, and active slots form a prefix. -/
def constrainBus (row : Row R) : List R :=
  let one : R := ((1 : ℕ) : R)
  (List.range basicBlockBusEventBound).flatMap (constrainSlot row) ++
    (List.range (basicBlockBusEventBound - 1)).map (fun slot =>
      slotActiveValue row (slot + 1) * (one - slotActiveValue row slot))

/-- All constraints of the bus plane. -/
def evaluate (row : Row R) : List R :=
  BlockMetadata.evaluate row ++ constrainBus row

variable {S : Type*} [Add S] [Sub S] [Mul S] [NatCast S] (φ : ArithHom R S) (row : Row R)

@[simp] theorem map_slotFieldValue (slot offset : ℕ) :
    φ (slotFieldValue row slot offset) = slotFieldValue (φ.row row) slot offset := rfl

@[simp] theorem map_slotActiveValue (slot : ℕ) :
    φ (slotActiveValue row slot) = slotActiveValue (φ.row row) slot := rfl

@[simp] theorem map_slotAddressValue (slot : ℕ) :
    φ (slotAddressValue row slot) = slotAddressValue (φ.row row) slot := rfl

@[simp] theorem map_slotPhysicalAddressValue (slot : ℕ) :
    φ (slotPhysicalAddressValue row slot) = slotPhysicalAddressValue (φ.row row) slot := rfl

@[simp] theorem map_slotBeforeValue (slot : ℕ) :
    φ (slotBeforeValue row slot) = slotBeforeValue (φ.row row) slot := rfl

@[simp] theorem map_slotAuxiliaryValue (slot : ℕ) :
    φ (slotAuxiliaryValue row slot) = slotAuxiliaryValue (φ.row row) slot := rfl

@[simp] theorem map_slotValueValue (slot : ℕ) :
    φ (slotValueValue row slot) = slotValueValue (φ.row row) slot := rfl

@[simp] theorem map_slotIndexValue (slot : ℕ) :
    φ (slotIndexValue row slot) = slotIndexValue (φ.row row) slot := rfl

@[simp] theorem map_slotBitValue (start slot bit width : ℕ) :
    φ (slotBitValue row start slot bit width) = slotBitValue (φ.row row) start slot bit width := rfl

@[simp] theorem map_slotAddressBit (slot bit : ℕ) :
    φ (slotAddressBit row slot bit) = slotAddressBit (φ.row row) slot bit := rfl

@[simp] theorem map_slotPhysicalAddressBit (slot bit : ℕ) :
    φ (slotPhysicalAddressBit row slot bit) = slotPhysicalAddressBit (φ.row row) slot bit := rfl

@[simp] theorem map_slotValueBit (slot bit : ℕ) :
    φ (slotValueBit row slot bit) = slotValueBit (φ.row row) slot bit := rfl

@[simp] theorem map_slotBeforeBit (slot bit : ℕ) :
    φ (slotBeforeBit row slot bit) = slotBeforeBit (φ.row row) slot bit := rfl

@[simp] theorem map_slotRomSelectorValue (slot : ℕ) :
    φ (slotRomSelectorValue row slot) = slotRomSelectorValue (φ.row row) slot := rfl

@[simp] theorem map_slotRomValueValue (slot : ℕ) :
    φ (slotRomValueValue row slot) = slotRomValueValue (φ.row row) slot := rfl

@[simp] theorem map_slotKindBits (slot : ℕ) :
    (slotKindBits row slot).map φ = slotKindBits (φ.row row) slot := by
  simp [slotKindBits, Function.comp_def]

@[simp] theorem map_slotKindSelector (slot code : ℕ) :
    φ (slotKindSelector row slot code) = slotKindSelector (φ.row row) slot code := by
  simp [slotKindSelector]

@[simp] theorem map_kindSelectorSum (slot : ℕ) (codes : List ℕ) :
    φ (kindSelectorSum row slot codes) = kindSelectorSum (φ.row row) slot codes := by
  simp [kindSelectorSum, Function.comp_def]

@[simp] theorem map_constrainDecomposition (slot bitsStart width tupleOffset : ℕ) :
    (constrainDecomposition row slot bitsStart width tupleOffset).map φ =
      constrainDecomposition (φ.row row) slot bitsStart width tupleOffset := by
  simp [constrainDecomposition, Function.comp_def]

@[simp] theorem map_constrainSlot (slot : ℕ) :
    (constrainSlot row slot).map φ = constrainSlot (φ.row row) slot := by
  simp [constrainSlot, constrainSlotDecompositions, ← map_slotKindBits, Function.comp_def]

@[simp] theorem map_evaluate : (evaluate row).map φ = evaluate (φ.row row) := by
  simp [evaluate, constrainBus, List.map_flatMap, Function.comp_def]

end BlockBus

end Zksm83
