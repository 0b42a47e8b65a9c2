import Zksm83.Isa.Decode

/-!
# SM83 arithmetic

The four flags and the byte and word operations with their flag results. Bytes are natural numbers
below 256 and words below 65536. The source stores the flags in a byte whose low nibble is checked
to be zero, which is four booleans. After `alu.rs` and the flags of `state.rs`.
-/

namespace Zksm83

/-- The flag register. -/
structure Flags where
  zero : Bool
  subtract : Bool
  halfCarry : Bool
  carry : Bool
  deriving DecidableEq, Repr

namespace Flags

/-- The flag register as a byte. -/
def byte (flags : Flags) : ℕ :=
  flags.zero.toNat * 0x80 + flags.subtract.toNat * 0x40 + flags.halfCarry.toNat * 0x20 +
    flags.carry.toNat * 0x10

/-- The flags of a byte; its low nibble is discarded. -/
def fromByte (value : ℕ) : Flags where
  zero := value.testBit 7
  subtract := value.testBit 6
  halfCarry := value.testBit 5
  carry := value.testBit 4

end Flags

namespace Alu

/-- A byte result with its flags. -/
structure ByteResult where
  value : ℕ
  flags : Flags
  deriving DecidableEq, Repr

def increment (value : ℕ) (before : Flags) : ByteResult :=
  let result := (value + 1) % 256
  ⟨result, ⟨result = 0, false, value % 16 = 0xf, before.carry⟩⟩

def decrement (value : ℕ) (before : Flags) : ByteResult :=
  let result := (value + 255) % 256
  ⟨result, ⟨result = 0, true, value % 16 = 0, before.carry⟩⟩

def addHl (left right : ℕ) (before : Flags) : ℕ × Flags :=
  ((left + right) % 65536,
    ⟨before.zero, false, 0xfff < left % 0x1000 + right % 0x1000, 65536 ≤ left + right⟩)

/-- A byte read as a signed offset, added to a word. -/
def addSigned (word offset : ℕ) : ℕ :=
  if offset < 128 then (word + offset) % 65536 else (word + 65536 + offset - 256) % 65536

def addSignedToSp (sp encodedOffset : ℕ) : ℕ × Flags :=
  (addSigned sp encodedOffset,
    ⟨false, false, 0xf < sp % 16 + encodedOffset % 16, 0xff < sp % 256 + encodedOffset⟩)

def add (left right : ℕ) (carryIn : Bool) : ByteResult :=
  let sum := left + right + carryIn.toNat
  ⟨sum % 256, ⟨sum % 256 = 0, false, 0xf < left % 16 + right % 16 + carryIn.toNat, 256 ≤ sum⟩⟩

def subtract (left right : ℕ) (carryIn : Bool) : ByteResult :=
  let value := (left + 512 - right - carryIn.toNat) % 256
  ⟨value, ⟨value = 0, true, left % 16 < right % 16 + carryIn.toNat,
    left < right + carryIn.toNat⟩⟩

def logical (value : ℕ) (halfCarry : Bool) : ByteResult :=
  ⟨value, ⟨value = 0, false, halfCarry, false⟩⟩

def applyAlu (operation : AluOperation) (accumulator operand : ℕ) (before : Flags) : ByteResult :=
  match operation with
  | .add => add accumulator operand false
  | .addCarry => add accumulator operand before.carry
  | .subtract => subtract accumulator operand false
  | .subtractCarry => subtract accumulator operand before.carry
  | .and => logical (accumulator &&& operand) true
  | .xor => logical (accumulator ^^^ operand) false
  | .or => logical (accumulator ||| operand) false
  | .compare => subtract accumulator operand false

/-- Rotates and shifts; none for the bit operations. -/
def rotateShift (operation : CbOperation) (value : ℕ) (carryIn zeroFromResult : Bool) :
    Option ByteResult :=
  let high := value / 128
  let low := value % 2
  let finish := fun (result : ℕ) (carry : Bool) =>
    some ⟨result, ⟨zeroFromResult && result = 0, false, false, carry⟩⟩
  match operation with
  | .rotateLeftCircular => finish (value * 2 % 256 + high) (high ≠ 0)
  | .rotateRightCircular => finish (value / 2 + low * 128) (low ≠ 0)
  | .rotateLeft => finish (value * 2 % 256 + carryIn.toNat) (high ≠ 0)
  | .rotateRight => finish (value / 2 + carryIn.toNat * 128) (low ≠ 0)
  | .shiftLeftArithmetic => finish (value * 2 % 256) (high ≠ 0)
  | .shiftRightArithmetic => finish (value / 2 + high * 128) (low ≠ 0)
  | .swapNibbles => finish (value % 16 * 16 + value / 16) false
  | .shiftRightLogical => finish (value / 2) (low ≠ 0)
  | .testBit _ | .resetBit _ | .setBit _ => none

def decimalAdjust (accumulator : ℕ) (before : Flags) : ByteResult :=
  let carry := before.carry || (!before.subtract && 0x99 < accumulator)
  let lowAdjust := before.halfCarry || (!before.subtract && 9 < accumulator % 16)
  let correction := (if carry then 0x60 else 0) + (if lowAdjust then 0x06 else 0)
  let value := if before.subtract then (accumulator + 256 - correction) % 256
    else (accumulator + correction) % 256
  ⟨value, ⟨value = 0, before.subtract, false, carry⟩⟩

end Alu

end Zksm83
