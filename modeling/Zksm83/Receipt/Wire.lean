import Mathlib.Data.Nat.Digits.Defs
import Zksm83.Library.Codec
import Zksm83.Memory.Commitment

/-!
# Wire primitives

The bounded canonical encoding of the values in a receipt: little-endian words, byte strings of a
fixed length, byte strings and sequences with their length in front. A reader is the input that is
left: its offset never overflows, since every length that is read stands under a protocol bound.
After `wire.rs`.
-/

namespace Zksm83

inductive WireError where
  | unexpectedEnd
  | lengthLimit
  | shape
  | trailingBytes
  | akita (message : String)
  deriving DecidableEq, Repr

/-- The text of an error. -/
def WireError.toText : WireError → String
  | .unexpectedEnd => "native receipt wire input ended unexpectedly"
  | .lengthLimit => "native receipt wire length exceeds its protocol bound"
  | .shape => "native receipt wire value has an invalid shape"
  | .trailingBytes => "native receipt wire input has trailing bytes"
  | .akita message => "Akita receipt component decoding failed: " ++ message

/-- A check of the source: an error if the condition holds. -/
def rejectIf {ε : Type} (condition : Prop) [Decidable condition] (error : ε) : Except ε Unit :=
  if condition then .error error else .ok ()

@[simp] theorem rejectIf_eq_ok {ε : Type} {condition : Prop} [Decidable condition] {error : ε} :
    rejectIf condition error = .ok () ↔ ¬ condition := by
  unfold rejectIf
  split
  case isTrue h => exact ⟨nofun, fun hnot => absurd h hnot⟩
  case isFalse h => exact ⟨fun _ => h, fun _ => rfl⟩

/-- The value of an option, or an error. -/
def someOr {ε α : Type} (value : Option α) (error : ε) : Except ε α :=
  match value with
  | some value => .ok value
  | none => .error error

theorem someOr_eq_ok {ε α : Type} {value : Option α} {error : ε} {result : α} :
    someOr value error = .ok result ↔ value = some result := by
  cases value with
  | none => exact ⟨nofun, nofun⟩
  | some value => rw [someOr, Except.ok.injEq, Option.some.injEq]

abbrev maxSequenceLength : ℕ := 2 ^ 20
abbrev maxBlobLength : ℕ := 64 * 1024 * 1024

/-! ## Little-endian words -/

theorem leBytes_succ (width value : ℕ) :
    leBytes (width + 1) value = Fin.ofNat 256 value :: leBytes width (value / 256) := by
  unfold leBytes
  rw [List.range_succ_eq_map, List.map_cons, List.map_map, pow_zero, Nat.div_one]
  congr 2
  funext index
  show Fin.ofNat 256 (value / 256 ^ (index + 1)) = Fin.ofNat 256 (value / 256 / 256 ^ index)
  rw [Nat.div_div_eq_div_mul, pow_succ']

/-- The number that some bytes spell, the lowest first. -/
def leValue (bytes : List Byte) : ℕ := Nat.ofDigits 256 (bytes.map Fin.val)

@[simp] theorem leValue_nil : leValue [] = 0 := rfl

@[simp] theorem leValue_cons (byte : Byte) (bytes : List Byte) :
    leValue (byte :: bytes) = byte.val + 256 * leValue bytes := rfl

theorem leValue_leBytes (width value : ℕ) : leValue (leBytes width value) = value % 256 ^ width := by
  induction width generalizing value with
  | zero => simp [leBytes, Nat.mod_one]
  | succ width ih =>
    rw [leBytes_succ, leValue_cons, ih, pow_succ', Nat.mod_mul]
    rfl

theorem leBytes_leValue (bytes : List Byte) : leBytes bytes.length (leValue bytes) = bytes := by
  induction bytes with
  | nil => rfl
  | cons byte bytes ih =>
    have hbyte := byte.isLt
    rw [List.length_cons, leBytes_succ, leValue_cons,
      show (byte.val + 256 * leValue bytes) / 256 = leValue bytes by omega, ih]
    congr 1
    apply Fin.ext
    show (byte.val + 256 * leValue bytes) % 256 = byte.val
    omega

theorem leValue_lt (bytes : List Byte) : leValue bytes < 256 ^ bytes.length := by
  rw [← leBytes_leValue bytes, leValue_leBytes, length_leBytes]
  exact Nat.mod_lt _ (by positivity)

theorem leBytes_injective {width value value' : ℕ} (hvalue : value < 256 ^ width)
    (hvalue' : value' < 256 ^ width) (h : leBytes width value = leBytes width value') :
    value = value' := by
  have hvalues := congrArg leValue h
  rwa [leValue_leBytes, leValue_leBytes, Nat.mod_eq_of_lt hvalue, Nat.mod_eq_of_lt hvalue']
    at hvalues

/-- A word as its bytes. -/
def u64ToLeBytes (value : UInt64) : Vector Byte 8 :=
  ⟨(leBytes 8 value.toNat).toArray, by simp⟩

def u64FromLeBytes (bytes : Vector Byte 8) : UInt64 := .ofNat (leValue bytes.toList)

theorem toList_u64ToLeBytes (value : UInt64) :
    (u64ToLeBytes value).toList = leBytes 8 value.toNat := by
  simp [u64ToLeBytes, Vector.toList]

theorem u64FromLeBytes_toLeBytes (value : UInt64) : u64FromLeBytes (u64ToLeBytes value) = value := by
  have hlt := value.toNat_lt
  rw [u64FromLeBytes, toList_u64ToLeBytes, leValue_leBytes, Nat.mod_eq_of_lt (by simpa using hlt),
    UInt64.ofNat_toNat]

theorem u64ToLeBytes_fromLeBytes (bytes : Vector Byte 8) :
    u64ToLeBytes (u64FromLeBytes bytes) = bytes := by
  have hlt := leValue_lt bytes.toList
  rw [bytes.length_toList] at hlt
  apply Vector.toList_inj.mp
  rw [toList_u64ToLeBytes, u64FromLeBytes, UInt64.toNat_ofNat',
    Nat.mod_eq_of_lt (by simpa using hlt)]
  exact (congrArg (leBytes · _) bytes.length_toList.symm).trans (leBytes_leValue bytes.toList)

/-! ## Readers and writers -/

namespace WireReader

def raw (length : ℕ) (input : List Byte) : Except WireError (List Byte × List Byte) :=
  if input.length < length then .error .unexpectedEnd
  else .ok (input.take length, input.drop length)

def fixed (length : ℕ) (input : List Byte) : Except WireError (Vector Byte length × List Byte) := do
  let (bytes, rest) ← raw length input
  if h : bytes.length = length then return (⟨bytes.toArray, h⟩, rest) else throw .shape

end WireReader

namespace Wire

/-- Bytes of a fixed length. -/
def fixed (length : ℕ) : Codec WireError Byte (Vector Byte length) where
  encode value := .ok value.toList
  decode := WireReader.fixed length

theorem fixed_exact (length : ℕ) : (fixed length).Exact (fun _ => True) where
  decode_encode := by
    rintro value _ - ⟨⟩ rest
    have hlength : value.toList.length = length := value.length_toList
    have htake : (value.toList ++ rest).take length = value.toList := List.take_left' hlength
    have hdrop : (value.toList ++ rest).drop length = rest := List.drop_left' hlength
    show WireReader.fixed length (value.toList ++ rest) = _
    unfold WireReader.fixed WireReader.raw
    rw [if_neg (by rw [List.length_append, hlength]; omega), hdrop]
    show (if h : ((value.toList ++ rest).take length).length = length then _ else _) = _
    rw [dif_pos (by rw [htake, hlength])]
    refine congrArg (fun bytes => Except.ok (bytes, rest)) (Vector.toList_inj.mp ?_)
    exact htake
  encode_decode := by
    intro input value rest hdecode
    unfold fixed WireReader.fixed WireReader.raw at hdecode
    obtain ⟨⟨bytes, rest'⟩, hraw, hread⟩ := Except.of_bind_eq_ok hdecode
    split at hraw
    · cases hraw
    · cases hraw
      by_cases hlength : (input.take length).length = length
      · simp only [dif_pos hlength] at hread
        cases hread
        exact ⟨trivial, _, rfl, (List.take_append_drop length input).symm⟩
      · simp only [dif_neg hlength] at hread
        cases hread

def u64 : Codec WireError Byte UInt64 := (fixed 8).via u64ToLeBytes u64FromLeBytes

theorem u64_exact : u64.Exact (fun _ => True) :=
  (fixed_exact 8).via u64FromLeBytes_toLeBytes u64ToLeBytes_fromLeBytes

/-- A length or a count, under a bound that only the reader checks. -/
def usize (maximum : ℕ) : Codec WireError Byte ℕ where
  encode value := if 2 ^ 64 ≤ value then .error .lengthLimit else u64.encode (.ofNat value)
  decode input := do
    let (encoded, rest) ← u64.decode input
    if maximum < encoded.toNat then throw .lengthLimit else return (encoded.toNat, rest)

/-- The bytes of a count. -/
theorem encode_usize {maximum value : ℕ} {bytes : List Byte} :
    (usize maximum).encode value = .ok bytes ↔ value < 2 ^ 64 ∧ bytes = leBytes 8 value := by
  show (if 2 ^ 64 ≤ value then _ else Except.ok (u64ToLeBytes (.ofNat value)).toList) = _ ↔ _
  by_cases hle : 2 ^ 64 ≤ value
  · rw [if_pos hle]
    exact ⟨nofun, fun h => absurd h.1 (not_lt.mpr hle)⟩
  · rw [if_neg hle, toList_u64ToLeBytes, UInt64.toNat_ofNat', Nat.mod_eq_of_lt (not_le.mp hle),
      Except.ok.injEq, eq_comm, and_iff_right (not_le.mp hle)]

theorem usize_exact {maximum : ℕ} (hmaximum : maximum < 2 ^ 64) :
    (usize maximum).Exact (fun value => value ≤ maximum) where
  decode_encode := by
    intro value bytes hle hencode rest
    have hvalue : (UInt64.ofNat value).toNat = value := by
      rw [UInt64.toNat_ofNat', Nat.mod_eq_of_lt (hle.trans_lt hmaximum)]
    replace hencode : (if 2 ^ 64 ≤ value then _ else _) = _ := hencode
    rw [if_neg (not_le.mpr (hle.trans_lt hmaximum))] at hencode
    show (u64.decode (bytes ++ rest) >>= _) = _
    rw [u64_exact.decode_encode trivial hencode]
    show (if maximum < (UInt64.ofNat value).toNat then _ else _) = _
    rw [hvalue, if_neg (not_lt.mpr hle)]
    rfl
  encode_decode := by
    intro input value rest hdecode
    obtain ⟨⟨encoded, rest'⟩, hencoded, hread⟩ := Except.of_bind_eq_ok hdecode
    obtain ⟨_, bytes, hbytes, hinput⟩ := u64_exact.encode_decode hencoded
    by_cases hle : maximum < encoded.toNat
    · simp only [if_pos hle] at hread
      cases hread
    · simp only [if_neg hle] at hread
      cases hread
      refine ⟨not_lt.mp hle, bytes, ?_, hinput⟩
      show (if 2 ^ 64 ≤ encoded.toNat then _ else _) = _
      rw [if_neg (not_le.mpr encoded.toNat_lt), UInt64.ofNat_toNat]
      exact hbytes

/-- Bytes with their length in front, under a bound that only the reader checks. -/
def blob (maximum : ℕ) : Codec WireError Byte (List Byte) where
  encode bytes := do
    let length ← (usize maximum).encode bytes.length
    return length ++ bytes
  decode input := do
    let (length, rest) ← (usize maximum).decode input
    WireReader.raw length rest

theorem blob_exact {maximum : ℕ} (hmaximum : maximum < 2 ^ 64) :
    (blob maximum).Exact (fun bytes => bytes.length ≤ maximum) where
  decode_encode := by
    intro value bytes hle hencode rest
    obtain ⟨length, hlength, hencode⟩ := Except.of_bind_eq_ok hencode
    cases hencode
    show ((usize maximum).decode (length ++ value ++ rest) >>= _) = _
    rw [List.append_assoc, (usize_exact hmaximum).decode_encode hle hlength]
    show WireReader.raw value.length (value ++ rest) = _
    unfold WireReader.raw
    rw [if_neg (by rw [List.length_append]; omega), List.take_left, List.drop_left]
  encode_decode := by
    intro input value rest hdecode
    obtain ⟨⟨length, middle⟩, hlength, hraw⟩ := Except.of_bind_eq_ok hdecode
    obtain ⟨hle, front, hfront, rfl⟩ := (usize_exact hmaximum).encode_decode hlength
    replace hraw : WireReader.raw length middle = .ok (value, rest) := hraw
    unfold WireReader.raw at hraw
    split at hraw
    · cases hraw
    · rename_i hshort
      cases hraw
      have hvalue : (middle.take length).length = length := by
        rw [List.length_take]
        omega
      refine ⟨by rwa [hvalue], front ++ middle.take length, ?_, ?_⟩
      · show ((usize maximum).encode (middle.take length).length >>= _) = _
        rw [hvalue, hfront]
        rfl
      · rw [List.append_assoc, List.take_append_drop]

end Wire

end Zksm83
