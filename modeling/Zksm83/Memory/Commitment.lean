import Mathlib
import Zksm83.Library.Numerals

/-!
# Commitment roots

The 32-byte roots of the memory trees and of the ordered logs, and the hash of two byte strings
under a domain. The digest itself comes from a library, so it is a parameter; what is hashed, the
protocol name, the code of the domain and the two parts with their lengths, is not. After
`commitment.rs`, with the errors of `transcript.rs`, `bus_transcript.rs` and `isa_transcript.rs`.
-/

namespace Zksm83

/-- A byte of a witness. -/
abbrev Byte := Fin 256

/-- The bytes of a number, the lowest first. -/
def leBytes (width value : ℕ) : List Byte :=
  (List.range width).map (fun index => Fin.ofNat 256 (value / 256 ^ index))

@[simp] theorem length_leBytes (width value : ℕ) : (leBytes width value).length = width := by
  simp [leBytes]

structure CommitmentRoot where
  bytes : Vector Byte 32
  deriving DecidableEq, Repr

namespace CommitmentRoot

def zero : CommitmentRoot := ⟨.replicate 32 0⟩

def toBytes (root : CommitmentRoot) : List Byte := root.bytes.toList

@[simp] theorem length_toBytes (root : CommitmentRoot) : root.toBytes.length = 32 :=
  root.bytes.length_toList

theorem toBytes_injective : Function.Injective toBytes := by
  rintro ⟨first⟩ ⟨second⟩ heq
  exact congrArg CommitmentRoot.mk (Vector.toList_inj.mp heq)

end CommitmentRoot

inductive HashDomain where
  | romLeaf
  | memoryLeaf
  | romNode (level : ℕ)
  | memoryNode (level : ℕ)
  | inputEmpty
  | outputEmpty
  | inputElement
  | outputElement
  | busTranscriptEmpty
  | busTranscriptElement
  | isaTranscriptEmpty
  | isaTranscriptElement
  deriving DecidableEq, Repr

def HashDomain.code : HashDomain → ℕ
  | .romLeaf => 0x1000
  | .memoryLeaf => 0x2000
  | .romNode level => 0x3000 + level
  | .memoryNode level => 0x4000 + level
  | .inputEmpty => 0x5000
  | .outputEmpty => 0x6000
  | .inputElement => 0x7000
  | .outputElement => 0x8000
  | .busTranscriptEmpty => 0x9000
  | .busTranscriptElement => 0xa000
  | .isaTranscriptEmpty => 0xb000
  | .isaTranscriptElement => 0xc000

def asciiBytes (text : String) : List Byte :=
  text.toList.map (fun character => Fin.ofNat 256 character.toNat)

def hashProtocol : List Byte := asciiBytes "zksm83/witness-auth-sha256/v1"

/-- What is hashed of two byte strings under a domain. -/
def hashInput (domain : HashDomain) (left right : List Byte) : List Byte :=
  hashProtocol ++ leBytes 2 domain.code ++ leBytes 16 left.length ++ left ++
    leBytes 16 right.length ++ right

/-- The digest of two byte strings under a domain. -/
def hashParts (sha256 : List Byte → CommitmentRoot) (domain : HashDomain)
    (left right : List Byte) : CommitmentRoot :=
  sha256 (hashInput domain left right)

/-- Parts of the same lengths are determined by what is hashed of them. -/
theorem hashInput_injective {domain : HashDomain} {left right left' right' : List Byte}
    (hleft : left.length = left'.length) (hright : right.length = right'.length)
    (heq : hashInput domain left right = hashInput domain left' right') :
    left = left' ∧ right = right' := by
  unfold hashInput at heq
  obtain ⟨hfirst, hlast⟩ := List.append_inj' heq hright
  obtain ⟨hfirst, -⟩ := List.append_inj' hfirst (by simp)
  exact ⟨(List.append_inj' hfirst hleft).2, hlast⟩

inductive RomReadError where
  | addressNotRom (address : ℕ)
  | physicalAddressOutOfRange (address : ℕ)
  | rootMismatch (expected actual : CommitmentRoot)
  deriving DecidableEq, Repr

inductive MemoryTranscriptError where
  | addressNotMutable (address : ℕ)
  | physicalAddressOutOfRange (address : ℕ)
  | rootMismatch (expected actual : CommitmentRoot)
  deriving DecidableEq, Repr

inductive BusTranscriptError where
  | indexOverflow
  | nonCanonicalEvent
  deriving DecidableEq, Repr

inductive IsaTranscriptError where
  | indexOverflow
  | nonCanonicalRow
  deriving DecidableEq, Repr

end Zksm83
