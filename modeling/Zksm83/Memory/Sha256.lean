import Zksm83.Memory.Commitment

/-!
# SHA-256

The digest of FIPS 180-4, as the hash library computes it: the message is padded to blocks of 64
bytes, and each block is mixed into eight 32-bit words in 64 rounds.
-/

namespace Zksm83

namespace Sha256

def word (value : ℕ) : ℕ := value % 2 ^ 32

def rotateRight (count value : ℕ) : ℕ :=
  (value >>> count) ||| word (value <<< (32 - count))

/-- The round constants. -/
def roundConstants : List ℕ :=
  [0x428a2f98, 0x71374491, 0xb5c0fbcf, 0xe9b5dba5, 0x3956c25b, 0x59f111f1, 0x923f82a4, 0xab1c5ed5,
    0xd807aa98, 0x12835b01, 0x243185be, 0x550c7dc3, 0x72be5d74, 0x80deb1fe, 0x9bdc06a7, 0xc19bf174,
    0xe49b69c1, 0xefbe4786, 0x0fc19dc6, 0x240ca1cc, 0x2de92c6f, 0x4a7484aa, 0x5cb0a9dc, 0x76f988da,
    0x983e5152, 0xa831c66d, 0xb00327c8, 0xbf597fc7, 0xc6e00bf3, 0xd5a79147, 0x06ca6351, 0x14292967,
    0x27b70a85, 0x2e1b2138, 0x4d2c6dfc, 0x53380d13, 0x650a7354, 0x766a0abb, 0x81c2c92e, 0x92722c85,
    0xa2bfe8a1, 0xa81a664b, 0xc24b8b70, 0xc76c51a3, 0xd192e819, 0xd6990624, 0xf40e3585, 0x106aa070,
    0x19a4c116, 0x1e376c08, 0x2748774c, 0x34b0bcb5, 0x391c0cb3, 0x4ed8aa4a, 0x5b9cca4f, 0x682e6ff3,
    0x748f82ee, 0x78a5636f, 0x84c87814, 0x8cc70208, 0x90befffa, 0xa4506ceb, 0xbef9a3f7, 0xc67178f2]

structure State where
  a : ℕ
  b : ℕ
  c : ℕ
  d : ℕ
  e : ℕ
  f : ℕ
  g : ℕ
  h : ℕ

def initial : State :=
  ⟨0x6a09e667, 0xbb67ae85, 0x3c6ef372, 0xa54ff53a, 0x510e527f, 0x9b05688c, 0x1f83d9ab, 0x5be0cd19⟩

/-- The next word of the message schedule; the latest word stands first. -/
def nextWord (words : List ℕ) : ℕ :=
  let early := words.getD 14 0
  let late := words.getD 1 0
  let mixedEarly := rotateRight 7 early ^^^ rotateRight 18 early ^^^ (early >>> 3)
  let mixedLate := rotateRight 17 late ^^^ rotateRight 19 late ^^^ (late >>> 10)
  word (mixedLate + words.getD 6 0 + mixedEarly + words.getD 15 0)

def extendWords : ℕ → List ℕ → List ℕ
  | 0, words => words
  | count + 1, words => extendWords count (nextWord words :: words)

def round (state : State) (input : ℕ × ℕ) : State :=
  let mixed := rotateRight 6 state.e ^^^ rotateRight 11 state.e ^^^ rotateRight 25 state.e
  let choice := (state.e &&& state.f) ^^^ ((2 ^ 32 - 1 - state.e) &&& state.g)
  let first := state.h + mixed + choice + input.1 + input.2
  let mixed' := rotateRight 2 state.a ^^^ rotateRight 13 state.a ^^^ rotateRight 22 state.a
  let majority := (state.a &&& state.b) ^^^ (state.a &&& state.c) ^^^ (state.b &&& state.c)
  ⟨word (first + mixed' + majority), state.a, state.b, state.c, word (state.d + first), state.e,
    state.f, state.g⟩

def addState (state mixed : State) : State :=
  ⟨word (state.a + mixed.a), word (state.b + mixed.b), word (state.c + mixed.c),
    word (state.d + mixed.d), word (state.e + mixed.e), word (state.f + mixed.f),
    word (state.g + mixed.g), word (state.h + mixed.h)⟩

/-- A block as sixteen words, the highest byte of each first. -/
def blockWords : List Byte → List ℕ
  | first :: second :: third :: fourth :: rest =>
    (first.val * 2 ^ 24 + second.val * 2 ^ 16 + third.val * 2 ^ 8 + fourth.val) :: blockWords rest
  | _ => []

def compress (state : State) (block : List Byte) : State :=
  let words := (extendWords 48 (blockWords block).reverse).reverse
  addState state ((roundConstants.zip words).foldl round state)

/-- The message with its padding and its length in bits. -/
def padded (message : List Byte) : List Byte :=
  message ++ [0x80] ++ List.replicate ((119 - message.length % 64) % 64) 0 ++
    (leBytes 8 (message.length * 8)).reverse

def compressBlocks : ℕ → State → List Byte → State
  | 0, state, _ => state
  | count + 1, state, message =>
    compressBlocks count (compress state (message.take 64)) (message.drop 64)

def wordBytes (value : ℕ) : List Byte := (leBytes 4 value).reverse

def digestBytes (message : List Byte) : List Byte :=
  let text := padded message
  let state := compressBlocks (text.length / 64) initial text
  wordBytes state.a ++ wordBytes state.b ++ wordBytes state.c ++ wordBytes state.d ++
    wordBytes state.e ++ wordBytes state.f ++ wordBytes state.g ++ wordBytes state.h

theorem length_digestBytes (message : List Byte) : (digestBytes message).length = 32 := by
  simp [digestBytes, wordBytes]

end Sha256

/-- The SHA-256 digest of a message. -/
def sha256 (message : List Byte) : CommitmentRoot :=
  ⟨⟨(Sha256.digestBytes message).toArray, by
    rw [List.size_toArray, Sha256.length_digestBytes]⟩⟩

example : (Sha256.digestBytes (asciiBytes "abc")).map Fin.val =
    [0xba, 0x78, 0x16, 0xbf, 0x8f, 0x01, 0xcf, 0xea, 0x41, 0x41, 0x40, 0xde, 0x5d, 0xae, 0x22, 0x23,
      0xb0, 0x03, 0x61, 0xa3, 0x96, 0x17, 0x7a, 0x9c, 0xb4, 0x10, 0xff, 0x61, 0xf2, 0x00, 0x15,
      0xad] := by
  decide +kernel

end Zksm83
