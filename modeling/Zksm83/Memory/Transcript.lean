import Zksm83.Core.Bus
import Zksm83.Library.AuthenticationTree

/-!
# Authenticated reads and writes

A witness is a byte with the twenty siblings of its leaf. It is authentic under a root if climbing
from the leaf along the siblings derives the root, and a write then leaves the root derived from its
new byte. Here the derivation is run each time; `VerificationCache.lean` adds the caches. After
`transcript.rs`.
-/

namespace Zksm83

open AuthenticationTree

/-- The siblings from the leaf level to the root level. -/
abbrev MerklePath := Vector CommitmentRoot 20

namespace MerklePath

/-- The placeholder of lookup-backed execution; it authenticates nothing. -/
def lookupPlaceholder : MerklePath := .replicate 20 .zero

end MerklePath

inductive TreeKind where
  | rom | memory
  deriving DecidableEq, Repr

namespace TreeKind

def leafDomain : TreeKind → HashDomain
  | .rom => .romLeaf
  | .memory => .memoryLeaf

def nodeDomain : TreeKind → ℕ → HashDomain
  | .rom => .romNode
  | .memory => .memoryNode

end TreeKind

variable (sha256 : List Byte → CommitmentRoot)

def leaf (kind : TreeKind) (value : Byte) : CommitmentRoot :=
  hashParts sha256 kind.leafDomain [value] []

def node (kind : TreeKind) (level : ℕ) (left right : CommitmentRoot) : CommitmentRoot :=
  hashParts sha256 (kind.nodeDomain level) left.toBytes right.toBytes

/-- One level of the derivation: the digest of the parent, and the address bits above. -/
def deriveLevel (nodeDomain : ℕ → HashDomain) (state : CommitmentRoot × ℕ)
    (sibling : ℕ × CommitmentRoot) : CommitmentRoot × ℕ :=
  let (left, right) :=
    if state.2 &&& 1 = 0 then (state.1, sibling.2) else (sibling.2, state.1)
  (hashParts sha256 (nodeDomain sibling.1) left.toBytes right.toBytes, state.2 >>> 1)

/-- The root of a byte and its path. -/
def deriveRoot (leafDomain : HashDomain) (nodeDomain : ℕ → HashDomain) (address : ℕ) (value : Byte)
    (path : MerklePath) : CommitmentRoot :=
  (((List.range 20).zip path.toList).foldl (deriveLevel sha256 nodeDomain)
    (hashParts sha256 leafDomain [value] [], address)).1

def mutableRoot (address : ℕ) (value : Byte) (path : MerklePath) : CommitmentRoot :=
  deriveRoot sha256 .memoryLeaf .memoryNode address value path

/-- Climbing level by level. -/
theorem foldl_deriveLevel (kind : TreeKind) (level address : ℕ) (current : CommitmentRoot)
    (path : List CommitmentRoot) :
    (((List.range' level path.length).zip path).foldl (deriveLevel sha256 kind.nodeDomain)
      (current, address)).1 = climb (node sha256 kind) level address current path := by
  induction path generalizing level address current with
  | nil => rfl
  | cons sibling path ih =>
    have hlevel : deriveLevel sha256 kind.nodeDomain (current, address) (level, sibling) =
        (node sha256 kind level (ordered address current sibling).1
          (ordered address current sibling).2, address / 2) := by
      unfold deriveLevel ordered node
      rw [Nat.and_one_is_mod, Nat.shiftRight_one]
    rw [List.length_cons, List.range'_succ, List.zip_cons_cons, List.foldl_cons, hlevel, ih, climb]

/-- The derivation climbs the tree of its kind. -/
theorem deriveRoot_eq_climb (kind : TreeKind) (address : ℕ) (value : Byte) (path : MerklePath) :
    deriveRoot sha256 kind.leafDomain kind.nodeDomain address value path =
      climb (node sha256 kind) 0 address (leaf sha256 kind value) path.toList := by
  have hfold := foldl_deriveLevel sha256 kind 0 address (leaf sha256 kind value) path.toList
  rw [Vector.length_toList, ← List.range_eq_range'] at hfold
  exact hfold

theorem mutableRoot_eq_climb (address : ℕ) (value : Byte) (path : MerklePath) :
    mutableRoot sha256 address value path =
      climb (node sha256 .memory) 0 address (leaf sha256 .memory value) path.toList :=
  deriveRoot_eq_climb sha256 .memory address value path

def validatePhysicalAddress (address : ℕ) : Except RomReadError Unit :=
  if 2 ^ 20 ≤ address then .error (.physicalAddressOutOfRange address) else .ok ()

def validatePhysicalMemoryAddress (address : ℕ) : Except MemoryTranscriptError Unit :=
  if 2 ^ 20 ≤ address then .error (.physicalAddressOutOfRange address) else .ok ()

def validateMemoryAddress (address : ℕ) : Except MemoryTranscriptError Unit :=
  if owner address ≠ .memory ∧ dmgOwner address ≠ .memory then .error (.addressNotMutable address)
  else .ok ()

def requireRoot (expected actual : CommitmentRoot) : Except MemoryTranscriptError Unit :=
  if actual ≠ expected then .error (.rootMismatch expected actual) else .ok ()

/-- Authentication of a ROM byte by its path. -/
def RomRead.derive (read : RomRead MerklePath) (expectedRoot : CommitmentRoot) :
    Except RomReadError Unit := do
  if owner read.address ≠ .rom then throw (.addressNotRom read.address)
  validatePhysicalAddress read.physicalAddress
  let actual := deriveRoot sha256 .romLeaf .romNode read.physicalAddress read.value read.path
  if actual ≠ expectedRoot then throw (.rootMismatch expectedRoot actual)

/-- Authentication of a memory byte by its path. -/
def MemoryRead.derive (read : MemoryRead MerklePath) (expectedRoot : CommitmentRoot) :
    Except MemoryTranscriptError Unit := do
  validateMemoryAddress read.address
  validatePhysicalMemoryAddress read.physicalAddress
  requireRoot expectedRoot (mutableRoot sha256 read.physicalAddress read.value read.path)

/-- Authentication of an update by its path, and the root that it leaves. -/
def MemoryWrite.derive (write : MemoryWrite MerklePath) (expectedRoot : CommitmentRoot) :
    Except MemoryTranscriptError CommitmentRoot := do
  validateMemoryAddress write.address
  validatePhysicalMemoryAddress write.physicalAddress
  requireRoot expectedRoot (mutableRoot sha256 write.physicalAddress write.before write.path)
  return mutableRoot sha256 write.physicalAddress write.after write.path

end Zksm83
