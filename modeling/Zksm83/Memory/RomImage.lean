import Zksm83.Memory.ImageExact

/-!
# ROM images

The prover keeps a program padded with zeros to a power of two, at least to the CPU address space,
with all digests of its tree. Its witnesses verify against its root. After `image.rs`.
-/

namespace Zksm83

open AuthenticationTree MerkleTree

inductive RomImageError where
  | emptyProgram
  | programTooLarge (actual maximum : ℕ)
  | addressNotRom (address : ℕ)
  | physicalAddressOutOfRange (physicalAddress : ℕ)
  | commitmentInvariant
  deriving DecidableEq, Repr

structure RomImage where
  tree : MerkleTree
  deriving DecidableEq

/-- The smallest power of two that is not below a length. -/
def nextPowerOfTwo (length : ℕ) : ℕ := 2 ^ Nat.clog 2 length

namespace RomImage

variable (sha256 : List Byte → CommitmentRoot)

/-- A program with the zeros behind it. -/
def padded (program : List Byte) : List Byte :=
  program ++ List.replicate (max (nextPowerOfTwo program.length) cpuAddressSpaceBytes -
    program.length) 0

def new (program : List Byte) : Except RomImageError RomImage := do
  if program.isEmpty then throw .emptyProgram
  if romBytes < program.length then throw (.programTooLarge program.length romBytes)
  match MerkleTree.build sha256 .rom (padded program) with
  | .ok tree => return ⟨tree⟩
  | .error _ => throw .commitmentInvariant

def root (image : RomImage) : CommitmentRoot := image.tree.root

def bytes (image : RomImage) : List Byte := image.tree.bytes

def readMapped (image : RomImage) (address physicalAddress : ℕ) :
    Except RomImageError (RomRead MerklePath) := do
  if owner address ≠ .rom then throw (.addressNotRom address)
  match image.tree.read physicalAddress with
  | .ok (value, path) => return ⟨address, physicalAddress, value, path⟩
  | .error _ => throw (.physicalAddressOutOfRange physicalAddress)

/-- An image that holds exactly the tree of its bytes. -/
structure Exact (image : RomImage) (depth : ℕ) : Prop where
  depth_le : depth ≤ treeDepth
  length : image.bytes.length = 2 ^ depth
  tree : image.tree = MerkleTree.exact sha256 .rom depth image.bytes

theorem length_padded {program : List Byte} :
    (padded program).length = 2 ^ max (Nat.clog 2 program.length) minTreeDepth := by
  have hprogram : program.length ≤ nextPowerOfTwo program.length :=
    Nat.le_pow_clog (by decide) _
  have hmax : max (2 ^ Nat.clog 2 program.length) (2 ^ minTreeDepth) =
      2 ^ max (Nat.clog 2 program.length) minTreeDepth :=
    (pow_right_mono₀ (by decide : 1 ≤ 2)).map_max.symm
  rw [padded, List.length_append, List.length_replicate,
    Nat.add_sub_cancel' (hprogram.trans (le_max_left _ _))]
  exact hmax

variable {sha256} {image : RomImage}

/-- The image of a program. -/
def exactImage (sha256 : List Byte → CommitmentRoot) (program : List Byte) : RomImage :=
  ⟨MerkleTree.exact sha256 .rom (max (Nat.clog 2 program.length) minTreeDepth) (padded program)⟩

theorem new_eq {program : List Byte} (hempty : program ≠ []) (hlength : program.length ≤ romBytes) :
    new sha256 program = .ok (exactImage sha256 program) := by
  have hmax : max (Nat.clog 2 program.length) minTreeDepth ≤ treeDepth :=
    max_le (Nat.clog_le_of_le_pow hlength) (by decide)
  unfold new
  rw [if_neg (by rwa [List.isEmpty_iff]), if_neg (not_lt.mpr hlength)]
  dsimp only
  rw [build_eq_exact sha256 .rom length_padded (le_max_right _ _) hmax]
  rfl

/-- What the constructor makes of a program. -/
theorem new_eq_ok {program : List Byte} (hnew : new sha256 program = .ok image) :
    program ≠ [] ∧ program.length ≤ romBytes ∧ image = exactImage sha256 program := by
  by_cases hempty : program = []
  · subst hempty
    cases hnew
  by_cases hlength : program.length ≤ romBytes
  · rw [new_eq hempty hlength] at hnew
    exact ⟨hempty, hlength, (Except.ok.inj hnew).symm⟩
  · unfold new at hnew
    rw [if_neg (by rwa [List.isEmpty_iff]), if_pos (not_le.mp hlength)] at hnew
    cases hnew

theorem exact_exactImage {program : List Byte} (hlength : program.length ≤ romBytes) :
    Exact sha256 (exactImage sha256 program) (max (Nat.clog 2 program.length) minTreeDepth) :=
  ⟨max_le (Nat.clog_le_of_le_pow hlength) (by decide), length_padded, rfl⟩

/-- The honest path of a byte derives the root of its array. -/
theorem deriveRoot_pathOf (values : ℕ → Byte) {physicalAddress : ℕ}
    (hphysical : physicalAddress < 2 ^ treeDepth) :
    deriveRoot sha256 .romLeaf .romNode physicalAddress (values physicalAddress)
      (pathOf sha256 .rom values physicalAddress) = digest sha256 .rom values treeDepth 0 := by
  refine (deriveRoot_eq_climb sha256 .rom _ _ _).trans ?_
  rw [toList_pathOf]
  have hclimb := @climb_siblings _ _ (leaf sha256 .rom) (node sha256 .rom) values treeDepth 0
    physicalAddress
  rw [Nat.div_eq_of_lt hphysical, Nat.zero_add] at hclimb
  exact hclimb

/-- What a read yields. -/
theorem Exact.readMapped_eq_ok {depth : ℕ} (hexact : Exact sha256 image depth)
    {address physicalAddress : ℕ} {read : RomRead MerklePath}
    (hread : image.readMapped address physicalAddress = .ok read) :
    owner address = .rom ∧ physicalAddress < image.bytes.length ∧
      read = ⟨address, physicalAddress, arrayOf image.bytes physicalAddress,
        pathOf sha256 .rom (arrayOf image.bytes) physicalAddress⟩ := by
  unfold readMapped at hread
  by_cases howner : owner address = .rom
  · rw [if_neg (not_not_intro howner)] at hread
    by_cases hphysical : physicalAddress < image.bytes.length
    · refine ⟨howner, hphysical, ?_⟩
      have htree : image.tree.read physicalAddress = .ok (image.bytes[physicalAddress],
          pathOf sha256 .rom (arrayOf image.bytes) physicalAddress) := by
        rw [hexact.tree]
        exact read_exact sha256 .rom hexact.length hexact.depth_le hphysical
      rw [htree] at hread
      rw [arrayOf, List.getD_eq_getElem _ _ hphysical]
      exact (Except.ok.inj hread).symm
    · rw [read_eq_error (not_lt.mp hphysical)] at hread
      cases hread
  · rw [if_pos howner] at hread
    cases hread

/-- A read witness verifies against the root of the image. -/
theorem Exact.derive_readMapped {depth : ℕ} (hexact : Exact sha256 image depth)
    {address physicalAddress : ℕ} {read : RomRead MerklePath}
    (hread : image.readMapped address physicalAddress = .ok read) :
    read.derive sha256 image.root = .ok () := by
  obtain ⟨howner, hphysical, rfl⟩ := hexact.readMapped_eq_ok hread
  have hdepth : physicalAddress < 2 ^ treeDepth :=
    (hexact.length ▸ hphysical).trans_le (Nat.pow_le_pow_right (by decide) hexact.depth_le)
  have hroot : image.root = digest sha256 .rom (arrayOf image.bytes) treeDepth 0 := by
    rw [root, hexact.tree]
    rfl
  unfold RomRead.derive
  rw [if_neg (not_not_intro howner), validatePhysicalAddress, if_neg (not_le.mpr hdepth)]
  show (if deriveRoot sha256 .romLeaf .romNode physicalAddress _ _ ≠ image.root
    then _ else _) = _
  rw [deriveRoot_pathOf _ hdepth, hroot, if_neg (not_not_intro rfl)]
  rfl

end RomImage

end Zksm83
