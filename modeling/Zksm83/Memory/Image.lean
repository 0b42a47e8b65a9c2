import Zksm83.Memory.Transcript

/-!
# Memory images

The prover keeps the bytes of the mutable memory with all digests of their tree, level by level, up
to the depth of the stored bytes; above it the tree of the protocol goes on with zero subtrees. A
write recomputes the digests of one path in place. After `image.rs`.
-/

namespace Zksm83

open AuthenticationTree Rejecting

abbrev cpuAddressSpaceBytes : ℕ := 65536
abbrev romBytes : ℕ := 1048576
abbrev mutableBytes : ℕ := 32752
abbrev mutableCommitmentBytes : ℕ := 131072
abbrev batterySramStart : ℕ := 0x10000
abbrev batterySramBytes : ℕ := 32768
abbrev minTreeDepth : ℕ := 16
abbrev treeDepth : ℕ := 20

/-- A tree whose parts do not fit together. -/
structure TreeShapeError where
  deriving DecidableEq, Repr

def okOr {α : Type} : Option α → Except TreeShapeError α
  | some value => .ok value
  | none => .error {}

structure MerkleTree where
  kind : TreeKind
  bytes : List Byte
  levels : List (List CommitmentRoot)
  zeroRoots : List CommitmentRoot
  storedDepth : ℕ
  root : CommitmentRoot
  deriving DecidableEq

/-- What the construction has reached: the levels so far, and the zero subtrees. -/
structure TreeBuild where
  levels : List (List CommitmentRoot)
  zeroChild : CommitmentRoot
  zeroRoots : List CommitmentRoot

variable (sha256 : List Byte → CommitmentRoot)

namespace MerkleTree

/-- The parents of a level; two zero subtrees have the zero subtree above them. -/
def parents (kind : TreeKind) (level : ℕ) (zeroChild zeroParent : CommitmentRoot) :
    List CommitmentRoot → List CommitmentRoot
  | left :: right :: rest =>
    (if left = zeroChild ∧ right = zeroChild then zeroParent
      else node sha256 kind level left right) :: parents kind level zeroChild zeroParent rest
  | _ => []

def buildLevel (kind : TreeKind) (build : TreeBuild) (level : ℕ) :
    Except TreeShapeError TreeBuild := do
  let current ← okOr build.levels.getLast?
  let zeroParent := node sha256 kind level build.zeroChild build.zeroChild
  return {
    levels := build.levels ++ [parents sha256 kind level build.zeroChild zeroParent current]
    zeroChild := zeroParent
    zeroRoots := build.zeroRoots ++ [zeroParent] }

/-- A level above the stored bytes: the digest so far, and the zero subtrees. -/
def extendLevel (kind : TreeKind) (state : CommitmentRoot × CommitmentRoot × List CommitmentRoot)
    (level : ℕ) : CommitmentRoot × CommitmentRoot × List CommitmentRoot :=
  let (root, zeroChild, zeroRoots) := state
  let zeroParent := node sha256 kind level zeroChild zeroChild
  (node sha256 kind level root zeroChild, zeroParent, zeroRoots ++ [zeroParent])

def build (kind : TreeKind) (bytes : List Byte) : Except TreeShapeError MerkleTree := do
  if ¬ bytes.length.isPowerOfTwo ∨ bytes.length < cpuAddressSpaceBytes ∨
      romBytes < bytes.length then
    throw {}
  let storedDepth := bytes.length.log2
  if ¬ (minTreeDepth ≤ storedDepth ∧ storedDepth ≤ treeDepth) then throw {}
  let zeroLeaf := leaf sha256 kind 0
  let leaves := bytes.map (fun value => if value = 0 then zeroLeaf else leaf sha256 kind value)
  let built ← (List.range storedDepth).foldlM (buildLevel sha256 kind)
    ⟨[leaves], zeroLeaf, [zeroLeaf]⟩
  let top ← okOr (built.levels.getLast?.bind List.head?)
  let (root, _, zeroRoots) := (List.range' storedDepth (treeDepth - storedDepth)).foldl
    (extendLevel sha256 kind) (top, built.zeroChild, built.zeroRoots)
  return ⟨kind, bytes, built.levels, zeroRoots, storedDepth, root⟩

/-- The siblings of a position in some levels. -/
def levelSiblings : List (List CommitmentRoot) → ℕ → Except TreeShapeError (List CommitmentRoot)
  | [], _ => .ok []
  | level :: levels, position => do
    let sibling ← okOr level[position ^^^ 1]?
    return sibling :: (← levelSiblings levels (position >>> 1))

def merklePath (siblings : List CommitmentRoot) : Except TreeShapeError MerklePath :=
  if h : siblings.length = 20 then .ok ⟨siblings.toArray, by rw [List.size_toArray, h]⟩
  else .error {}

def read (tree : MerkleTree) (address : ℕ) : Except TreeShapeError (Byte × MerklePath) := do
  let value ← okOr tree.bytes[address]?
  let stored ← levelSiblings (tree.levels.take tree.storedDepth) address
  let zeros ← (List.range' tree.storedDepth (treeDepth - tree.storedDepth)).mapM
    (fun level => okOr tree.zeroRoots[level]?)
  let path ← merklePath (stored ++ zeros)
  return (value, path)

/-- The parent of a position, from the digests of its level. -/
def parent (tree : MerkleTree) (levelNumber levelIndex position : ℕ) :
    Except TreeShapeError CommitmentRoot := do
  let level ← okOr tree.levels[levelIndex]?
  let evenPosition := position - position % 2
  let left ← okOr level[evenPosition]?
  let right ← okOr level[evenPosition + 1]?
  return node sha256 tree.kind levelNumber left right

/-- A digest put into a level. -/
def setDigest (levelIndex position : ℕ) (digest : CommitmentRoot) :
    Action TreeShapeError MerkleTree Unit := do
  let level ← ofExcept (okOr (← get).levels[levelIndex]?)
  if level.length ≤ position then throw {}
  modify (fun tree => { tree with levels := tree.levels.set levelIndex (level.set position digest) })

/-- The digests above a position, recomputed for a number of levels. -/
def writeLevels : ℕ → ℕ → ℕ → Action TreeShapeError MerkleTree Unit
  | 0, _, _ => pure ()
  | count + 1, level, position => do
    let digest ← ofExcept ((← get).parent sha256 level level position)
    setDigest (level + 1) (position >>> 1) digest
    writeLevels count (level + 1) (position >>> 1)

/-- The digest above the stored levels. -/
def extendRoot (tree : MerkleTree) : List ℕ → CommitmentRoot → Except TreeShapeError CommitmentRoot
  | [], root => .ok root
  | level :: levels, root => do
    let zero ← okOr tree.zeroRoots[level]?
    extendRoot tree levels (node sha256 tree.kind level root zero)

def write (address : ℕ) (value : Byte) : Action TreeShapeError MerkleTree Unit := do
  if (← get).bytes.length ≤ address then throw {}
  modify (fun tree => { tree with bytes := tree.bytes.set address value })
  setDigest 0 address (leaf sha256 (← get).kind value)
  writeLevels sha256 (← get).storedDepth 0 address
  let tree ← get
  let top ← ofExcept (okOr (tree.levels.getLast?.bind List.head?))
  let root ← ofExcept (tree.extendRoot sha256
    (List.range' tree.storedDepth (treeDepth - tree.storedDepth)) top)
  modify (fun tree => { tree with root := root })

end MerkleTree

inductive MemoryImageError where
  | initialMemoryTooLarge (actual maximum : ℕ)
  | invalidCheckpointLength (actual expected : ℕ)
  | invalidBatterySramLength (actual expected : ℕ)
  | addressNotMutable (address : ℕ)
  | physicalAddressOutOfRange (physicalAddress : ℕ)
  | commitmentInvariant
  deriving DecidableEq, Repr

structure MemoryImage where
  tree : MerkleTree
  deriving DecidableEq

def validateMutableAddress (address : ℕ) : Except MemoryImageError Unit :=
  if owner address ≠ .memory ∧ dmgOwner address ≠ .memory then .error (.addressNotMutable address)
  else .ok ()

namespace MemoryImage

/-- The image of a byte array of the full size. -/
def ofBytes (bytes : List Byte) : Except MemoryImageError MemoryImage :=
  match MerkleTree.build sha256 .memory bytes with
  | .ok tree => .ok ⟨tree⟩
  | .error _ => .error .commitmentInvariant

/-- Memory with bytes from address `0x8000` on. -/
def new (initialBytes : List Byte) : Except MemoryImageError MemoryImage := do
  if mutableBytes < initialBytes.length then
    throw (.initialMemoryTooLarge initialBytes.length mutableBytes)
  ofBytes sha256 (List.replicate 0x8000 0 ++ initialBytes ++
    List.replicate (mutableCommitmentBytes - 0x8000 - initialBytes.length) 0)

def zeroed : Except MemoryImageError MemoryImage := new sha256 []

def fromCheckpointBytes (bytes : List Byte) : Except MemoryImageError MemoryImage := do
  if bytes.length ≠ mutableCommitmentBytes then
    throw (.invalidCheckpointLength bytes.length mutableCommitmentBytes)
  ofBytes sha256 bytes

def withBatterySram (sram : List Byte) : Except MemoryImageError MemoryImage := do
  if sram.length ≠ batterySramBytes then
    throw (.invalidBatterySramLength sram.length batterySramBytes)
  ofBytes sha256 (List.replicate batterySramStart 0 ++ sram ++
    List.replicate (mutableCommitmentBytes - batterySramStart - batterySramBytes) 0)

def root (image : MemoryImage) : CommitmentRoot := image.tree.root

def checkpointBytes (image : MemoryImage) : List Byte := image.tree.bytes

def readMapped (image : MemoryImage) (address physicalAddress : ℕ) :
    Except MemoryImageError (MemoryRead MerklePath) := do
  validateMutableAddress address
  match image.tree.read physicalAddress with
  | .ok (value, path) => return ⟨address, physicalAddress, value, path⟩
  | .error _ => throw (.physicalAddressOutOfRange physicalAddress)

def previewWriteMapped (image : MemoryImage) (address physicalAddress : ℕ) (after : Byte) :
    Except MemoryImageError (MemoryWrite MerklePath) := do
  validateMutableAddress address
  match image.tree.read physicalAddress with
  | .ok (before, path) => return ⟨address, physicalAddress, before, after, path⟩
  | .error _ => throw (.physicalAddressOutOfRange physicalAddress)

def writeMapped (address physicalAddress : ℕ) (after : Byte) :
    Action MemoryImageError MemoryImage (MemoryWrite MerklePath) := fun image =>
  match image.previewWriteMapped address physicalAddress after with
  | .error error => (.error error, image)
  | .ok witness =>
    match outcome (MerkleTree.write sha256 physicalAddress after) image.tree with
    | (.ok (), tree) => (.ok witness, ⟨tree⟩)
    | (.error _, tree) => (.error (.physicalAddressOutOfRange physicalAddress), ⟨tree⟩)

end MemoryImage

end Zksm83
