import Zksm83.Memory.TreeExact

/-!
# Memory images after writes

An image holds the tree of its bytes after any sequence of writes, also of repeated addresses and of
addresses out of range, so its witnesses verify against its current root. Read `image_eq_rebuild`
first.
-/

namespace Zksm83

open AuthenticationTree Rejecting MerkleTree

abbrev memoryDepth : ℕ := 17

namespace MemoryImage

variable (sha256 : List Byte → CommitmentRoot)

/-- An image made by one of the constructors. -/
inductive Built : MemoryImage → Prop
  | new {initialBytes : List Byte} {image : MemoryImage} :
      MemoryImage.new sha256 initialBytes = .ok image → Built image
  | fromCheckpointBytes {bytes : List Byte} {image : MemoryImage} :
      MemoryImage.fromCheckpointBytes sha256 bytes = .ok image → Built image
  | withBatterySram {sram : List Byte} {image : MemoryImage} :
      MemoryImage.withBatterySram sha256 sram = .ok image → Built image

/-- The image of some bytes. -/
def exactImage (bytes : List Byte) : MemoryImage := ⟨exact sha256 .memory memoryDepth bytes⟩

/-- An image of the full size that holds exactly the tree of its bytes. -/
structure Exact (image : MemoryImage) : Prop where
  length : image.checkpointBytes.length = 2 ^ memoryDepth
  tree : image = exactImage sha256 image.checkpointBytes

theorem exact_exactImage {bytes : List Byte} (hlength : bytes.length = 2 ^ memoryDepth) :
    (exactImage sha256 bytes).Exact sha256 := ⟨hlength, rfl⟩

theorem ofBytes_eq {bytes : List Byte} (hlength : bytes.length = 2 ^ memoryDepth) :
    ofBytes sha256 bytes = .ok (exactImage sha256 bytes) := by
  rw [ofBytes, build_eq_exact sha256 .memory hlength (by decide) (by decide)]
  rfl

theorem fromCheckpointBytes_eq {bytes : List Byte} (hlength : bytes.length = 2 ^ memoryDepth) :
    MemoryImage.fromCheckpointBytes sha256 bytes = .ok (exactImage sha256 bytes) := by
  unfold MemoryImage.fromCheckpointBytes
  rw [if_neg (not_not_intro (show bytes.length = mutableCommitmentBytes from hlength))]
  exact ofBytes_eq sha256 hlength

theorem Built.exact {image : MemoryImage} (hbuilt : Built sha256 image) : image.Exact sha256 := by
  have hof : ∀ bytes, bytes.length = 2 ^ memoryDepth → ofBytes sha256 bytes = .ok image →
      image.Exact sha256 := by
    intro bytes hlength himage
    rw [ofBytes_eq sha256 hlength, Except.ok.injEq] at himage
    exact himage ▸ exact_exactImage sha256 hlength
  cases hbuilt with
  | @new initialBytes _ himage =>
    unfold MemoryImage.new at himage
    by_cases hlarge : mutableBytes < initialBytes.length
    · rw [if_pos hlarge] at himage
      cases himage
    · rw [if_neg hlarge] at himage
      refine hof _ ?_ himage
      simp only [List.length_append, List.length_replicate]
      change _ = 131072
      change ¬ 32752 < _ at hlarge
      change 32768 + _ + (131072 - 32768 - _) = 131072
      omega
  | @fromCheckpointBytes bytes _ himage =>
    unfold MemoryImage.fromCheckpointBytes at himage
    by_cases hlength : bytes.length = mutableCommitmentBytes
    · rw [if_neg (not_not_intro hlength)] at himage
      exact hof _ hlength himage
    · rw [if_pos hlength] at himage
      cases himage
  | @withBatterySram sram _ himage =>
    unfold MemoryImage.withBatterySram at himage
    by_cases hlength : sram.length = batterySramBytes
    · rw [if_neg (not_not_intro hlength)] at himage
      refine hof _ ?_ himage
      simp only [List.length_append, List.length_replicate, hlength]
      rfl
    · rw [if_pos hlength] at himage
      cases himage

variable {sha256} {image : MemoryImage}

theorem Exact.root_eq (hexact : image.Exact sha256) :
    image.root = digest sha256 .memory (arrayOf image.checkpointBytes) treeDepth 0 := by
  rw [hexact.tree]
  rfl

/-- The tree of an exact image is the one that is built of its bytes. -/
theorem Exact.build_eq (hexact : image.Exact sha256) :
    MerkleTree.build sha256 .memory image.checkpointBytes = .ok image.tree := by
  rw [build_eq_exact sha256 .memory hexact.length (by decide) (by decide)]
  exact congrArg Except.ok (congrArg MemoryImage.tree hexact.tree).symm

theorem Exact.read_eq (hexact : image.Exact sha256) {physicalAddress : ℕ}
    (hphysical : physicalAddress < image.checkpointBytes.length) :
    image.tree.read physicalAddress = .ok (arrayOf image.checkpointBytes physicalAddress,
      pathOf sha256 .memory (arrayOf image.checkpointBytes) physicalAddress) := by
  have hread := read_exact sha256 .memory hexact.length (by decide) hphysical
  have hvalue : arrayOf image.checkpointBytes physicalAddress =
      image.checkpointBytes[physicalAddress] := by
    rw [arrayOf, List.getD_eq_getElem _ _ hphysical]
  rw [hvalue, ← hread]
  exact congrArg (fun tree => tree.read physicalAddress) (congrArg MemoryImage.tree hexact.tree)

/-- The honest path of a byte derives the root of its array. -/
theorem mutableRoot_pathOf (values : ℕ → Byte) {physicalAddress : ℕ}
    (hphysical : physicalAddress < 2 ^ treeDepth) :
    mutableRoot sha256 physicalAddress (values physicalAddress)
      (pathOf sha256 .memory values physicalAddress) =
        digest sha256 .memory values treeDepth 0 := by
  rw [mutableRoot_eq_climb, toList_pathOf]
  have hclimb := @climb_siblings _ _ (leaf sha256 .memory) (node sha256 .memory) values treeDepth 0
    physicalAddress
  rw [Nat.div_eq_of_lt hphysical, Nat.zero_add] at hclimb
  exact hclimb

/-- From a new byte the honest path derives the root of the updated array. -/
theorem mutableRoot_pathOf_update (values : ℕ → Byte) {physicalAddress : ℕ} (after : Byte)
    (hphysical : physicalAddress < 2 ^ treeDepth) :
    mutableRoot sha256 physicalAddress after (pathOf sha256 .memory values physicalAddress) =
      digest sha256 .memory (Function.update values physicalAddress after) treeDepth 0 := by
  rw [mutableRoot_eq_climb, toList_pathOf]
  have hclimb := @climb_update _ _ (leaf sha256 .memory) (node sha256 .memory) values
    physicalAddress after treeDepth
  rw [Nat.div_eq_of_lt hphysical] at hclimb
  exact hclimb

theorem validateMemoryAddress_of_mutable {address : ℕ}
    (hmutable : validateMutableAddress address = .ok ()) :
    validateMemoryAddress address = .ok () := by
  unfold validateMutableAddress at hmutable
  unfold validateMemoryAddress
  split at hmutable
  · cases hmutable
  · rename_i howner
    rw [if_neg howner]

theorem validatePhysicalMemoryAddress_of_lt {physicalAddress : ℕ}
    (hphysical : physicalAddress < 2 ^ treeDepth) :
    validatePhysicalMemoryAddress physicalAddress = .ok () := by
  rw [validatePhysicalMemoryAddress, if_neg (not_le.mpr hphysical)]

theorem Exact.lt_of_lt (hexact : image.Exact sha256) {physicalAddress : ℕ}
    (hphysical : physicalAddress < image.checkpointBytes.length) :
    physicalAddress < 2 ^ treeDepth :=
  (hexact.length ▸ hphysical).trans (by decide)

/-- What a preview yields. -/
theorem Exact.previewWriteMapped_eq (hexact : image.Exact sha256) (address physicalAddress : ℕ)
    (after : Byte) :
    image.previewWriteMapped address physicalAddress after =
      (do
        validateMutableAddress address
        if physicalAddress < image.checkpointBytes.length then
          return ⟨address, physicalAddress, arrayOf image.checkpointBytes physicalAddress, after,
            pathOf sha256 .memory (arrayOf image.checkpointBytes) physicalAddress⟩
        throw (.physicalAddressOutOfRange physicalAddress)) := by
  unfold previewWriteMapped
  congr 1
  funext _
  by_cases hphysical : physicalAddress < image.checkpointBytes.length
  · rw [hexact.read_eq hphysical, if_pos hphysical]
  · rw [read_eq_error (not_lt.mp hphysical), if_neg hphysical]

/-- What a read yields. -/
theorem Exact.readMapped_eq_ok (hexact : image.Exact sha256) {address physicalAddress : ℕ}
    {read : MemoryRead MerklePath}
    (hread : image.readMapped address physicalAddress = .ok read) :
    validateMutableAddress address = .ok () ∧ physicalAddress < image.checkpointBytes.length ∧
      read = ⟨address, physicalAddress, arrayOf image.checkpointBytes physicalAddress,
        pathOf sha256 .memory (arrayOf image.checkpointBytes) physicalAddress⟩ := by
  unfold readMapped at hread
  cases hmutable : validateMutableAddress address with
  | error error =>
    rw [hmutable] at hread
    cases hread
  | ok _ =>
    rw [hmutable] at hread
    by_cases hphysical : physicalAddress < image.checkpointBytes.length
    · refine ⟨rfl, hphysical, ?_⟩
      rw [hexact.read_eq hphysical] at hread
      exact (Except.ok.inj hread).symm
    · rw [read_eq_error (not_lt.mp hphysical)] at hread
      cases hread

/-- The honest path of a byte authenticates a read of it. -/
theorem derive_pathOf (values : ℕ → Byte) {address physicalAddress : ℕ}
    (hmutable : validateMutableAddress address = .ok ())
    (hphysical : physicalAddress < 2 ^ treeDepth) :
    MemoryRead.derive sha256 ⟨address, physicalAddress, values physicalAddress,
        pathOf sha256 .memory values physicalAddress⟩ (digest sha256 .memory values treeDepth 0) =
      .ok () := by
  unfold MemoryRead.derive
  rw [validateMemoryAddress_of_mutable hmutable, validatePhysicalMemoryAddress_of_lt hphysical]
  show requireRoot _ _ = _
  rw [mutableRoot_pathOf _ hphysical, requireRoot, if_neg (not_not_intro rfl)]

/-- A read witness verifies against the root of the image. -/
theorem Exact.derive_readMapped (hexact : image.Exact sha256) {address physicalAddress : ℕ}
    {read : MemoryRead MerklePath}
    (hread : image.readMapped address physicalAddress = .ok read) :
    read.derive sha256 image.root = .ok () := by
  obtain ⟨hmutable, hphysical, rfl⟩ := hexact.readMapped_eq_ok hread
  rw [hexact.root_eq]
  exact derive_pathOf _ hmutable (hexact.lt_of_lt hphysical)

/-- What a write yields and leaves. -/
theorem Exact.outcome_writeMapped (hexact : image.Exact sha256) (address physicalAddress : ℕ)
    (after : Byte) :
    outcome (writeMapped sha256 address physicalAddress after) image =
      match validateMutableAddress address with
      | .error error => (.error error, image)
      | .ok _ =>
        if physicalAddress < image.checkpointBytes.length then
          (.ok ⟨address, physicalAddress, arrayOf image.checkpointBytes physicalAddress, after,
              pathOf sha256 .memory (arrayOf image.checkpointBytes) physicalAddress⟩,
            exactImage sha256 (image.checkpointBytes.set physicalAddress after))
        else (.error (.physicalAddressOutOfRange physicalAddress), image) := by
  unfold writeMapped outcome
  simp only [hexact.previewWriteMapped_eq]
  cases validateMutableAddress address with
  | error error => rfl
  | ok _ =>
    by_cases hphysical : physicalAddress < image.checkpointBytes.length
    · have hwrite := write_exact sha256 .memory after hexact.length (by decide) hphysical
      have htree : exact sha256 .memory memoryDepth image.checkpointBytes = image.tree :=
        (congrArg MemoryImage.tree hexact.tree).symm
      rw [htree] at hwrite
      simp only [if_pos hphysical]
      have houtcome : write sha256 physicalAddress after image.tree = _ := hwrite
      simp only [houtcome]
      rfl
    · simp only [if_neg hphysical]
      rfl

/-- A successful write enters its byte, and its witness leads from the old root to the new one. -/
theorem Exact.writeMapped_ok (hexact : image.Exact sha256) {address physicalAddress : ℕ}
    {after : Byte} {write : MemoryWrite MerklePath} {next : MemoryImage}
    (hwrite : Accepts (writeMapped sha256 address physicalAddress after) image write next) :
    physicalAddress < image.checkpointBytes.length ∧
      next = exactImage sha256 (image.checkpointBytes.set physicalAddress after) ∧
      write.derive sha256 image.root = .ok next.root := by
  rw [Accepts, hexact.outcome_writeMapped] at hwrite
  cases hmutable : validateMutableAddress address with
  | error error =>
    rw [hmutable] at hwrite
    cases hwrite
  | ok _ =>
    rw [hmutable] at hwrite
    by_cases hphysical : physicalAddress < image.checkpointBytes.length
    · simp only [if_pos hphysical, Prod.mk.injEq, Except.ok.injEq] at hwrite
      obtain ⟨rfl, rfl⟩ := hwrite
      refine ⟨hphysical, rfl, ?_⟩
      unfold MemoryWrite.derive
      rw [validateMemoryAddress_of_mutable hmutable,
        validatePhysicalMemoryAddress_of_lt (hexact.lt_of_lt hphysical)]
      show (requireRoot _ (mutableRoot _ _ _ _) >>= _) = _
      rw [mutableRoot_pathOf _ (hexact.lt_of_lt hphysical), ← hexact.root_eq, requireRoot,
        if_neg (not_not_intro rfl)]
      show Except.ok (mutableRoot _ _ _ _) = _
      rw [mutableRoot_pathOf_update _ _ (hexact.lt_of_lt hphysical),
        ← arrayOf_set hphysical]
      rfl
    · simp only [if_neg hphysical] at hwrite
      cases hwrite

/-- The witness of a successful write. -/
theorem Exact.writeMapped_eq (hexact : image.Exact sha256) {address physicalAddress : ℕ}
    {after : Byte} {write : MemoryWrite MerklePath} {next : MemoryImage}
    (hwrite : Accepts (writeMapped sha256 address physicalAddress after) image write next) :
    write = ⟨address, physicalAddress, arrayOf image.checkpointBytes physicalAddress, after,
      pathOf sha256 .memory (arrayOf image.checkpointBytes) physicalAddress⟩ := by
  rw [Accepts, hexact.outcome_writeMapped] at hwrite
  cases hmutable : validateMutableAddress address with
  | error error =>
    rw [hmutable] at hwrite
    cases hwrite
  | ok _ =>
    rw [hmutable] at hwrite
    by_cases hphysical : physicalAddress < image.checkpointBytes.length
    · simp only [if_pos hphysical, Prod.mk.injEq, Except.ok.injEq] at hwrite
      exact hwrite.1.symm
    · simp only [if_neg hphysical] at hwrite
      cases hwrite

/-- A failing write leaves the image as it was. -/
theorem Exact.writeMapped_error (hexact : image.Exact sha256) {address physicalAddress : ℕ}
    {after : Byte} {error : MemoryImageError} {next : MemoryImage}
    (hwrite : outcome (writeMapped sha256 address physicalAddress after) image =
      (.error error, next)) : next = image := by
  rw [hexact.outcome_writeMapped] at hwrite
  cases hmutable : validateMutableAddress address with
  | error error =>
    rw [hmutable] at hwrite
    exact (Prod.mk.inj hwrite).2.symm
  | ok _ =>
    rw [hmutable] at hwrite
    by_cases hphysical : physicalAddress < image.checkpointBytes.length
    · simp only [if_pos hphysical] at hwrite
      cases hwrite
    · simp only [if_neg hphysical, Prod.mk.injEq] at hwrite
      exact hwrite.2.symm

/-- Whatever a write ends with, the image stays exact. -/
theorem Exact.writeMapped (hexact : image.Exact sha256) (address physicalAddress : ℕ)
    (after : Byte) :
    (outcome (MemoryImage.writeMapped sha256 address physicalAddress after) image).2.Exact
      sha256 := by
  cases houtcome : outcome (MemoryImage.writeMapped sha256 address physicalAddress after) image with
  | mk result next =>
    cases result with
    | error error =>
      rw [hexact.writeMapped_error houtcome]
      exact hexact
    | ok write =>
      obtain ⟨_, rfl, _⟩ := hexact.writeMapped_ok houtcome
      exact exact_exactImage sha256 (by rw [List.length_set]; exact hexact.length)

variable (sha256) in
/-- An image that the constructors and any writes lead to. -/
inductive Reachable : MemoryImage → Prop
  | built {image : MemoryImage} : Built sha256 image → Reachable image
  | write {image : MemoryImage} (address physicalAddress : ℕ) (after : Byte) :
      Reachable image →
      Reachable (outcome (MemoryImage.writeMapped sha256 address physicalAddress after) image).2

theorem Reachable.exact (hreachable : Reachable sha256 image) : image.Exact sha256 := by
  induction hreachable with
  | built hbuilt => exact hbuilt.exact
  | write address physicalAddress after _ ih => exact ih.writeMapped address physicalAddress after

end MemoryImage

/-- A call of `writeMapped`. -/
structure WriteRequest where
  address : ℕ
  physicalAddress : ℕ
  after : Byte

section Runs

variable (sha256 : List Byte → CommitmentRoot)

/-- The image after a sequence of writes, some of which may fail. -/
def runWrites (image : MemoryImage) (requests : List WriteRequest) : MemoryImage :=
  requests.foldl (fun image request => (outcome (MemoryImage.writeMapped sha256 request.address
    request.physicalAddress request.after) image).2) image

variable {sha256}

theorem runWrites_exact {image : MemoryImage} (hexact : image.Exact sha256)
    (requests : List WriteRequest) : (runWrites sha256 image requests).Exact sha256 := by
  induction requests generalizing image with
  | nil => exact hexact
  | cons request requests ih => exact ih (hexact.writeMapped _ _ _)

variable (sha256)

/-- The maintained image is the rebuilt one: after any writes the tree is the one that is built of
the current bytes, read witnesses verify against its root, write witnesses lead from its root to the
next one and enter their byte, and a failing call changes nothing. -/
theorem image_eq_rebuild {initial : MemoryImage} (hinitial : MemoryImage.Built sha256 initial)
    (requests : List WriteRequest) :
    MerkleTree.build sha256 .memory (runWrites sha256 initial requests).checkpointBytes =
        .ok (runWrites sha256 initial requests).tree ∧
      (∀ address physicalAddress read,
        (runWrites sha256 initial requests).readMapped address physicalAddress = .ok read →
        read.derive sha256 (runWrites sha256 initial requests).root = .ok ()) ∧
      (∀ address physicalAddress after write next,
        outcome (MemoryImage.writeMapped sha256 address physicalAddress after)
          (runWrites sha256 initial requests) = (.ok write, next) →
        write.derive sha256 (runWrites sha256 initial requests).root = .ok next.root ∧
          next.checkpointBytes =
            (runWrites sha256 initial requests).checkpointBytes.set physicalAddress after) ∧
      ∀ address physicalAddress after error next,
        outcome (MemoryImage.writeMapped sha256 address physicalAddress after)
          (runWrites sha256 initial requests) = (.error error, next) →
        next = runWrites sha256 initial requests := by
  have hexact := runWrites_exact (hinitial.exact sha256) requests
  refine ⟨hexact.build_eq, ?_, ?_, ?_⟩
  · intro address physicalAddress read hread
    exact hexact.derive_readMapped hread
  · intro address physicalAddress after write next hwrite
    obtain ⟨_, rfl, hderive⟩ := hexact.writeMapped_ok hwrite
    exact ⟨hderive, rfl⟩
  · intro address physicalAddress after error next hwrite
    exact hexact.writeMapped_error hwrite

theorem image_eq_rebuild_zeros :
    MerkleTree.build (fun _ => .zero) .memory
        (runWrites (fun _ => .zero)
          (MemoryImage.exactImage (fun _ => .zero) (List.replicate (2 ^ memoryDepth) 0))
          [⟨0xc000, 0xc000, 7⟩, ⟨0xc000, 0xc000, 9⟩, ⟨0xa000, 0x20000, 1⟩]).checkpointBytes =
      .ok (runWrites (fun _ => .zero)
        (MemoryImage.exactImage (fun _ => .zero) (List.replicate (2 ^ memoryDepth) 0))
        [⟨0xc000, 0xc000, 7⟩, ⟨0xc000, 0xc000, 9⟩, ⟨0xa000, 0x20000, 1⟩]).tree := by
  exact (image_eq_rebuild (fun _ => .zero) (.fromCheckpointBytes
    (MemoryImage.fromCheckpointBytes_eq _ List.length_replicate)) _).1

end Runs

end Zksm83
