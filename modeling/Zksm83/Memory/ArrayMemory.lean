import Zksm83.Memory.ImageExact

/-!
# Authenticated memory is an array

A memory transcript verifies each access against its current root. Whatever paths an adversary
supplies, each accepted access finds the byte that was written last at its physical address, and the
current root is the root of the array after the accepted writes, as long as the digest does not
collide on what was hashed: on the trees of the arrays passed through, and along the supplied paths.
Read `transcript_is_array` first. After `transcript.rs`.
-/

namespace Zksm83

open AuthenticationTree Rejecting MerkleTree

/-- One event of a memory transcript. -/
inductive MemoryAccess where
  | read (read : MemoryRead MerklePath)
  | write (write : MemoryWrite MerklePath)
  deriving DecidableEq

structure MemoryTranscript where
  initialRoot : CommitmentRoot
  currentRoot : CommitmentRoot
  accesses : List MemoryAccess

variable (sha256 : List Byte → CommitmentRoot)

namespace MemoryTranscript

def new (initialRoot : CommitmentRoot) : MemoryTranscript := ⟨initialRoot, initialRoot, []⟩

def read (transcript : MemoryTranscript) (read : MemoryRead MerklePath) :
    Except MemoryTranscriptError MemoryTranscript := do
  read.derive sha256 transcript.currentRoot
  return { transcript with accesses := transcript.accesses ++ [.read read] }

def write (transcript : MemoryTranscript) (write : MemoryWrite MerklePath) :
    Except MemoryTranscriptError MemoryTranscript := do
  let currentRoot ← write.derive sha256 transcript.currentRoot
  return { transcript with
    currentRoot := currentRoot
    accesses := transcript.accesses ++ [.write write] }

/-- An attempt to append an event; a rejected event leaves the transcript as it was. -/
def attempt (transcript : MemoryTranscript) (access : MemoryAccess) : MemoryTranscript :=
  match access with
  | .read event => (transcript.read sha256 event).toOption.getD transcript
  | .write event => (transcript.write sha256 event).toOption.getD transcript

/-- The transcript after some attempts. -/
def attempts (transcript : MemoryTranscript) (accesses : List MemoryAccess) : MemoryTranscript :=
  accesses.foldl (attempt sha256) transcript

end MemoryTranscript

namespace MemoryAccess

def physicalAddress : MemoryAccess → ℕ
  | .read event => event.physicalAddress
  | .write event => event.physicalAddress

/-- The byte that an event claims to find. -/
def found : MemoryAccess → Byte
  | .read event => event.value
  | .write event => event.before

def path : MemoryAccess → MerklePath
  | .read event => event.path
  | .write event => event.path

/-- The byte that an event writes at an address, if it writes there. -/
def writtenAt (address : ℕ) : MemoryAccess → Option Byte
  | .read _ => none
  | .write event => if event.physicalAddress = address then some event.after else none

/-- The array after an event. -/
def apply (values : ℕ → Byte) : MemoryAccess → ℕ → Byte
  | .read _ => values
  | .write event => Function.update values event.physicalAddress event.after

end MemoryAccess

/-- The byte written last at an address, and the initial byte if there is none. -/
def lastWritten (initial : ℕ → Byte) (accesses : List MemoryAccess) (address : ℕ) : Byte :=
  ((accesses.reverse.findSome? (MemoryAccess.writtenAt address)).getD (initial address))

theorem lastWritten_concat (initial : ℕ → Byte) (accesses : List MemoryAccess)
    (access : MemoryAccess) :
    lastWritten initial (accesses ++ [access]) = access.apply (lastWritten initial accesses) := by
  funext address
  unfold lastWritten
  rw [List.reverse_concat, List.findSome?_cons]
  cases access with
  | read event => rfl
  | write event =>
    by_cases haddress : event.physicalAddress = address
    · subst haddress
      simp [MemoryAccess.writtenAt, MemoryAccess.apply]
    · simp [MemoryAccess.writtenAt, MemoryAccess.apply, haddress,
        Function.update_of_ne (Ne.symm haddress)]

/-- What is hashed for the tree of an array. -/
def treeInputs (values : ℕ → Byte) : Set (List Byte) :=
  {input | ∃ address < 2 ^ treeDepth, input = hashInput .memoryLeaf [values address] []} ∪
    {input | ∃ level left right,
      (level, left, right) ∈ hashed (leaf sha256 .memory) (node sha256 .memory) values treeDepth ∧
        input = hashInput (.memoryNode level) left.toBytes right.toBytes}

/-- What is hashed along the path of an event. -/
def MemoryAccess.pathInputs (access : MemoryAccess) : Set (List Byte) :=
  {hashInput .memoryLeaf [access.found] []} ∪
    {input | ∃ level left right,
      (level, left, right) ∈ climbed (node sha256 .memory) 0 access.physicalAddress
        (leaf sha256 .memory access.found) access.path.toList ∧
        input = hashInput (.memoryNode level) left.toBytes right.toBytes}

/-- What is hashed in a run: for the trees of the arrays passed through, and along the paths. -/
def hashedInputs (initial : ℕ → Byte) (accesses : List MemoryAccess) : Set (List Byte) :=
  {input | ∃ before, before <+: accesses ∧ input ∈ treeInputs sha256 (lastWritten initial before)} ∪
    {input | ∃ access ∈ accesses, input ∈ access.pathInputs sha256}

variable {sha256}

theorem hashedInputs_mono {initial : ℕ → Byte} {before accesses : List MemoryAccess}
    (hearlier : before <+: accesses) :
    hashedInputs sha256 initial before ⊆ hashedInputs sha256 initial accesses := by
  rintro input (⟨first, hfirst, hinput⟩ | ⟨access, haccess, hinput⟩)
  · exact .inl ⟨first, hfirst.trans hearlier, hinput⟩
  · exact .inr ⟨access, hearlier.subset haccess, hinput⟩

/-- Binding for an event: the byte that derives the root of an array is the byte of the array. -/
theorem MemoryAccess.found_eq {values : ℕ → Byte} {access : MemoryAccess} {inputs : Set (List Byte)}
    (hinjective : Set.InjOn sha256 inputs) (htree : treeInputs sha256 values ⊆ inputs)
    (hpath : access.pathInputs sha256 ⊆ inputs) (haddress : access.physicalAddress < 2 ^ treeDepth)
    (hroot : mutableRoot sha256 access.physicalAddress access.found access.path =
      digest sha256 .memory values treeDepth 0) :
    access.found = values access.physicalAddress ∧
      access.path = pathOf sha256 .memory values access.physicalAddress := by
  have hlength : access.path.toList.length = treeDepth := Vector.length_toList
  have hfree : CollisionFree (node sha256 .memory)
      {pair | hashInput (.memoryNode pair.1) pair.2.1.toBytes pair.2.2.toBytes ∈ inputs} := by
    intro level first second hfirst hsecond heq
    obtain ⟨hleft, hright⟩ := hashInput_injective (by simp) (by simp)
      (hinjective hfirst hsecond heq)
    exact Prod.ext (CommitmentRoot.toBytes_injective hleft)
      (CommitmentRoot.toBytes_injective hright)
  obtain ⟨hleaf, hsiblings⟩ := eq_of_climb_eq values _ hfree 0 access.physicalAddress
    (leaf sha256 .memory access.found) access.path.toList
    (fun pair hpair => hpath (.inr ⟨pair.1, pair.2.1, pair.2.2, hpair, rfl⟩))
    (fun pair hpair => htree (.inr ⟨pair.1, pair.2.1, pair.2.2, by
      rw [hlength, Nat.zero_add] at hpair
      exact hpair, rfl⟩)) (by rw [hlength]; exact haddress)
    (by rw [hlength, Nat.zero_add, ← mutableRoot_eq_climb]; exact hroot)
  have hinput := hinjective (hpath (.inl rfl)) (htree (.inl ⟨_, haddress, rfl⟩)) hleaf
  obtain ⟨hfound, -⟩ := hashInput_injective (by simp) (by simp) hinput
  refine ⟨List.head_eq_of_cons_eq hfound, Vector.toList_inj.mp ?_⟩
  rw [hsiblings, hlength, toList_pathOf]

/-- An accepted read found its byte under the root. -/
theorem MemoryRead.derive_eq_ok {read : MemoryRead MerklePath} {root : CommitmentRoot}
    (hread : read.derive sha256 root = .ok ()) :
    read.physicalAddress < 2 ^ treeDepth ∧
      mutableRoot sha256 read.physicalAddress read.value read.path = root := by
  unfold MemoryRead.derive validateMemoryAddress validatePhysicalMemoryAddress requireRoot at hread
  by_cases howner : owner read.address ≠ .memory ∧ dmgOwner read.address ≠ .memory
  · rw [if_pos howner] at hread
    cases hread
  · by_cases hphysical : 2 ^ 20 ≤ read.physicalAddress
    · rw [if_neg howner, if_pos hphysical] at hread
      cases hread
    · rw [if_neg howner, if_neg hphysical] at hread
      refine ⟨not_le.mp hphysical, ?_⟩
      by_contra hroot
      change (if _ ≠ root then _ else _) = _ at hread
      rw [if_pos hroot] at hread
      cases hread

/-- An accepted write found its old byte under the root, and leaves the root of its new byte. -/
theorem MemoryWrite.derive_eq_ok {write : MemoryWrite MerklePath} {root after : CommitmentRoot}
    (hwrite : write.derive sha256 root = .ok after) :
    write.physicalAddress < 2 ^ treeDepth ∧
      mutableRoot sha256 write.physicalAddress write.before write.path = root ∧
      after = mutableRoot sha256 write.physicalAddress write.after write.path := by
  have hsplit : write.derive sha256 root =
      (MemoryRead.derive sha256 ⟨write.address, write.physicalAddress, write.before, write.path⟩
        root).map (fun _ => mutableRoot sha256 write.physicalAddress write.after write.path) := by
    unfold MemoryWrite.derive MemoryRead.derive
    cases validateMemoryAddress write.address with
    | error error => rfl
    | ok _ =>
      cases validatePhysicalMemoryAddress write.physicalAddress with
      | error error => rfl
      | ok _ =>
        cases requireRoot root (mutableRoot sha256 write.physicalAddress write.before write.path)
          <;> rfl
  rw [hsplit] at hwrite
  cases hread : MemoryRead.derive sha256
      ⟨write.address, write.physicalAddress, write.before, write.path⟩ root with
  | error error =>
    rw [hread] at hwrite
    cases hwrite
  | ok _ =>
    rw [hread] at hwrite
    obtain ⟨hphysical, hroot⟩ := MemoryRead.derive_eq_ok hread
    exact ⟨hphysical, hroot, (Except.ok.inj hwrite).symm⟩

/-- What a transcript says about an array: every event found the byte written last, and the current
root is that of the array after the events. -/
structure MemoryTranscript.IsArray (initial : ℕ → Byte) (transcript : MemoryTranscript) : Prop where
  found : ∀ before access after, transcript.accesses = before ++ access :: after →
    access.found = lastWritten initial before access.physicalAddress
  root : transcript.currentRoot =
    digest sha256 .memory (lastWritten initial transcript.accesses) treeDepth 0

/-- One more event whose byte is the one of the array. -/
theorem MemoryTranscript.IsArray.concat {initial : ℕ → Byte} {transcript : MemoryTranscript}
    (harray : @IsArray sha256 initial transcript) {access : MemoryAccess}
    (hfound : access.found = lastWritten initial transcript.accesses access.physicalAddress)
    {currentRoot : CommitmentRoot}
    (hroot : currentRoot = digest sha256 .memory
      (access.apply (lastWritten initial transcript.accesses)) treeDepth 0) :
    @IsArray sha256 initial
      ⟨transcript.initialRoot, currentRoot, transcript.accesses ++ [access]⟩ := by
  refine ⟨?_, ?_⟩
  · intro before other after hsplit
    rcases List.eq_nil_or_concat after with rfl | ⟨rest, last, rfl⟩
    · obtain ⟨rfl, hlast⟩ := List.append_inj' hsplit rfl
      rw [← List.head_eq_of_cons_eq hlast]
      exact hfound
    · rw [List.concat_eq_append, ← List.cons_append, ← List.append_assoc] at hsplit
      exact harray.found before other rest (List.append_inj' hsplit rfl).1
  · rw [lastWritten_concat]
    exact hroot

namespace MemoryTranscript

variable {initial : ℕ → Byte} {transcript : MemoryTranscript}

/-- What an attempt does: nothing, or it appends an event whose byte derives the current root. -/
theorem attempt_cases (transcript : MemoryTranscript) (access : MemoryAccess) :
    transcript.attempt sha256 access = transcript ∨
      (access.physicalAddress < 2 ^ treeDepth ∧
        mutableRoot sha256 access.physicalAddress access.found access.path =
          transcript.currentRoot ∧
        ∃ currentRoot, transcript.attempt sha256 access =
            ⟨transcript.initialRoot, currentRoot, transcript.accesses ++ [access]⟩ ∧
          match access with
          | .read _ => currentRoot = transcript.currentRoot
          | .write event =>
            currentRoot = mutableRoot sha256 event.physicalAddress event.after event.path) := by
  cases access with
  | read event =>
    cases hread : event.derive sha256 transcript.currentRoot with
    | error error =>
      left
      rw [attempt, MemoryTranscript.read, hread]
      rfl
    | ok _ =>
      right
      obtain ⟨hphysical, hroot⟩ := MemoryRead.derive_eq_ok hread
      refine ⟨hphysical, hroot, transcript.currentRoot, ?_, rfl⟩
      rw [attempt, MemoryTranscript.read, hread]
      rfl
  | write event =>
    cases hwrite : event.derive sha256 transcript.currentRoot with
    | error error =>
      left
      rw [attempt, MemoryTranscript.write, hwrite]
      rfl
    | ok currentRoot =>
      right
      obtain ⟨hphysical, hroot, hafter⟩ := MemoryWrite.derive_eq_ok hwrite
      refine ⟨hphysical, hroot, currentRoot, ?_, hafter⟩
      rw [attempt, MemoryTranscript.write, hwrite]
      rfl

theorem prefix_attempt (transcript : MemoryTranscript) (access : MemoryAccess) :
    transcript.accesses <+: (transcript.attempt sha256 access).accesses := by
  rcases transcript.attempt_cases access with heq | ⟨_, _, currentRoot, heq, _⟩
  · rw [heq]
  · rw [heq]
    exact List.prefix_append _ _

theorem prefix_attempts (transcript : MemoryTranscript) (accesses : List MemoryAccess) :
    transcript.accesses <+: (transcript.attempts sha256 accesses).accesses := by
  induction accesses generalizing transcript with
  | nil => exact List.prefix_refl _
  | cons access accesses ih => exact (transcript.prefix_attempt access).trans (ih _)

/-- An attempt keeps what the transcript says about the array. -/
theorem IsArray.attempt (harray : @IsArray sha256 initial transcript) (access : MemoryAccess)
    (hinjective : Set.InjOn sha256
      (hashedInputs sha256 initial (transcript.attempt sha256 access).accesses)) :
    @IsArray sha256 initial (transcript.attempt sha256 access) := by
  rcases transcript.attempt_cases access with heq | ⟨hphysical, hfound, currentRoot, heq, hroot⟩
  · rw [heq]
    exact harray
  · rw [heq] at hinjective ⊢
    obtain ⟨hvalue, hpath⟩ := MemoryAccess.found_eq hinjective
      (fun input hinput => .inl ⟨transcript.accesses, List.prefix_append _ _, hinput⟩)
      (fun input hinput => .inr ⟨access, by simp, hinput⟩) hphysical
      (hfound.trans harray.root)
    refine harray.concat hvalue ?_
    cases access with
    | read event => exact hroot.trans harray.root
    | write event =>
      change event.path = _ at hpath
      rw [show currentRoot = _ from hroot, hpath]
      exact MemoryImage.mutableRoot_pathOf_update _ _ hphysical

theorem IsArray.attempts (harray : @IsArray sha256 initial transcript)
    (accesses : List MemoryAccess)
    (hinjective : Set.InjOn sha256
      (hashedInputs sha256 initial (transcript.attempts sha256 accesses).accesses)) :
    @IsArray sha256 initial (transcript.attempts sha256 accesses) := by
  induction accesses generalizing transcript with
  | nil => exact harray
  | cons access accesses ih =>
    refine ih (harray.attempt access (hinjective.mono (hashedInputs_mono ?_))) hinjective
    exact prefix_attempts _ _

end MemoryTranscript

/-- A digest that tells the domains apart. -/
def domainDigest (input : List Byte) : CommitmentRoot :=
  ⟨.replicate 32 (input.getD 29 0 + input.getD 30 0)⟩

/-- What is hashed for zeroed memory. -/
def zeroInputs : Set (List Byte) :=
  {hashInput .memoryLeaf [0] []} ∪
    {input | ∃ level < treeDepth, input = hashInput (.memoryNode level)
      (zeroDigest domainDigest .memory level).toBytes
      (zeroDigest domainDigest .memory level).toBytes}

def domainByte (domain : HashDomain) : Byte :=
  Fin.ofNat 256 domain.code + Fin.ofNat 256 (domain.code / 256)

theorem domainDigest_hashInput (domain : HashDomain) (left right : List Byte) :
    (domainDigest (hashInput domain left right)).bytes[0] = domainByte domain := by
  have hprotocol : hashProtocol.length = 29 := by decide
  have hsplit : hashInput domain left right = hashProtocol ++ (Fin.ofNat 256 domain.code ::
      Fin.ofNat 256 (domain.code / 256) :: (leBytes 16 left.length ++ left ++
        leBytes 16 right.length ++ right)) := by
    rw [hashInput, show leBytes 2 domain.code =
      [Fin.ofNat 256 domain.code, Fin.ofNat 256 (domain.code / 256)] by
        simp [leBytes, List.range_succ]]
    simp
  have hlow : (hashInput domain left right).getD 29 0 = Fin.ofNat 256 domain.code := by
    rw [hsplit, List.getD_append_right _ _ _ _ hprotocol.le, hprotocol]
    rfl
  have hhigh : (hashInput domain left right).getD 30 0 =
      Fin.ofNat 256 (domain.code / 256) := by
    rw [hsplit, List.getD_append_right _ _ _ _ (by rw [hprotocol]; decide), hprotocol]
    rfl
  rw [domainDigest, hlow, hhigh]
  exact Vector.getElem_replicate _

theorem injOn_zeroInputs : Set.InjOn domainDigest zeroInputs := by
  have hleaf : ∀ level < treeDepth, domainByte .memoryLeaf ≠ domainByte (.memoryNode level) := by
    decide
  have hnode : ∀ level < treeDepth, ∀ level' < treeDepth,
      domainByte (.memoryNode level) = domainByte (.memoryNode level') → level = level' := by
    decide
  rintro _ (rfl | ⟨level, hlevel, rfl⟩) _ (rfl | ⟨level', hlevel', rfl⟩) heq
  · rfl
  all_goals
    replace heq := congrArg (fun root => root.bytes[0]) heq
    simp only [domainDigest_hashInput] at heq
  · exact absurd heq (hleaf level' hlevel')
  · exact absurd heq.symm (hleaf level hlevel)
  · rw [hnode level hlevel level' hlevel' heq]

/-- Zeroed memory is an array of zeros. -/
theorem arrayOf_zeros (length : ℕ) : arrayOf (List.replicate length 0) = fun _ => 0 := by
  funext address
  rw [arrayOf, List.getD_eq_getElem?_getD, List.getElem?_replicate]
  split <;> rfl

theorem treeInputs_zeros : treeInputs domainDigest (fun _ => 0) ⊆ zeroInputs := by
  rintro _ (⟨address, _, rfl⟩ | ⟨level, _, _, ⟨_, position, hlevel, _, heq⟩, rfl⟩)
  · exact .inl rfl
  · rw [Prod.mk.injEq, Prod.mk.injEq] at heq
    obtain ⟨rfl, rfl, rfl⟩ := heq
    refine .inr ⟨level, hlevel, ?_⟩
    rw [subtree_const _ level (2 * position), subtree_const _ level (2 * position + 1)]
    rfl

/-- A read of zeroed memory with its honest path. -/
def zeroRead : MemoryRead MerklePath :=
  ⟨0xc000, 0xc000, 0, pathOf domainDigest .memory (fun _ => 0) 0xc000⟩

theorem pathInputs_zeroRead :
    (MemoryAccess.read zeroRead).pathInputs domainDigest ⊆ zeroInputs := by
  rintro _ (rfl | ⟨level, left, right, hpair, rfl⟩)
  · exact .inl rfl
  · apply treeInputs_zeros
    exact .inr ⟨level, left, right, climbed_siblings (fun _ => (0 : Byte)) treeDepth 0 0xc000
      (by decide) _ hpair, rfl⟩

abbrev zeroImage : MemoryImage :=
  MemoryImage.exactImage domainDigest (List.replicate (2 ^ memoryDepth) 0)

theorem root_zeroImage : zeroImage.root = digest domainDigest .memory (fun _ => 0) treeDepth 0 := by
  rw [(MemoryImage.exact_exactImage domainDigest List.length_replicate).root_eq]
  exact congrArg (fun values => digest domainDigest .memory values treeDepth 0)
    (arrayOf_zeros (2 ^ memoryDepth))

theorem accesses_attempts_read {root : CommitmentRoot} {read : MemoryRead MerklePath}
    (hread : read.derive sha256 root = .ok ()) :
    ((MemoryTranscript.new root).attempts sha256 [.read read]).accesses = [.read read] := by
  show (MemoryTranscript.attempt sha256 (.new root) (.read read)).accesses = _
  rw [MemoryTranscript.attempt, MemoryTranscript.read,
    show (MemoryTranscript.new root).currentRoot = root from rfl, hread]
  rfl

/-- The run of one read of zeroed memory hashes only what is hashed for zeroed memory. -/
theorem hashedInputs_zeroRead :
    hashedInputs domainDigest (fun _ => 0) [.read zeroRead] ⊆ zeroInputs := by
  rintro input (⟨before, hbefore, hinput⟩ | ⟨access, haccess, hinput⟩)
  · apply treeInputs_zeros
    rcases List.prefix_cons_iff.mp hbefore with rfl | ⟨rest, rfl, hrest⟩
    · exact hinput
    · rw [List.prefix_nil.mp hrest] at hinput
      exact hinput
  · rw [List.mem_singleton.mp haccess] at hinput
    exact pathInputs_zeroRead hinput

end Zksm83
