import Mathlib
import Zksm83.Memory.Transcript

/-!
# Verification caches

Verifying a witness first looks for it in the cache of its kind and derives the root only if the
cache does not hold exactly this witness. A verified witness is entered: the ROM cache takes no more
entries when it is full, the memory caches are emptied first. Every entry is a witness that was
derived before, so no history of verifications shows a difference to the plain derivation. Read
`verifyAll_empty` first. After `transcript.rs`.
-/

namespace Zksm83

open Rejecting

abbrev romVerificationCacheCapacity : ℕ := 32768
abbrev memoryVerificationCacheCapacity : ℕ := 8192

structure RomVerificationKey where
  expectedRoot : CommitmentRoot
  physicalAddress : ℕ
  deriving DecidableEq

structure VerifiedRomWitness where
  value : Byte
  path : MerklePath
  deriving DecidableEq

structure MemoryVerificationKey where
  expectedRoot : CommitmentRoot
  physicalAddress : ℕ
  deriving DecidableEq

structure MemoryWriteVerificationKey where
  expectedRoot : CommitmentRoot
  physicalAddress : ℕ
  after : Byte
  deriving DecidableEq

structure VerifiedMemoryReadWitness where
  value : Byte
  path : MerklePath
  deriving DecidableEq

structure VerifiedMemoryWriteWitness where
  before : Byte
  path : MerklePath
  afterRoot : CommitmentRoot
  deriving DecidableEq

/-- A hash map: at most one value for each key. -/
abbrev HashMap (κ ω : Type) : Type := AList (fun _ : κ => ω)

namespace HashMap

variable {κ ω : Type} [DecidableEq κ]

def len (cache : HashMap κ ω) : ℕ := cache.keys.length

/-- Entry into a memory cache, which is emptied first when it is full. -/
def insertBounded (cache : HashMap κ ω) (key : κ) (value : ω) : HashMap κ ω :=
  if memoryVerificationCacheCapacity ≤ cache.len then AList.insert key value ∅
  else cache.insert key value

/-- Every entry is a statement that holds. -/
def Sound (holds : κ → ω → Prop) (cache : HashMap κ ω) : Prop :=
  ∀ key value, cache.lookup key = some value → holds key value

variable {holds : κ → ω → Prop} {cache : HashMap κ ω} {key : κ} {value : ω}

theorem sound_empty : Sound holds (∅ : HashMap κ ω) := by
  intro key value hlookup
  rw [AList.lookup_empty] at hlookup
  cases hlookup

theorem Sound.insert (hsound : Sound holds cache) (hvalue : holds key value) :
    Sound holds (AList.insert key value cache) := by
  intro other found hlookup
  by_cases heq : other = key
  · subst heq
    rw [AList.lookup_insert, Option.some.injEq] at hlookup
    exact hlookup ▸ hvalue
  · rw [AList.lookup_insert_ne heq] at hlookup
    exact hsound other found hlookup

theorem Sound.insertBounded (hsound : Sound holds cache) (hvalue : holds key value) :
    Sound holds (cache.insertBounded key value) := by
  unfold HashMap.insertBounded
  split
  · exact sound_empty.insert hvalue
  · exact hsound.insert hvalue

end HashMap

/-- The thread-local caches. -/
structure VerificationCaches where
  rom : HashMap RomVerificationKey VerifiedRomWitness
  memoryRead : HashMap MemoryVerificationKey VerifiedMemoryReadWitness
  memoryWrite : HashMap MemoryWriteVerificationKey VerifiedMemoryWriteWitness

namespace VerificationCaches

def empty : VerificationCaches := ⟨∅, ∅, ∅⟩

def cacheVerifiedRomWitness (caches : VerificationCaches) (key : RomVerificationKey)
    (witness : VerifiedRomWitness) : VerificationCaches :=
  if caches.rom.len < romVerificationCacheCapacity then
    { caches with rom := caches.rom.insert key witness }
  else caches

def cacheVerifiedMemoryRead (caches : VerificationCaches) (key : MemoryVerificationKey)
    (witness : VerifiedMemoryReadWitness) : VerificationCaches :=
  { caches with memoryRead := caches.memoryRead.insertBounded key witness }

def cacheVerifiedMemoryWrite (caches : VerificationCaches) (key : MemoryWriteVerificationKey)
    (witness : VerifiedMemoryWriteWitness) : VerificationCaches :=
  { caches with memoryWrite := caches.memoryWrite.insertBounded key witness }

end VerificationCaches

variable (sha256 : List Byte → CommitmentRoot)

def RomRead.verify (read : RomRead MerklePath) (expectedRoot : CommitmentRoot) :
    Action RomReadError VerificationCaches Unit := do
  if owner read.address ≠ .rom then throw (.addressNotRom read.address)
  ofExcept (validatePhysicalAddress read.physicalAddress)
  let key : RomVerificationKey := ⟨expectedRoot, read.physicalAddress⟩
  let witness : VerifiedRomWitness := ⟨read.value, read.path⟩
  if (← get).rom.lookup key = some witness then return ()
  let actual := deriveRoot sha256 .romLeaf .romNode read.physicalAddress read.value read.path
  if actual ≠ expectedRoot then throw (.rootMismatch expectedRoot actual)
  modify (fun caches => caches.cacheVerifiedRomWitness key witness)

def MemoryRead.verify (read : MemoryRead MerklePath) (expectedRoot : CommitmentRoot) :
    Action MemoryTranscriptError VerificationCaches Unit := do
  ofExcept (validateMemoryAddress read.address)
  ofExcept (validatePhysicalMemoryAddress read.physicalAddress)
  let key : MemoryVerificationKey := ⟨expectedRoot, read.physicalAddress⟩
  let witness : VerifiedMemoryReadWitness := ⟨read.value, read.path⟩
  if (← get).memoryRead.lookup key = some witness then return ()
  let actual := mutableRoot sha256 read.physicalAddress read.value read.path
  ofExcept (requireRoot expectedRoot actual)
  modify (fun caches => caches.cacheVerifiedMemoryRead key witness)

/-- The entry of an update, if the cache holds exactly this update. -/
def VerificationCaches.cachedMemoryWrite (caches : VerificationCaches)
    (key : MemoryWriteVerificationKey) (before : Byte) (path : MerklePath) :
    Option VerifiedMemoryWriteWitness :=
  (caches.memoryWrite.lookup key).filter
    (fun witness => witness.before = before ∧ witness.path = path)

def MemoryWrite.verify (write : MemoryWrite MerklePath) (expectedRoot : CommitmentRoot) :
    Action MemoryTranscriptError VerificationCaches CommitmentRoot := do
  ofExcept (validateMemoryAddress write.address)
  ofExcept (validatePhysicalMemoryAddress write.physicalAddress)
  let key : MemoryWriteVerificationKey := ⟨expectedRoot, write.physicalAddress, write.after⟩
  if let some witness := (← get).cachedMemoryWrite key write.before write.path then
    return witness.afterRoot
  let beforeRoot := mutableRoot sha256 write.physicalAddress write.before write.path
  ofExcept (requireRoot expectedRoot beforeRoot)
  let afterRoot := mutableRoot sha256 write.physicalAddress write.after write.path
  modify (fun caches => caches.cacheVerifiedMemoryWrite key ⟨write.before, write.path, afterRoot⟩)
  return afterRoot

/-- The caches hold only witnesses that derive the root of their key. -/
structure VerificationCaches.Sound (caches : VerificationCaches) : Prop where
  rom : caches.rom.Sound (fun key witness =>
    deriveRoot sha256 .romLeaf .romNode key.physicalAddress witness.value witness.path =
      key.expectedRoot)
  memoryRead : caches.memoryRead.Sound (fun key witness =>
    mutableRoot sha256 key.physicalAddress witness.value witness.path = key.expectedRoot)
  memoryWrite : caches.memoryWrite.Sound (fun key witness =>
    mutableRoot sha256 key.physicalAddress witness.before witness.path = key.expectedRoot ∧
      mutableRoot sha256 key.physicalAddress key.after witness.path = witness.afterRoot)

variable {sha256}

theorem VerificationCaches.sound_empty : VerificationCaches.empty.Sound sha256 :=
  ⟨HashMap.sound_empty, HashMap.sound_empty, HashMap.sound_empty⟩

/-- From sound caches an action ends as the plain derivation does, and leaves sound caches. -/
def Transparent {ε α : Type} (action : Action ε VerificationCaches α) (derived : Except ε α) :
    Prop :=
  ∀ caches : VerificationCaches, caches.Sound sha256 →
    ∃ after : VerificationCaches, outcome action caches = (derived, after) ∧ after.Sound sha256

/-- Checks that come before the cache. -/
theorem Transparent.ofExcept_bind {ε α β : Type} (check : Except ε α)
    {action : α → Action ε VerificationCaches β} {derived : α → Except ε β}
    (hrest : ∀ value, check = .ok value → @Transparent sha256 _ _ (action value) (derived value)) :
    @Transparent sha256 _ _ (ofExcept check >>= action) (check >>= derived) := by
  intro caches hsound
  rw [outcome_bind]
  cases hcheck : check with
  | error error => exact ⟨caches, rfl, hsound⟩
  | ok value => exact hrest value hcheck caches hsound


/-- A lookup that leads to an early result, or to the rest of the verification. -/
theorem Transparent.get_bind {ε α : Type} {action : VerificationCaches →
    Action ε VerificationCaches α} {derived : Except ε α}
    (hrest : ∀ caches : VerificationCaches, caches.Sound sha256 →
      ∃ after : VerificationCaches, outcome (action caches) caches = (derived, after) ∧
        after.Sound sha256) :
    @Transparent sha256 _ _ (get >>= action) derived := by
  intro caches hsound
  rw [outcome_bind]
  exact hrest caches hsound

theorem VerificationCaches.Sound.cacheVerifiedRomWitness {caches : VerificationCaches}
    (hsound : caches.Sound sha256) {key : RomVerificationKey} {witness : VerifiedRomWitness}
    (hwitness : deriveRoot sha256 .romLeaf .romNode key.physicalAddress witness.value
      witness.path = key.expectedRoot) :
    (caches.cacheVerifiedRomWitness key witness).Sound sha256 := by
  unfold VerificationCaches.cacheVerifiedRomWitness
  split
  · exact { hsound with rom := hsound.rom.insert hwitness }
  · exact hsound

theorem RomRead.verify_transparent (read : RomRead MerklePath) (expectedRoot : CommitmentRoot) :
    @Transparent sha256 _ _ (read.verify sha256 expectedRoot) (read.derive sha256 expectedRoot) := by
  unfold RomRead.verify RomRead.derive
  by_cases howner : owner read.address = .rom
  · rw [if_neg (not_not_intro howner), if_neg (not_not_intro howner)]
    refine Transparent.ofExcept_bind (validatePhysicalAddress read.physicalAddress) ?_
    rintro _ -
    refine Transparent.get_bind ?_
    intro caches hsound
    by_cases hhit : caches.rom.lookup ⟨expectedRoot, read.physicalAddress⟩ =
        some ⟨read.value, read.path⟩
    · -- a hit: the entry says what the derivation would find
      have hderived := hsound.rom _ _ hhit
      rw [if_pos hhit, if_neg (not_not_intro hderived)]
      exact ⟨caches, rfl, hsound⟩
    · rw [if_neg hhit]
      by_cases hroot : deriveRoot sha256 .romLeaf .romNode read.physicalAddress read.value
          read.path = expectedRoot
      · simp only [hroot, ne_eq, not_true_eq_false, if_false]
        exact ⟨_, rfl, hsound.cacheVerifiedRomWitness hroot⟩
      · rw [if_pos hroot, if_pos hroot]
        exact ⟨caches, rfl, hsound⟩
  · rw [if_pos howner, if_pos howner]
    intro caches hsound
    exact ⟨caches, rfl, hsound⟩

theorem MemoryRead.verify_transparent (read : MemoryRead MerklePath)
    (expectedRoot : CommitmentRoot) :
    @Transparent sha256 _ _ (read.verify sha256 expectedRoot) (read.derive sha256 expectedRoot) := by
  unfold MemoryRead.verify MemoryRead.derive
  refine Transparent.ofExcept_bind (validateMemoryAddress read.address) ?_
  rintro _ -
  refine Transparent.ofExcept_bind (validatePhysicalMemoryAddress read.physicalAddress) ?_
  rintro _ -
  refine Transparent.get_bind ?_
  intro caches hsound
  by_cases hhit : caches.memoryRead.lookup ⟨expectedRoot, read.physicalAddress⟩ =
      some ⟨read.value, read.path⟩
  · have hderived := hsound.memoryRead _ _ hhit
    rw [if_pos hhit, requireRoot, if_neg (not_not_intro hderived)]
    exact ⟨caches, rfl, hsound⟩
  · rw [if_neg hhit]
    unfold requireRoot
    by_cases hroot : mutableRoot sha256 read.physicalAddress read.value read.path = expectedRoot
    · simp only [hroot, ne_eq, not_true_eq_false, if_false]
      exact ⟨_, rfl, { hsound with memoryRead := hsound.memoryRead.insertBounded hroot }⟩
    · simp only [ne_eq, hroot, not_false_eq_true, if_true]
      exact ⟨caches, rfl, hsound⟩

theorem VerificationCaches.cachedMemoryWrite_eq_some {caches : VerificationCaches}
    {key : MemoryWriteVerificationKey} {before : Byte} {path : MerklePath}
    {witness : VerifiedMemoryWriteWitness} :
    caches.cachedMemoryWrite key before path = some witness ↔
      caches.memoryWrite.lookup key = some witness ∧ witness.before = before ∧
        witness.path = path := by
  rw [VerificationCaches.cachedMemoryWrite, Option.filter_eq_some_iff, decide_eq_true_eq]

theorem MemoryWrite.verify_transparent (write : MemoryWrite MerklePath)
    (expectedRoot : CommitmentRoot) :
    @Transparent sha256 _ _ (write.verify sha256 expectedRoot)
      (write.derive sha256 expectedRoot) := by
  unfold MemoryWrite.verify MemoryWrite.derive
  refine Transparent.ofExcept_bind (validateMemoryAddress write.address) ?_
  rintro _ -
  refine Transparent.ofExcept_bind (validatePhysicalMemoryAddress write.physicalAddress) ?_
  rintro _ -
  refine Transparent.get_bind ?_
  intro caches hsound
  cases hhit : caches.cachedMemoryWrite ⟨expectedRoot, write.physicalAddress, write.after⟩
      write.before write.path with
  | some witness =>
    obtain ⟨hlookup, hbefore, hpath⟩ := VerificationCaches.cachedMemoryWrite_eq_some.mp hhit
    obtain ⟨hroot, hafter⟩ := hsound.memoryWrite _ _ hlookup
    rw [← hbefore, ← hpath, requireRoot, if_neg (not_not_intro hroot), hafter]
    exact ⟨caches, rfl, hsound⟩
  | none =>
    unfold requireRoot
    by_cases hroot : mutableRoot sha256 write.physicalAddress write.before write.path =
        expectedRoot
    · simp only [hroot, ne_eq, not_true_eq_false, if_false]
      exact ⟨_, rfl,
        { hsound with memoryWrite := hsound.memoryWrite.insertBounded ⟨hroot, rfl⟩ }⟩
    · simp only [ne_eq, hroot, not_false_eq_true, if_true]
      exact ⟨caches, rfl, hsound⟩

/-- The verification of a witness under a root. -/
inductive Verification where
  | romRead (read : RomRead MerklePath) (expectedRoot : CommitmentRoot)
  | memoryRead (read : MemoryRead MerklePath) (expectedRoot : CommitmentRoot)
  | memoryWrite (write : MemoryWrite MerklePath) (expectedRoot : CommitmentRoot)

inductive VerificationResult where
  | romRead (result : Except RomReadError Unit)
  | memoryRead (result : Except MemoryTranscriptError Unit)
  | memoryWrite (result : Except MemoryTranscriptError CommitmentRoot)

section Histories

variable (sha256)

/-- A verification with the caches. -/
def Verification.verify (caches : VerificationCaches) :
    Verification → VerificationResult × VerificationCaches
  | .romRead read expectedRoot =>
    (outcome (read.verify sha256 expectedRoot) caches).map .romRead id
  | .memoryRead read expectedRoot =>
    (outcome (read.verify sha256 expectedRoot) caches).map .memoryRead id
  | .memoryWrite write expectedRoot =>
    (outcome (write.verify sha256 expectedRoot) caches).map .memoryWrite id

/-- A verification without caches. -/
def Verification.derive : Verification → VerificationResult
  | .romRead read expectedRoot => .romRead (read.derive sha256 expectedRoot)
  | .memoryRead read expectedRoot => .memoryRead (read.derive sha256 expectedRoot)
  | .memoryWrite write expectedRoot => .memoryWrite (write.derive sha256 expectedRoot)

/-- A history of verifications by one thread. -/
def verifyAll : VerificationCaches → List Verification → List VerificationResult
  | _, [] => []
  | caches, verification :: rest =>
    let (result, after) := verification.verify sha256 caches
    result :: verifyAll after rest

end Histories

theorem Verification.verify_transparent (verification : Verification)
    {caches : VerificationCaches} (hsound : caches.Sound sha256) :
    ∃ after : VerificationCaches,
      verification.verify sha256 caches = (verification.derive sha256, after) ∧
        after.Sound sha256 := by
  cases verification with
  | romRead read expectedRoot =>
    obtain ⟨after, houtcome, hafter⟩ := read.verify_transparent expectedRoot caches hsound
    exact ⟨after, by rw [Verification.verify, houtcome]; rfl, hafter⟩
  | memoryRead read expectedRoot =>
    obtain ⟨after, houtcome, hafter⟩ := read.verify_transparent expectedRoot caches hsound
    exact ⟨after, by rw [Verification.verify, houtcome]; rfl, hafter⟩
  | memoryWrite write expectedRoot =>
    obtain ⟨after, houtcome, hafter⟩ := write.verify_transparent expectedRoot caches hsound
    exact ⟨after, by rw [Verification.verify, houtcome]; rfl, hafter⟩

theorem verifyAll_eq (verifications : List Verification) {caches : VerificationCaches}
    (hsound : caches.Sound sha256) :
    verifyAll sha256 caches verifications = verifications.map (Verification.derive sha256) := by
  induction verifications generalizing caches with
  | nil => rfl
  | cons verification rest ih =>
    obtain ⟨after, hverify, hafter⟩ := verification.verify_transparent hsound
    rw [verifyAll, hverify, List.map_cons]
    show _ :: verifyAll sha256 after rest = _
    rw [ih hafter]

variable (sha256)

/-- The caches are transparent: from empty caches every history of verifications has the results
that the plain derivation has. -/
theorem verifyAll_empty (verifications : List Verification) :
    verifyAll sha256 .empty verifications = verifications.map (Verification.derive sha256) :=
  verifyAll_eq verifications VerificationCaches.sound_empty

end Zksm83
