import Zksm83.Library.Telescope
import Zksm83.Receipt.Segments

/-!
# Verification of receipts

The verifier of a whole receipt: every segment is checked at its place of the chain, and the chain
has to lead from the first boundary of the statement to the last. The check of the proof of a
segment is a parameter. `accepted_receipt_telescopes` says exactly which receipts are accepted.
After `receipt.rs`.
-/

namespace Zksm83

/-! ## Claims of a segment -/

def NativeExecutionClaim.new (activeRowCount transitionCount : UInt64)
    (initialState finalState : NativeStateBoundary) :
    Except Continuity.ContinuityError NativeExecutionClaim := do
  let claim : NativeExecutionClaim := ⟨activeRowCount, transitionCount, initialState, finalState⟩
  Continuity.validate claim
  return claim

def Logs.PackedProtocolLogClaim.new (busEventCount instructionCount : UInt64)
    (execution : NativeExecutionClaim) :
    Except Logs.ProtocolLogError Logs.PackedProtocolLogClaim := do
  let claim : Logs.PackedProtocolLogClaim := ⟨busEventCount, instructionCount⟩
  claim.validate execution
  return claim

def ProtocolLogCounts.get (counts : ProtocolLogCounts) : ProtocolLogKind → UInt64
  | .bus => counts.bus
  | .input => counts.input
  | .output => counts.output
  | .isa => counts.isa

/-- What the proof of a segment is checked against. -/
structure PackedBlockVerificationInputs (akita : Akita) where
  claim : NativeExecutionClaim
  logClaim : Logs.PackedProtocolLogClaim
  logs : ProtocolLogCommitments akita
  rom : RomCommitment akita
  initialMemory : MemoryCommitment akita
  finalMemory : MemoryCommitment akita

/-- The result of a verification. -/
structure VerifiedNativeReceipt where
  statementId : Digest
  segmentCount : UInt64
  deriving DecidableEq

variable {akita : Akita}

def validateSegmentCounts (segment : NativeSegmentReceipt akita) :
    Except NativeReceiptError Unit := do
  rejectIf (segment.activeRowCount = 0 ∨
    segment.activeRowCount.toNat + segment.paddedRowCount.toNat ≠ uniformRowCount)
    (.segmentChain "active and padded row counts are invalid")
  let maximumTransitions := segment.activeRowCount.toNat * basicBlockInstructionBound
  rejectIf (2 ^ 64 ≤ maximumTransitions) .counter
  rejectIf (segment.transitionCount < segment.activeRowCount ∨
    maximumTransitions < segment.transitionCount.toNat)
    (.segmentChain "segment transition count is invalid")

section Verify

variable (sha256 : List Byte → Digest)
  (verifyComponents : NativeProtocolVersion → PackedBlockProof akita →
    PackedBlockVerificationInputs akita → Except PackedBlockProofError Unit)

def ensureSameMemory (left right : MemoryCommitment akita) (protocol : NativeProtocolVersion) :
    Except NativeReceiptError Unit := do
  let leftIdentity ← directMemoryIdentityFor sha256 protocol left
  let rightIdentity ← directMemoryIdentityFor sha256 protocol right
  rejectIf (leftIdentity ≠ rightIdentity)
    (.segmentChain "adjacent mutable-memory commitment identities differ")

def verifySegment (index : ℕ) (segment : NativeSegmentReceipt akita)
    (expectedInitial : NativeBoundary) (rom : RomCommitment akita)
    (protocol : NativeProtocolVersion) : Except NativeReceiptError Unit := do
  rejectIf (2 ^ 64 ≤ index) .counter
  rejectIf (segment.segmentIndex.toNat ≠ index) (.segmentChain "segment index differs")
  rejectIf (segment.initial ≠ expectedInitial) (.segmentChain "initial boundary differs")
  validateSegmentCounts segment
  let initialMemory ← directMemoryIdentityFor sha256 protocol segment.initialMemory
  rejectIf (initialMemory ≠ segment.initial.memory)
    (.segmentChain "initial memory commitment identity differs")
  let finalMemory ← directMemoryIdentityFor sha256 protocol segment.finalMemory
  rejectIf (finalMemory ≠ segment.finalBoundary.memory)
    (.segmentChain "final memory commitment identity differs")
  segment.initial.validateFor sha256 protocol
  segment.finalBoundary.validateFor sha256 protocol
  let expectedFinal ← segment.initial.advanceFor sha256 protocol segment.finalBoundary.state
    segment.finalBoundary.memory segment.logs segment.segmentIndex segment.logCounts
  rejectIf (expectedFinal ≠ segment.finalBoundary)
    (.segmentChain "derived final boundary differs")
  let mCycleCount ← checkedDelta segment.initial.mCycles segment.finalBoundary.mCycles
  rejectIf (segment.mCycleCount ≠ mCycleCount) (.segmentChain "machine-cycle count differs")
  let logCounts ← ProtocolLogCounts.between segment.initial segment.finalBoundary
  rejectIf (segment.logCounts ≠ logCounts) (.segmentChain "protocol-log counts differ")
  let claim ← (NativeExecutionClaim.new segment.activeRowCount segment.transitionCount
    segment.initial.state segment.finalBoundary.state).mapError
      (fun error => .proof (.continuity error))
  let logClaim ← (Logs.PackedProtocolLogClaim.new segment.logCounts.bus segment.logCounts.isa
    claim).mapError (fun error => .proof (.protocolLog error))
  (verifyComponents protocol segment.proof ⟨claim, logClaim, segment.logs, rom,
    segment.initialMemory, segment.finalMemory⟩).mapError .proof

/-! ## The chain of segments -/

/-- Where the loop over the segments stands. -/
structure ChainProgress (akita : Akita) where
  index : ℕ
  boundary : NativeBoundary
  transitions : UInt64
  rows : UInt64
  previousMemory : Option (MemoryCommitment akita)

def ChainProgress.start (akita : Akita) (initial : NativeBoundary) : ChainProgress akita :=
  ⟨0, initial, 0, 0, none⟩

/-- The next segment of the chain. -/
def verifyNext (rom : RomCommitment akita) (protocol : NativeProtocolVersion)
    (progress : ChainProgress akita) (segment : NativeSegmentReceipt akita) :
    Except NativeReceiptError (ChainProgress akita) := do
  if let some memory := progress.previousMemory then
    ensureSameMemory sha256 memory segment.initialMemory protocol
  verifySegment sha256 verifyComponents progress.index segment progress.boundary rom protocol
  let transitions ← checkedAdd progress.transitions segment.transitionCount
  let rows ← checkedAdd progress.rows segment.activeRowCount
  return ⟨progress.index + 1, segment.finalBoundary, transitions, rows, some segment.finalMemory⟩

/-- The chain has to end where the statement says. -/
def ensureChainEnd (statement : NativeStatement) (progress : ChainProgress akita) :
    Except NativeReceiptError Unit :=
  rejectIf (progress.boundary ≠ statement.finalBoundary ∨
    progress.transitions ≠ statement.transitionCount ∨
    progress.rows ≠ statement.relationRowCount) (.segmentChain
      "final boundary, transition count, or relation-row count differs from the statement")

def verifyReceiptStructure (receipt : NativeReceipt akita) : Except NativeReceiptError Unit := do
  let rom ← directRomIdentityFor sha256 receipt.version receipt.rom
  rejectIf (rom ≠ receipt.statement.rom ∨
    receipt.segments.length ≠ receipt.statement.segmentCount.toNat) .statementMismatch
  let progress ← receipt.segments.foldlM
    (verifyNext sha256 verifyComponents receipt.rom receipt.version)
    (.start akita receipt.statement.initial)
  ensureChainEnd receipt.statement progress

def verifyNativeReceipt (receipt : NativeReceipt akita) (expected : NativeStatement) :
    Except NativeReceiptError VerifiedNativeReceipt := do
  expected.validate sha256
  receipt.statement.validate sha256
  rejectIf (receipt.version ≠ expected.protocol ∨ receipt.statement ≠ expected) .statementMismatch
  verifyReceiptStructure sha256 verifyComponents receipt
  return ⟨expected.statementId, expected.segmentCount⟩

def verifyNativeReceiptBytes (bytes : List Byte) (expected : NativeStatement) :
    Except NativeReceiptError VerifiedNativeReceipt := do
  let receipt ← decodeReceipt bytes
  verifyNativeReceipt sha256 verifyComponents receipt expected

end Verify

/-! ## Counters -/

theorem checkedAdd_eq_ok {first second sum : UInt64} :
    checkedAdd first second = .ok sum ↔ first.toNat + second.toNat = sum.toNat := by
  rw [checkedAdd, Except.check_eq_ok, rejectIf_eq_ok]
  have hsum := sum.toNat_lt
  constructor
  · rintro ⟨hlt, h⟩
    obtain rfl := Except.ok.inj h
    rw [UInt64.toNat_add, Nat.mod_eq_of_lt (not_le.mp hlt)]
  · intro h
    refine ⟨by omega, congrArg Except.ok (UInt64.toNat_inj.mp ?_)⟩
    rw [UInt64.toNat_add, h, Nat.mod_eq_of_lt hsum]

theorem checkedDelta_eq_ok {initial finalValue delta : UInt64} :
    checkedDelta initial finalValue = .ok delta ↔
      initial.toNat + delta.toNat = finalValue.toNat := by
  rw [checkedDelta, Except.check_eq_ok, rejectIf_eq_ok, UInt64.not_lt, UInt64.le_iff_toNat_le]
  have hfinal := finalValue.toNat_lt
  constructor
  · rintro ⟨hle, h⟩
    obtain rfl := Except.ok.inj h
    rw [UInt64.toNat_sub_of_le _ _ (UInt64.le_iff_toNat_le.mpr hle)]
    omega
  · intro h
    have hle : initial.toNat ≤ finalValue.toNat := by omega
    refine ⟨hle, congrArg Except.ok (UInt64.toNat_inj.mp ?_)⟩
    rw [UInt64.toNat_sub_of_le _ _ (UInt64.le_iff_toNat_le.mpr hle)]
    omega

theorem ProtocolLogCounts.between_eq_ok {initial finalBoundary : NativeBoundary}
    {counts : ProtocolLogCounts} : between initial finalBoundary = .ok counts ↔
      ∀ kind, (initial.logCursor kind).toNat + (counts.get kind).toNat =
        (finalBoundary.logCursor kind).toNat := by
  unfold between
  simp only [Except.bind_eq_ok, checkedDelta_eq_ok]
  constructor
  · rintro ⟨bus, hbus, input, hinput, output, houtput, isa, hisa, h⟩ kind
    cases h
    cases kind with
    | bus => exact hbus
    | input => exact hinput
    | output => exact houtput
    | isa => exact hisa
  · intro h
    exact ⟨counts.bus, h .bus, counts.input, h .input, counts.output, h .output, counts.isa,
      h .isa, rfl⟩

/-! ## What is checked of a segment -/

theorem validateSegmentCounts_eq_ok {segment : NativeSegmentReceipt akita} :
    validateSegmentCounts segment = .ok () ↔ 0 < segment.activeRowCount.toNat ∧
      segment.activeRowCount.toNat + segment.paddedRowCount.toNat = uniformRowCount ∧
      segment.activeRowCount ≤ segment.transitionCount ∧
      segment.transitionCount.toNat ≤
        segment.activeRowCount.toNat * basicBlockInstructionBound := by
  have hcapacity : uniformRowCount * basicBlockInstructionBound < 2 ^ 64 := by decide
  have hzero : segment.activeRowCount = 0 ↔ segment.activeRowCount.toNat = 0 :=
    UInt64.toNat_inj.symm
  unfold validateSegmentCounts
  simp only [Except.check_eq_ok, rejectIf_eq_ok, not_or, not_not, not_lt, not_le, UInt64.not_lt,
    hzero]
  constructor
  · rintro ⟨⟨hpositive, hcapacity⟩, -, hleast, hmost⟩
    exact ⟨Nat.pos_of_ne_zero hpositive, hcapacity, hleast, hmost⟩
  · rintro ⟨hpositive, hsum, hleast, hmost⟩
    refine ⟨⟨hpositive.ne', hsum⟩, ?_, hleast, hmost⟩
    exact (Nat.mul_le_mul_right _ (by omega)).trans_lt hcapacity

/-- The claim of a segment about its execution. -/
def NativeSegmentReceipt.claim (segment : NativeSegmentReceipt akita) : NativeExecutionClaim :=
  ⟨segment.activeRowCount, segment.transitionCount, segment.initial.state,
    segment.finalBoundary.state⟩

/-- The claim of a segment about its logs. -/
def NativeSegmentReceipt.logClaim (segment : NativeSegmentReceipt akita) :
    Logs.PackedProtocolLogClaim :=
  ⟨segment.logCounts.bus, segment.logCounts.isa⟩

theorem NativeExecutionClaim.new_eq_ok {segment : NativeSegmentReceipt akita}
    (hcounts : validateSegmentCounts segment = .ok ()) :
    NativeExecutionClaim.new segment.activeRowCount segment.transitionCount segment.initial.state
      segment.finalBoundary.state = .ok segment.claim := by
  obtain ⟨hpositive, hsum, hleast, hmost⟩ := validateSegmentCounts_eq_ok.mp hcounts
  have hcapacity : uniformRowCount * basicBlockInstructionBound < 2 ^ 64 := by decide
  have hvalid : Continuity.validate segment.claim = .ok () := by
    have hrows : segment.activeRowCount.toNat ≤ uniformRowCount := by omega
    have hproduct := (Nat.mul_le_mul_right basicBlockInstructionBound hrows).trans_lt hcapacity
    unfold Continuity.validate
    rw [UInt64.le_iff_toNat_le] at hleast
    show (if 2 ^ 64 ≤ segment.activeRowCount.toNat * basicBlockInstructionBound then _
      else if _ then _ else _) = _
    rw [if_neg (not_le.mpr hproduct), if_neg]
    rintro (h | h | h | h)
    · exact hpositive.ne' h
    · exact absurd h (not_lt.mpr hrows)
    · exact absurd h (not_lt.mpr hleast)
    · exact absurd h (not_lt.mpr hmost)
  exact Except.check_eq_ok.mpr ⟨hvalid, rfl⟩

theorem Logs.PackedProtocolLogClaim.new_eq_ok {busEventCount instructionCount : UInt64}
    {execution : NativeExecutionClaim} {claim : Logs.PackedProtocolLogClaim} :
    Logs.PackedProtocolLogClaim.new busEventCount instructionCount execution = .ok claim ↔
      claim = ⟨busEventCount, instructionCount⟩ ∧ claim.validate execution = .ok () := by
  unfold Logs.PackedProtocolLogClaim.new
  rw [Except.check_eq_ok]
  constructor
  · rintro ⟨hvalid, h⟩
    cases h
    exact ⟨rfl, hvalid⟩
  · rintro ⟨rfl, hvalid⟩
    exact ⟨hvalid, rfl⟩

section Verify

variable (sha256 : List Byte → Digest)
  (verifyComponents : NativeProtocolVersion → PackedBlockProof akita →
    PackedBlockVerificationInputs akita → Except PackedBlockProofError Unit)
  (rom : RomCommitment akita) (protocol : NativeProtocolVersion)

/-- What a segment has to be at any place of a chain: its row counts are within the capacity, its
memory commitments are those of its boundaries, its last boundary is its first one advanced by its
logs, its counts are the growth between them, and its proof holds for the claim that they make. -/
structure SegmentChecked (segment : NativeSegmentReceipt akita) : Prop where
  rows_pos : 0 < segment.activeRowCount.toNat
  capacity : segment.activeRowCount.toNat + segment.paddedRowCount.toNat = uniformRowCount
  rows_le : segment.activeRowCount ≤ segment.transitionCount
  transitions_le : segment.transitionCount.toNat ≤
    segment.activeRowCount.toNat * basicBlockInstructionBound
  initialMemory : directMemoryIdentityFor sha256 protocol segment.initialMemory =
    .ok segment.initial.memory
  finalMemory : directMemoryIdentityFor sha256 protocol segment.finalMemory =
    .ok segment.finalBoundary.memory
  initial : segment.initial.validateFor sha256 protocol = .ok ()
  finalBoundary : segment.finalBoundary.validateFor sha256 protocol = .ok ()
  advance : segment.initial.advanceFor sha256 protocol segment.finalBoundary.state
    segment.finalBoundary.memory segment.logs segment.segmentIndex segment.logCounts =
      .ok segment.finalBoundary
  mCycles : segment.initial.mCycles.toNat + segment.mCycleCount.toNat =
    segment.finalBoundary.mCycles.toNat
  logCounts (kind : ProtocolLogKind) : (segment.initial.logCursor kind).toNat +
    (segment.logCounts.get kind).toNat = (segment.finalBoundary.logCursor kind).toNat
  logClaim : segment.logClaim.validate segment.claim = .ok ()
  components : verifyComponents protocol segment.proof ⟨segment.claim, segment.logClaim,
    segment.logs, rom, segment.initialMemory, segment.finalMemory⟩ = .ok ()

variable {sha256 verifyComponents rom protocol}

theorem verifySegment_eq_ok {index : ℕ} {segment : NativeSegmentReceipt akita}
    {expectedInitial : NativeBoundary} :
    verifySegment sha256 verifyComponents index segment expectedInitial rom protocol = .ok () ↔
      segment.segmentIndex.toNat = index ∧ segment.initial = expectedInitial ∧
        SegmentChecked sha256 verifyComponents rom protocol segment := by
  unfold verifySegment
  simp only [↓Except.check_eq_ok, Except.bind_eq_ok, rejectIf_eq_ok, not_not, ne_eq, not_le,
    checkedDelta_eq_ok, ProtocolLogCounts.between_eq_ok, Except.mapError_eq_ok]
  constructor
  · rintro ⟨-, hindex, hinitial, hcounts, _, hmemory, rfl, _, hmemory', rfl, hvalid, hvalid', _,
      hadvance, rfl, _, hcycles, rfl, _, hlogs, rfl, claim, hclaim, logClaim, hlogClaim,
      hcomponents⟩
    rw [NativeExecutionClaim.new_eq_ok hcounts, Except.ok.injEq] at hclaim
    subst hclaim
    obtain ⟨rfl, hlogValid⟩ := Logs.PackedProtocolLogClaim.new_eq_ok.mp hlogClaim
    obtain ⟨hpositive, hsum, hleast, hmost⟩ := validateSegmentCounts_eq_ok.mp hcounts
    exact ⟨hindex, hinitial, hpositive, hsum, hleast, hmost, hmemory, hmemory', hvalid, hvalid',
      hadvance, hcycles, hlogs, hlogValid, hcomponents⟩
  · rintro ⟨hindex, hinitial, hchecked⟩
    have hcounts := validateSegmentCounts_eq_ok.mpr
      ⟨hchecked.rows_pos, hchecked.capacity, hchecked.rows_le, hchecked.transitions_le⟩
    exact ⟨hindex ▸ segment.segmentIndex.toNat_lt, hindex, hinitial, hcounts, _,
      hchecked.initialMemory, rfl, _, hchecked.finalMemory, rfl, hchecked.initial,
      hchecked.finalBoundary, _, hchecked.advance, rfl, _, hchecked.mCycles, rfl, _,
      hchecked.logCounts, rfl, _, NativeExecutionClaim.new_eq_ok hcounts, _,
      Logs.PackedProtocolLogClaim.new_eq_ok.mpr ⟨rfl, hchecked.logClaim⟩, hchecked.components⟩

/-! ## What is checked of a chain -/

/-- The memory commitment that the loop remembers is that of its boundary. -/
def ChainProgress.Coherent (sha256 : List Byte → Digest) (protocol : NativeProtocolVersion)
    (progress : ChainProgress akita) : Prop :=
  ∀ memory ∈ progress.previousMemory,
    directMemoryIdentityFor sha256 protocol memory = .ok progress.boundary.memory

theorem ChainProgress.start_coherent {initial : NativeBoundary} :
    (ChainProgress.start akita initial).Coherent sha256 protocol := nofun

/-- The parts of a step of the loop. -/
theorem verifyNext_parts {progress next : ChainProgress akita}
    {segment : NativeSegmentReceipt akita} :
    verifyNext sha256 verifyComponents rom protocol progress segment = .ok next ↔
      (∀ memory ∈ progress.previousMemory,
        ensureSameMemory sha256 memory segment.initialMemory protocol = .ok ()) ∧
      verifySegment sha256 verifyComponents progress.index segment progress.boundary rom
        protocol = .ok () ∧
      checkedAdd progress.transitions segment.transitionCount = .ok next.transitions ∧
      checkedAdd progress.rows segment.activeRowCount = .ok next.rows ∧
      next.index = progress.index + 1 ∧ next.boundary = segment.finalBoundary ∧
      next.previousMemory = some segment.finalMemory := by
  have hsplit : verifyNext sha256 verifyComponents rom protocol progress segment =
      (match progress.previousMemory with
        | some memory => ensureSameMemory sha256 memory segment.initialMemory protocol
        | none => .ok ()) >>= fun _ => do
          verifySegment sha256 verifyComponents progress.index segment progress.boundary rom
            protocol
          let transitions ← checkedAdd progress.transitions segment.transitionCount
          let rows ← checkedAdd progress.rows segment.activeRowCount
          return ⟨progress.index + 1, segment.finalBoundary, transitions, rows,
            some segment.finalMemory⟩ := by
    unfold verifyNext
    cases progress.previousMemory <;> rfl
  have hprevious : (match progress.previousMemory with
        | some memory => ensureSameMemory sha256 memory segment.initialMemory protocol
        | none => .ok ()) = .ok () ↔ ∀ memory ∈ progress.previousMemory,
          ensureSameMemory sha256 memory segment.initialMemory protocol = .ok () := by
    cases progress.previousMemory <;> simp
  obtain ⟨index, boundary, transitions, rows, memory⟩ := next
  rw [hsplit, Except.check_eq_ok, hprevious]
  simp only [↓Except.check_eq_ok, Except.bind_eq_ok]
  refine and_congr_right fun _ => ?_
  constructor
  · rintro ⟨hsegment, _, htransitions, _, hrows, h⟩
    cases h
    exact ⟨hsegment, htransitions, hrows, rfl, rfl, rfl⟩
  · rintro ⟨hsegment, htransitions, hrows, rfl, rfl, rfl⟩
    exact ⟨hsegment, _, htransitions, _, hrows, rfl⟩

theorem verifyNext_eq_ok {progress next : ChainProgress akita}
    {segment : NativeSegmentReceipt akita} (hcoherent : progress.Coherent sha256 protocol) :
    verifyNext sha256 verifyComponents rom protocol progress segment = .ok next ↔
      segment.segmentIndex.toNat = progress.index ∧ segment.initial = progress.boundary ∧
      SegmentChecked sha256 verifyComponents rom protocol segment ∧
      progress.transitions.toNat + segment.transitionCount.toNat = next.transitions.toNat ∧
      progress.rows.toNat + segment.activeRowCount.toNat = next.rows.toNat ∧
      next.index = progress.index + 1 ∧ next.boundary = segment.finalBoundary ∧
      next.previousMemory = some segment.finalMemory := by
  rw [verifyNext_parts, verifySegment_eq_ok, checkedAdd_eq_ok, checkedAdd_eq_ok]
  constructor
  · rintro ⟨-, ⟨hindex, hinitial, hchecked⟩, hrest⟩
    exact ⟨hindex, hinitial, hchecked, hrest⟩
  · rintro ⟨hindex, hinitial, hchecked, hrest⟩
    refine ⟨fun memory hmemory => ?_, ⟨hindex, hinitial, hchecked⟩, hrest⟩
    -- the commitment behind the segment before and the one in front of this one have the
    -- identity of the boundary between them
    refine Except.bind_eq_ok.mpr ⟨_, hcoherent memory hmemory, Except.bind_eq_ok.mpr
      ⟨_, hchecked.initialMemory, rejectIf_eq_ok.mpr (not_not_intro ?_)⟩⟩
    rw [hinitial]

/-- What the loop over some segments establishes. -/
structure ChainChecked (sha256 : List Byte → Digest)
    (verifyComponents : NativeProtocolVersion → PackedBlockProof akita →
      PackedBlockVerificationInputs akita → Except PackedBlockProofError Unit)
    (rom : RomCommitment akita) (protocol : NativeProtocolVersion) (index : ℕ)
    (initial : NativeBoundary) (segments : List (NativeSegmentReceipt akita))
    (finalBoundary : NativeBoundary) : Prop where
  numbered : segments.map (·.segmentIndex.toNat) = List.range' index segments.length
  linked : Linked NativeSegmentReceipt.initial NativeSegmentReceipt.finalBoundary initial segments
    finalBoundary
  checked : ∀ segment ∈ segments, SegmentChecked sha256 verifyComponents rom protocol segment

theorem ChainChecked.cons_iff {index : ℕ} {initial finalBoundary : NativeBoundary}
    {segment : NativeSegmentReceipt akita} {segments : List (NativeSegmentReceipt akita)} :
    ChainChecked sha256 verifyComponents rom protocol index initial (segment :: segments)
      finalBoundary ↔ segment.segmentIndex.toNat = index ∧ segment.initial = initial ∧
        SegmentChecked sha256 verifyComponents rom protocol segment ∧
        ChainChecked sha256 verifyComponents rom protocol (index + 1) segment.finalBoundary
          segments finalBoundary := by
  have hrange : (segment :: segments).map (·.segmentIndex.toNat) =
      List.range' index (segment :: segments).length ↔ segment.segmentIndex.toNat = index ∧
        segments.map (·.segmentIndex.toNat) = List.range' (index + 1) segments.length := by
    rw [List.length_cons, List.range'_succ, List.map_cons, List.cons.injEq]
  constructor
  · rintro ⟨hnumbered, hlinked, hchecked⟩
    obtain ⟨hindex, hrest⟩ := hrange.mp hnumbered
    obtain ⟨hinitial, htail⟩ := Linked.cons_iff.mp hlinked
    rw [List.forall_mem_cons] at hchecked
    exact ⟨hindex, hinitial, hchecked.1, hrest, htail, hchecked.2⟩
  · rintro ⟨hindex, hinitial, hchecked, hrest, htail, hall⟩
    exact ⟨hrange.mpr ⟨hindex, hrest⟩, Linked.cons_iff.mpr ⟨hinitial, htail⟩,
      List.forall_mem_cons.mpr ⟨hchecked, hall⟩⟩

/-- The loop gets through where the segments are a chain from its boundary and their counts can
be added. -/
theorem verifyChain_eq_ok {segments : List (NativeSegmentReceipt akita)}
    {progress : ChainProgress akita} (hcoherent : progress.Coherent sha256 protocol)
    {finalBoundary : NativeBoundary} {transitions rows : UInt64} :
    (∃ last, segments.foldlM (verifyNext sha256 verifyComponents rom protocol) progress =
        .ok last ∧ last.boundary = finalBoundary ∧ last.transitions = transitions ∧
        last.rows = rows) ↔
      ChainChecked sha256 verifyComponents rom protocol progress.index progress.boundary segments
        finalBoundary ∧
      progress.transitions.toNat + (segments.map (·.transitionCount.toNat)).sum =
        transitions.toNat ∧
      progress.rows.toNat + (segments.map (·.activeRowCount.toNat)).sum = rows.toNat := by
  simp only [Runs.foldlM_eq_ok]
  induction segments generalizing progress with
  | nil =>
    constructor
    · rintro ⟨last, hrun, rfl, rfl, rfl⟩
      cases hrun
      exact ⟨⟨rfl, Linked.nil_iff.mpr rfl, by simp⟩, rfl, rfl⟩
    · rintro ⟨hchain, htransitions, hrows⟩
      refine ⟨progress, .nil _, (Linked.nil_iff.mp hchain.linked).symm, ?_, ?_⟩
      · exact UInt64.toNat_inj.mp htransitions
      · exact UInt64.toNat_inj.mp hrows
  | cons segment segments ih =>
    rw [ChainChecked.cons_iff, List.map_cons, List.map_cons, List.sum_cons, List.sum_cons,
      ← Nat.add_assoc, ← Nat.add_assoc]
    have hnextCoherent {next : ChainProgress akita}
        (hchecked : SegmentChecked sha256 verifyComponents rom protocol segment)
        (hboundary : next.boundary = segment.finalBoundary)
        (hmemory : next.previousMemory = some segment.finalMemory) :
        next.Coherent sha256 protocol := by
      intro memory hsome
      rw [hmemory, Option.mem_some_iff] at hsome
      rw [hboundary, ← hsome]
      exact hchecked.finalMemory
    constructor
    · rintro ⟨last, hrun, hlast⟩
      cases hrun with
      | @cons _ next _ _ _ hstep htail =>
        obtain ⟨hindex, hinitial, hchecked, htransitions, hrows, hnext, hboundary, hmemory⟩ :=
          (verifyNext_eq_ok hcoherent).mp hstep
        obtain ⟨hchain, hsums⟩ :=
          (ih (hnextCoherent hchecked hboundary hmemory)).mp ⟨last, htail, hlast⟩
        rw [hnext, hboundary] at hchain
        rw [htransitions, hrows]
        exact ⟨⟨hindex, hinitial, hchecked, hchain⟩, hsums⟩
    · rintro ⟨⟨hindex, hinitial, hchecked, hchain⟩, htransitions, hrows⟩
      -- the sums do not overflow on the way, since they do not in the end
      have hlt := transitions.toNat_lt
      have hlt' := rows.toNat_lt
      let next : ChainProgress akita := ⟨progress.index + 1, segment.finalBoundary,
        .ofNat (progress.transitions.toNat + segment.transitionCount.toNat),
        .ofNat (progress.rows.toNat + segment.activeRowCount.toNat), some segment.finalMemory⟩
      have htransitionsNext : next.transitions.toNat =
          progress.transitions.toNat + segment.transitionCount.toNat := by
        show (UInt64.ofNat _).toNat = _
        rw [UInt64.toNat_ofNat', Nat.mod_eq_of_lt (by omega)]
      have hrowsNext : next.rows.toNat =
          progress.rows.toNat + segment.activeRowCount.toNat := by
        show (UInt64.ofNat _).toNat = _
        rw [UInt64.toNat_ofNat', Nat.mod_eq_of_lt (by omega)]
      obtain ⟨last, htail, hlast⟩ := (@ih next (hnextCoherent hchecked rfl rfl)).mpr
        ⟨hchain, by rw [htransitionsNext]; exact htransitions, by rw [hrowsNext]; exact hrows⟩
      exact ⟨last, .cons ((verifyNext_eq_ok hcoherent).mpr ⟨hindex, hinitial, hchecked,
        htransitionsNext.symm, hrowsNext.symm, rfl, rfl, rfl⟩) htail, hlast⟩

/-! ## What is checked of a receipt -/

/-- A receipt of a statement: the statement is valid, the ROM commitment and the number of segments
are the stated ones, and the segments are a chain from the first stated boundary to the last, with
the stated totals. -/
structure AcceptedReceipt (sha256 : List Byte → Digest)
    (verifyComponents : NativeProtocolVersion → PackedBlockProof akita →
      PackedBlockVerificationInputs akita → Except PackedBlockProofError Unit)
    (receipt : NativeReceipt akita) (expected : NativeStatement) : Prop where
  statement_eq : receipt.statement = expected
  valid : expected.Valid sha256
  rom : directRomIdentityFor sha256 receipt.version receipt.rom = .ok expected.rom
  count : receipt.segments.length = expected.segmentCount.toNat
  chain : ChainChecked sha256 verifyComponents receipt.rom receipt.version 0 expected.initial
    receipt.segments expected.finalBoundary
  transitions : (receipt.segments.map (·.transitionCount.toNat)).sum =
    expected.transitionCount.toNat
  rows : (receipt.segments.map (·.activeRowCount.toNat)).sum = expected.relationRowCount.toNat

theorem ensureChainEnd_eq_ok {statement : NativeStatement} {progress : ChainProgress akita} :
    ensureChainEnd statement progress = .ok () ↔ progress.boundary = statement.finalBoundary ∧
      progress.transitions = statement.transitionCount ∧
      progress.rows = statement.relationRowCount := by
  simp only [ensureChainEnd, rejectIf_eq_ok, not_or, not_not, ne_eq]

theorem verifyReceiptStructure_eq_ok {receipt : NativeReceipt akita} :
    verifyReceiptStructure sha256 verifyComponents receipt = .ok () ↔
      directRomIdentityFor sha256 receipt.version receipt.rom = .ok receipt.statement.rom ∧
      receipt.segments.length = receipt.statement.segmentCount.toNat ∧
      ChainChecked sha256 verifyComponents receipt.rom receipt.version 0 receipt.statement.initial
        receipt.segments receipt.statement.finalBoundary ∧
      (receipt.segments.map (·.transitionCount.toNat)).sum =
        receipt.statement.transitionCount.toNat ∧
      (receipt.segments.map (·.activeRowCount.toNat)).sum =
        receipt.statement.relationRowCount.toNat := by
  have hchain := @verifyChain_eq_ok akita sha256 verifyComponents receipt.rom receipt.version
    receipt.segments (.start akita receipt.statement.initial) ChainProgress.start_coherent
    receipt.statement.finalBoundary receipt.statement.transitionCount
    receipt.statement.relationRowCount
  replace hchain := hchain.trans (and_congr_right fun _ => and_congr
    (Iff.of_eq (congrArg (· = _) (Nat.zero_add _))) (Iff.of_eq (congrArg (· = _) (Nat.zero_add _))))
  unfold verifyReceiptStructure
  simp only [Except.bind_eq_ok, ↓Except.check_eq_ok, rejectIf_eq_ok, not_or, not_not, ne_eq,
    ensureChainEnd_eq_ok]
  constructor
  · rintro ⟨_, hrom, ⟨rfl, hcount⟩, hrest⟩
    exact ⟨hrom, hcount, hchain.mp hrest⟩
  · rintro ⟨hrom, hcount, hrest⟩
    exact ⟨_, hrom, ⟨rfl, hcount⟩, hchain.mpr hrest⟩

theorem verifyNativeReceipt_eq_ok {receipt : NativeReceipt akita} {expected : NativeStatement}
    {verified : VerifiedNativeReceipt} :
    verifyNativeReceipt sha256 verifyComponents receipt expected = .ok verified ↔
      AcceptedReceipt sha256 verifyComponents receipt expected ∧
        verified = ⟨expected.statementId, expected.segmentCount⟩ := by
  unfold verifyNativeReceipt
  simp only [↓Except.check_eq_ok, rejectIf_eq_ok, not_or, not_not, ne_eq,
    verifyReceiptStructure_eq_ok, NativeStatement.validate_eq_ok]
  constructor
  · rintro ⟨hvalid, -, ⟨-, rfl⟩, ⟨hrom, hcount, hchain, htransitions, hrows⟩, h⟩
    exact ⟨⟨rfl, hvalid, hrom, hcount, hchain, htransitions, hrows⟩, (Except.ok.inj h).symm⟩
  · rintro ⟨⟨rfl, hvalid, hrom, hcount, hchain, htransitions, hrows⟩, rfl⟩
    exact ⟨hvalid, hvalid, ⟨trivial, rfl⟩,
      ⟨hrom, hcount, hchain, htransitions, hrows⟩, rfl⟩

/-! ## Totals of a receipt -/

/-- What the segments of an accepted receipt add up to. -/
structure Telescopes (sha256 : List Byte → Digest) (segments : List (NativeSegmentReceipt akita))
    (statement : NativeStatement) : Prop where
  length_pos : 1 ≤ segments.length
  length_le : segments.length ≤ maxNativeSegmentCount
  /-- A segment starts from the memory commitment that the one before it ends with. -/
  memory (index : ℕ) (h : index + 1 < segments.length) :
    directMemoryIdentityFor sha256 statement.protocol segments[index].finalMemory =
      directMemoryIdentityFor sha256 statement.protocol segments[index + 1].initialMemory
  rows (segment : NativeSegmentReceipt akita) : segment ∈ segments →
    1 ≤ segment.activeRowCount.toNat ∧ segment.activeRowCount.toNat ≤ uniformRowCount ∧
    segment.activeRowCount.toNat ≤ segment.transitionCount.toNat ∧
    segment.transitionCount.toNat ≤ segment.activeRowCount.toNat * basicBlockInstructionBound
  mCycles : (segments.map (·.mCycleCount.toNat)).sum = statement.mCycleCount.toNat
  logs (kind : ProtocolLogKind) :
    (segments.map (fun segment => (segment.logCounts.get kind).toNat)).sum =
      (statement.logs.get kind).toNat

theorem AcceptedReceipt.telescopes {receipt : NativeReceipt akita} {expected : NativeStatement}
    (h : AcceptedReceipt sha256 verifyComponents receipt expected) :
    Telescopes sha256 receipt.segments expected where
  length_pos := by
    have hcount := h.valid.segmentCount_ne
    rw [h.count]
    refine Nat.pos_of_ne_zero fun hzero => hcount (UInt64.toNat_inj.mp ?_)
    exact hzero
  length_le := h.count ▸ h.valid.segmentCount_le
  memory := by
    intro index hindex
    have hfinal := (h.chain.checked _ (List.getElem_mem (Nat.lt_of_succ_lt hindex))).finalMemory
    have hinitial := (h.chain.checked _ (List.getElem_mem hindex)).initialMemory
    rw [protocol_eq receipt.version, ← protocol_eq expected.protocol] at hfinal hinitial
    rw [hfinal, hinitial, h.chain.linked.adjacent hindex]
  rows := by
    intro segment hsegment
    have hchecked := h.chain.checked segment hsegment
    have hcapacity := hchecked.capacity
    exact ⟨hchecked.rows_pos, by omega, UInt64.le_iff_toNat_le.mp hchecked.rows_le,
      hchecked.transitions_le⟩
  mCycles := by
    have hsum := h.chain.linked.sum (·.mCycles.toNat) (·.mCycleCount.toNat)
      (fun segment hsegment => (h.chain.checked segment hsegment).mCycles)
    have hdelta := checkedDelta_eq_ok.mp h.valid.mCycleCount_eq
    exact Nat.add_left_cancel (hsum.trans hdelta.symm)
  logs := by
    intro kind
    have hsum := h.chain.linked.sum (fun boundary => (boundary.logCursor kind).toNat)
      (fun segment => (segment.logCounts.get kind).toNat)
      (fun segment hsegment => (h.chain.checked segment hsegment).logCounts kind)
    have hdelta := ProtocolLogCounts.between_eq_ok.mp h.valid.logs_eq kind
    exact Nat.add_left_cancel (hsum.trans hdelta.symm)

/-- A receipt is accepted for a statement exactly when it is one of that statement: its segments are
numbered from zero, each starts where the one before it ends, each passes its own checks, the first
starts and the last ends where the statement says, and the transitions and rows of all of them are
the stated ones. The machine cycles and the entries of the four logs then add up to the stated
totals as well, and nothing overflows on the way. -/
theorem accepted_receipt_telescopes (sha256 : List Byte → Digest)
    (verifyComponents : NativeProtocolVersion → PackedBlockProof akita →
      PackedBlockVerificationInputs akita → Except PackedBlockProofError Unit)
    (receipt : NativeReceipt akita) (expected : NativeStatement)
    (verified : VerifiedNativeReceipt) :
    verifyNativeReceipt sha256 verifyComponents receipt expected = .ok verified ↔
      AcceptedReceipt sha256 verifyComponents receipt expected ∧
      Telescopes sha256 receipt.segments expected ∧
      verified = ⟨expected.statementId, expected.segmentCount⟩ := by
  rw [verifyNativeReceipt_eq_ok]
  constructor
  · rintro ⟨haccepted, hverified⟩
    exact ⟨haccepted, haccepted.telescopes, hverified⟩
  · rintro ⟨haccepted, -, hverified⟩
    exact ⟨haccepted, hverified⟩

end Verify

end Zksm83
