import Zksm83.Receipt.Spool

/-!
# What a spool holds

The progress of a prover is what the verifier of its spool computes, apart from the proofs of the
segments. So failed appends leave nothing behind that counts, a finished receipt is accepted as soon
as the proofs in it are, and a prover that is taken up from its spool is the one that wrote it. Read
`failed_appends_dropped`, `finished_accepted` and `spool_resumed` first.
-/

namespace Zksm83

open Wire (fits)

/-! ## Proved segments -/

theorem NativeExecutionClaim.new_of_ok {activeRowCount transitionCount : UInt64}
    {initialState finalState : NativeStateBoundary} {claim : NativeExecutionClaim}
    (h : NativeExecutionClaim.new activeRowCount transitionCount initialState finalState =
      .ok claim) :
    claim = ⟨activeRowCount, transitionCount, initialState, finalState⟩ ∧
      0 < activeRowCount.toNat ∧ activeRowCount.toNat ≤ uniformRowCount ∧
      activeRowCount ≤ transitionCount ∧
      transitionCount.toNat ≤ activeRowCount.toNat * basicBlockInstructionBound := by
  obtain ⟨hvalid, h⟩ := Except.check_eq_ok.mp h
  cases h
  simp only [Continuity.validate] at hvalid
  split at hvalid
  · cases hvalid
  · split at hvalid
    · cases hvalid
    case isFalse hbounds =>
      rw [not_or, not_or, not_or, not_lt, not_lt, not_lt] at hbounds
      obtain ⟨hpositive, hrows, hleast, hmost⟩ := hbounds
      exact ⟨rfl, Nat.pos_of_ne_zero hpositive, hrows, UInt64.le_iff_toNat_le.mpr hleast, hmost⟩

theorem NativeExecutionClaim.fromPackedTrace_of_ok {trace : PackedTrace}
    {claim : NativeExecutionClaim} (h : fromPackedTrace trace = .ok claim) :
    claim = ⟨.ofNat trace.witness.activeBlockCount, .ofNat trace.transitionCount,
      trace.initialState, trace.finalState⟩ ∧
      claim.transitionCount.toNat = trace.transitionCount ∧
      0 < claim.activeRowCount.toNat ∧ claim.activeRowCount.toNat ≤ uniformRowCount ∧
      claim.activeRowCount ≤ claim.transitionCount ∧
      claim.transitionCount.toNat ≤ claim.activeRowCount.toNat * basicBlockInstructionBound := by
  obtain ⟨-, h⟩ := Except.check_eq_ok.mp h
  obtain ⟨hword, h⟩ := Except.check_eq_ok.mp h
  obtain ⟨rfl, hbounds⟩ := NativeExecutionClaim.new_of_ok h
  refine ⟨rfl, ?_, hbounds⟩
  show (UInt64.ofNat trace.transitionCount).toNat = _
  rw [UInt64.toNat_ofNat', Nat.mod_eq_of_lt (not_le.mp (rejectIf_eq_ok.mp hword))]

namespace Logs

/-- The claim that a trace makes about its logs, and what it has checked. -/
theorem PackedProtocolLogClaim.validate_of_fromTrace {witness : BlockCpuWitness}
    {execution : NativeExecutionClaim} {claim : PackedProtocolLogClaim}
    (h : PackedProtocolLogClaim.fromTrace witness execution = .ok claim) :
    claim.validate execution = .ok () := by
  unfold PackedProtocolLogClaim.fromTrace at h
  split at h
  · cases h
  · obtain ⟨hvalid, h⟩ := Except.check_eq_ok.mp h
    cases h
    exact hvalid

end Logs

theorem ProtocolLogCounts.packed_of_ok {initial finalState : NativeStateBoundary}
    {bus isa : UInt64} {counts : ProtocolLogCounts}
    (h : packed initial finalState bus isa = .ok counts) : counts.bus = bus ∧ counts.isa = isa := by
  obtain ⟨input, -, h⟩ := Except.bind_eq_ok.mp h
  obtain ⟨output, -, h⟩ := Except.bind_eq_ok.mp h
  cases h
  exact ⟨rfl, rfl⟩

theorem NativeBoundary.advanceFor_eq_ok {akita : Akita} {sha256 : List Byte → Digest}
    {protocol : NativeProtocolVersion} {boundary next : NativeBoundary}
    {state : NativeStateBoundary} {memory : CommitmentIdentity}
    {logs : ProtocolLogCommitments akita} {index : UInt64} {counts : ProtocolLogCounts}
    (h : boundary.advanceFor sha256 protocol state memory logs index counts = .ok next) :
    next.state = state ∧ next.memory = memory ∧ next.validateFor sha256 protocol = .ok () := by
  obtain ⟨identities, -, h⟩ := Except.bind_eq_ok.mp h
  obtain ⟨hvalid, h⟩ := Except.check_eq_ok.mp h
  cases h
  exact ⟨rfl, rfl, hvalid⟩

theorem NativeBoundary.initialFor_eq_ok {akita : Akita} {sha256 : List Byte → Digest}
    {protocol : NativeProtocolVersion} {boundary : NativeBoundary} {state : NativeStateBoundary}
    {memory : MemoryCommitment akita}
    (h : initialFor sha256 protocol state memory = .ok boundary) :
    boundary.state = state ∧ boundary.validateFor sha256 protocol = .ok () := by
  obtain ⟨identity, -, h⟩ := Except.bind_eq_ok.mp h
  obtain ⟨-, h⟩ := Except.check_eq_ok.mp h
  obtain ⟨hvalid, h⟩ := Except.check_eq_ok.mp h
  cases h
  exact ⟨rfl, hvalid⟩

theorem boundary_fits (boundary : NativeBoundary) : fits boundary := by
  simp [Wire.fits]

section Prove

variable {sha256 : List Byte → Digest} {akita : Akita} {Columns : Type}
  {library : ProverLibrary akita Columns}

/-- A segment states what its witness shows, under an index and from a boundary. -/
structure NativeSegmentReceipt.Shows (segment : NativeSegmentReceipt akita) (index : ℕ)
    (initial : NativeBoundary) (witness : NativeSegmentWitness akita Columns) : Prop where
  index_eq : segment.segmentIndex.toNat = index
  initial_eq : segment.initial = initial
  initialState : segment.initial.state = witness.trace.initialState
  finalState : segment.finalBoundary.state = witness.trace.finalState
  initialMemory : segment.initialMemory = witness.initialMemory.commitment
  finalMemory : segment.finalMemory = witness.finalMemory.commitment
  transitions : segment.transitionCount.toNat = witness.trace.transitionCount
  fits : fits segment

/-- A segment that was proved from a valid boundary passes every check but that of its proof. -/
theorem proveSegment_checked {index : ℕ} {initial finalBoundary : NativeBoundary}
    {witness : NativeSegmentWitness akita Columns} {rom : CommittedRom akita Columns}
    {segment : NativeSegmentReceipt akita}
    (hvalid : initial.validateFor sha256 .current = .ok ())
    (h : proveSegment sha256 library index initial witness rom = .ok (segment, finalBoundary)) :
    segment.finalBoundary = finalBoundary ∧ segment.Shows index initial witness ∧
      SegmentChecked sha256 trustComponents rom.commitment .current segment := by
  unfold proveSegment at h
  obtain ⟨claim, hclaim, h⟩ := Except.bind_eq_ok.mp h
  obtain ⟨initialMemory, hinitialMemory, h⟩ := Except.bind_eq_ok.mp h
  obtain ⟨hstart, h⟩ := Except.check_eq_ok.mp h
  obtain ⟨logs, hlogs, h⟩ := Except.bind_eq_ok.mp h
  obtain ⟨logClaim, hlogClaim, h⟩ := Except.bind_eq_ok.mp h
  obtain ⟨hindex, h⟩ := Except.check_eq_ok.mp h
  obtain ⟨finalMemory, hfinalMemory, h⟩ := Except.bind_eq_ok.mp h
  obtain ⟨counts, hcounts, h⟩ := Except.bind_eq_ok.mp h
  obtain ⟨boundary, hadvance, h⟩ := Except.bind_eq_ok.mp h
  obtain ⟨proof, hproof, h⟩ := Except.bind_eq_ok.mp h
  obtain ⟨hcapacity, h⟩ := Except.check_eq_ok.mp h
  obtain ⟨cycles, hcycles, h⟩ := Except.bind_eq_ok.mp h
  obtain ⟨committed, hcommitted, h⟩ := Except.bind_eq_ok.mp h
  obtain ⟨hsame, h⟩ := Except.check_eq_ok.mp h
  cases h
  rw [Except.mapError_eq_ok] at hclaim hinitialMemory hlogClaim hfinalMemory hcounts
  rw [Except.mapError_eq_ok] at hadvance hcycles hcommitted
  rw [rejectIf_eq_ok] at hstart hindex hcapacity hsame
  obtain ⟨hstate, hmemory⟩ := not_or.mp hstart
  obtain rfl := not_not.mp hsame
  obtain ⟨hfinalState, hfinalIdentity, hfinalValid⟩ := NativeBoundary.advanceFor_eq_ok hadvance
  obtain ⟨rfl, htransitions, hpositive, hrows, hleast, hmost⟩ :=
    NativeExecutionClaim.fromPackedTrace_of_ok hclaim
  have hlogValid := Logs.PackedProtocolLogClaim.validate_of_fromTrace hlogClaim
  have hindexWord : (UInt64.ofNat index).toNat = index := by
    rw [UInt64.toNat_ofNat', Nat.mod_eq_of_lt (not_le.mp hindex)]
  have hpadded (active : ℕ) :
      (UInt64.ofNat (uniformRowCount - active)).toNat = uniformRowCount - active := by
    rw [UInt64.toNat_ofNat', Nat.mod_eq_of_lt ((Nat.sub_le _ _).trans_lt (by decide))]
  refine ⟨rfl, ?_, ?_⟩
  · exact {
      index_eq := hindexWord
      initial_eq := rfl
      initialState := not_not.mp hstate
      finalState := hfinalState
      initialMemory := rfl
      finalMemory := rfl
      transitions := htransitions
      fits := ⟨trivial, trivial, trivial, trivial, boundary_fits _, boundary_fits _,
        witness.initialMemory.fits, witness.finalMemory.fits, logs.fits, trivial,
        ⟨trivial, trivial, trivial, trivial⟩, proof.fits⟩ }
  · exact {
      rows_pos := hpositive
      capacity := by
        show _ + (UInt64.ofNat _).toNat = _
        rw [hpadded]
        exact Nat.add_sub_cancel' hrows
      rows_le := hleast
      transitions_le := hmost
      initialMemory := by rw [not_not.mp hmemory]; exact hinitialMemory
      finalMemory := by rw [hfinalIdentity]; exact hfinalMemory
      initial := hvalid
      finalBoundary := hfinalValid
      advance := by rw [hfinalState, hfinalIdentity]; exact hadvance
      mCycles := checkedDelta_eq_ok.mp hcycles
      logCounts := ProtocolLogCounts.between_eq_ok.mp hcommitted
      logClaim := by
        obtain ⟨hbus, hisa⟩ := ProtocolLogCounts.packed_of_ok hcounts
        show Logs.PackedProtocolLogClaim.validate ⟨committed.bus, committed.isa⟩
          ⟨_, _, initial.state, finalBoundary.state⟩ = .ok ()
        rw [hbus, hisa, not_not.mp hstate, hfinalState]
        exact hlogValid
      components := rfl }

/-- A frame holds the encoding of a segment that passes every check but that of its proof. -/
theorem proveFrame_checked {index : ℕ} {initial : NativeBoundary}
    {witness : NativeSegmentWitness akita Columns} {rom : CommittedRom akita Columns}
    {fault : SpoolFault} {proved : ProvedFrame akita}
    (hvalid : initial.validateFor sha256 .current = .ok ())
    (h : proveFrame sha256 library index initial witness rom fault = .ok proved) :
    encodeSegment proved.receipt = .ok proved.encoded ∧
      proved.receipt.finalBoundary = proved.finalBoundary ∧
      proved.receipt.Shows index initial witness ∧
      SegmentChecked sha256 trustComponents rom.commitment .current proved.receipt := by
  have hframe : encodeSegment proved.receipt = .ok proved.encoded ∧ proveSegment sha256 library
      index initial witness rom = .ok (proved.receipt, proved.finalBoundary) := by
    cases fault with
    | workerSpawn => cases h
    | workerPanicked => cases h
    | none | seek | write =>
      obtain ⟨⟨receipt, finalBoundary⟩, hsegment, h⟩ := Except.of_bind_eq_ok h
      obtain ⟨encoded, hencode, h⟩ := Except.of_bind_eq_ok h
      cases h
      exact ⟨Except.mapError_eq_ok.mp hencode, hsegment⟩
  exact ⟨hframe.1, proveSegment_checked hvalid hframe.2⟩

end Prove

section Prepare

variable {sha256 : List Byte → Digest} {akita : Akita} {Columns : Type}
  {library : ProverLibrary akita Columns}

namespace NativeReceiptStreamProver

variable {prover next : NativeReceiptStreamProver akita Columns}

/-- The progress of a prover, as its spool has to show it. -/
def progress (prover : NativeReceiptStreamProver akita Columns) : SpoolProgress akita :=
  ⟨prover.initial, prover.boundary, prover.previousMemory, prover.segmentCount,
    prover.transitionCount, prover.relationRowCount⟩

theorem extend_eq_ok {proved : ProvedFrame akita} {frame : List Byte}
    (h : prover.extend proved = .ok (frame, next)) :
    frame = leBytes 8 proved.encoded.length ++ proved.encoded ∧ next.spool = prover.spool ∧
      next.rom = prover.rom ∧
      next.spoolBytes.toNat = prover.spoolBytes.toNat + frame.length ∧
      next.spoolBytes.toNat ≤ maxNativeStreamReceiptBytes ∧
      checkedAdd prover.transitionCount proved.receipt.transitionCount =
        .ok next.transitionCount ∧
      checkedAdd prover.relationRowCount proved.receipt.activeRowCount =
        .ok next.relationRowCount ∧
      checkedAdd prover.segmentCount 1 = .ok next.segmentCount ∧
      next.progress = { next.progress with
        initial := some (prover.initial.getD proved.receipt.initial)
        boundary := some proved.finalBoundary
        previousMemory := some proved.receipt.finalMemory } := by
  unfold extend at h
  obtain ⟨hword, h⟩ := Except.check_eq_ok.mp h
  obtain ⟨hwithin, h⟩ := Except.check_eq_ok.mp h
  obtain ⟨transitions, htransitions, h⟩ := Except.bind_eq_ok.mp h
  obtain ⟨rows, hrows, h⟩ := Except.bind_eq_ok.mp h
  obtain ⟨count, hcount, h⟩ := Except.bind_eq_ok.mp h
  cases h
  rw [Except.mapError_eq_ok] at htransitions hrows hcount
  rw [rejectIf_eq_ok] at hword hwithin
  have hbytes : (UInt64.ofNat (prover.spoolBytes.toNat +
      (leBytes 8 proved.encoded.length ++ proved.encoded).length)).toNat = prover.spoolBytes.toNat +
      (leBytes 8 proved.encoded.length ++ proved.encoded).length := by
    rw [UInt64.toNat_ofNat', Nat.mod_eq_of_lt (not_le.mp hword)]
  exact ⟨rfl, rfl, rfl, hbytes, hbytes.trans_le (not_lt.mp hwithin), htransitions, hrows, hcount,
    rfl⟩

/-- The parts of what an append does before it writes. -/
theorem prepare_parts {witness : NativeSegmentWitness akita Columns} {fault : SpoolFault}
    {frame : List Byte} (h : prover.prepare sha256 library witness fault = .ok (frame, next)) :
    ∃ boundary proved, prover.segmentCount.toNat < maxNativeSegmentCount ∧
      (match prover.previousMemory with
        | some memory => (ensureSameMemory sha256 memory witness.initialMemory.commitment
            .current).mapError NativeProverError.receipt
        | none => .ok ()) = .ok () ∧
      (match prover.boundary with
        | some boundary => Except.ok boundary
        | none => (NativeBoundary.initialFor sha256 .current witness.trace.initialState
            witness.initialMemory.commitment).mapError NativeProverError.receipt) = .ok boundary ∧
      proveFrame sha256 library prover.segmentCount.toNat boundary witness prover.rom fault =
        .ok proved ∧
      prover.extend proved = .ok (frame, next) := by
  have hsplit : prover.prepare sha256 library witness fault = (do
      rejectIf (maxNativeSegmentCount ≤ prover.segmentCount.toNat) (.receipt .invalidStatement)
      (match prover.previousMemory with
        | some memory => (ensureSameMemory sha256 memory witness.initialMemory.commitment
            .current).mapError NativeProverError.receipt
        | none => .ok ())
      let boundary ← (match prover.boundary with
        | some boundary => .ok boundary
        | none => (NativeBoundary.initialFor sha256 .current witness.trace.initialState
            witness.initialMemory.commitment).mapError .receipt)
      let proved ← proveFrame sha256 library prover.segmentCount.toNat boundary witness prover.rom
        fault
      prover.extend proved) := by
    unfold prepare
    cases prover.previousMemory <;> cases prover.boundary <;> rfl
  rw [hsplit] at h
  obtain ⟨hcount, h⟩ := Except.check_eq_ok.mp h
  obtain ⟨hmemory, h⟩ := Except.check_eq_ok.mp h
  obtain ⟨boundary, hboundary, h⟩ := Except.bind_eq_ok.mp h
  obtain ⟨proved, hproved, h⟩ := Except.bind_eq_ok.mp h
  exact ⟨boundary, proved, not_le.mp (rejectIf_eq_ok.mp hcount), hmemory, hboundary, hproved, h⟩

/-- What a prover is about to append is a frame that continues its spool. -/
theorem prepare_eq_ok {witness : NativeSegmentWitness akita Columns} {fault : SpoolFault}
    {frame : List Byte}
    (hvalid : ∀ boundary ∈ prover.boundary, boundary.validateFor sha256 .current = .ok ())
    (h : prover.prepare sha256 library witness fault = .ok (frame, next)) :
    prover.segmentCount.toNat < maxNativeSegmentCount ∧ next.rom = prover.rom ∧
      next.spool = prover.spool ∧
      next.spoolBytes.toNat = prover.spoolBytes.toNat + frame.length ∧
      next.spoolBytes.toNat ≤ maxNativeStreamReceiptBytes ∧
      ∃ segment boundary, segment.Shows prover.segmentCount.toNat boundary witness ∧
        segmentFrame.encode segment = .ok frame ∧
        verifySpoolNext sha256 trustComponents prover.rom.commitment prover.progress segment =
          .ok next.progress := by
  obtain ⟨boundary, proved, hcount, hmemory, hboundary, hproved, h⟩ := prepare_parts h
  have hboundaryValid : boundary.validateFor sha256 .current = .ok () := by
    cases hcase : prover.boundary with
    | some before =>
      rw [hcase] at hboundary
      cases hboundary
      exact hvalid _ hcase
    | none =>
      rw [hcase] at hboundary
      exact (NativeBoundary.initialFor_eq_ok (Except.mapError_eq_ok.mp hboundary)).2
  obtain ⟨hencode, hfinal, hshows, hchecked⟩ := proveFrame_checked hboundaryValid hproved
  obtain ⟨rfl, hspool, hrom, hbytes, hwithin, htransitions, hrows, hcountNext, hprogress⟩ :=
    extend_eq_ok h
  refine ⟨hcount, hrom, hspool, hbytes, hwithin, proved.receipt, boundary, hshows,
    segmentFrame_encode hencode, verifySpoolNext_eq_ok.mpr ⟨⟨boundary, ?_, ?_, ?_⟩,
      htransitions, hrows, hcountNext, ?_⟩⟩
  · -- the boundary is the last one, or the first one of this witness
    unfold SpoolProgress.Expects
    cases hcase : prover.boundary with
    | some before =>
      rw [hcase] at hboundary
      cases hboundary
      exact .inl hcase
    | none =>
      rw [hcase] at hboundary
      rw [hshows.initialState, hshows.initialMemory]
      exact .inr ⟨hcase, Except.mapError_eq_ok.mp hboundary⟩
  · intro memory hprevious
    obtain hprevious : prover.previousMemory = some memory := hprevious
    rw [hprevious] at hmemory
    rw [hshows.initialMemory]
    exact Except.mapError_eq_ok.mp hmemory
  · exact verifySegment_eq_ok.mpr ⟨hshows.index_eq, hshows.initial_eq, hchecked⟩
  · rw [hprogress, hfinal]
    exact ⟨rfl, rfl, rfl⟩

variable {witness : NativeSegmentWitness akita Columns} {fault : SpoolFault}

/-- The prover with another spool. -/
def withSpool (prover : NativeReceiptStreamProver akita Columns) (spool : List Byte) :
    NativeReceiptStreamProver akita Columns :=
  { prover with spool := spool }

theorem extend_withSpool (spool : List Byte) (proved : ProvedFrame akita) :
    (prover.withSpool spool).extend proved =
      (fun result => (result.1, result.2.withSpool spool)) <$> prover.extend proved := by
  unfold extend
  simp only [map_bind, map_pure]
  rfl

/-- What an append does before it writes does not depend on the content of the spool. -/
theorem prepare_withSpool (spool : List Byte) :
    (prover.withSpool spool).prepare sha256 library witness fault =
      (fun result => (result.1, result.2.withSpool spool)) <$>
        prover.prepare sha256 library witness fault := by
  have hfields : (prover.withSpool spool).previousMemory = prover.previousMemory ∧
      (prover.withSpool spool).boundary = prover.boundary := ⟨rfl, rfl⟩
  unfold prepare
  rw [hfields.1, hfields.2]
  cases prover.previousMemory <;> cases prover.boundary <;>
    simp only [map_bind, ← extend_withSpool] <;> rfl

/-- The content of a file in front of a position is not changed by a write behind it. -/
theorem take_writeAt {content bytes : List Byte} {position : ℕ}
    (hposition : position ≤ content.length) :
    (writeAt content position bytes).take position = content.take position := by
  rw [writeAt, List.append_assoc, List.take_append_of_le_length (by rw [List.length_take]; omega),
    List.take_take, Nat.min_self]

theorem take_writeAt_add {content bytes : List Byte} {position : ℕ}
    (hposition : position ≤ content.length) :
    (writeAt content position bytes).take (position + bytes.length) =
      content.take position ++ bytes := by
  have hlength : (content.take position ++ bytes).length = position + bytes.length := by
    rw [List.length_append, List.length_take, Nat.min_eq_left hposition]
  rw [writeAt, ← hlength, List.take_left]

theorem length_writeAt {content bytes : List Byte} {position : ℕ}
    (hposition : position ≤ content.length) :
    position + bytes.length ≤ (writeAt content position bytes).length := by
  rw [writeAt, List.length_append, List.length_append, List.length_take,
    Nat.min_eq_left hposition]
  exact Nat.le_add_right _ _

/-- The prover whose spool ends where its frames do. -/
def logical (prover : NativeReceiptStreamProver akita Columns) :
    NativeReceiptStreamProver akita Columns :=
  prover.withSpool (prover.spool.take prover.spoolBytes.toNat)

/-- The frames of a prover are in its spool. -/
def Spooled (prover : NativeReceiptStreamProver akita Columns) : Prop :=
  prover.spoolBytes.toNat ≤ prover.spool.length

/-- One attempt to append a segment, and what goes wrong in it. -/
abbrev Call (akita : Akita) (Columns : Type) : Type :=
  NativeSegmentWitness akita Columns × SpoolFault

def appendCall (sha256 : List Byte → Digest) (library : ProverLibrary akita Columns)
    (prover : NativeReceiptStreamProver akita Columns) (call : Call akita Columns) :
    Except NativeProverError Unit × NativeReceiptStreamProver akita Columns :=
  prover.append sha256 library call.1 call.2

/-- An append that fails without a trace. -/
def appendFrame (sha256 : List Byte → Digest) (library : ProverLibrary akita Columns)
    (prover : NativeReceiptStreamProver akita Columns) (call : Call akita Columns) :
    Except NativeProverError (NativeReceiptStreamProver akita Columns) :=
  match prover.prepare sha256 library call.1 call.2 with
  | .error error => .error error
  | .ok (frame, next) =>
    match call.2 with
    | .seek message | .write _ message => .error (.receipt (.io message))
    | _ => .ok (next.withSpool (prover.spool ++ frame))

theorem prepare_spool {frame : List Byte}
    (h : prover.prepare sha256 library witness fault = .ok (frame, next)) :
    next.spoolBytes.toNat = prover.spoolBytes.toNat + frame.length ∧ next.spool = prover.spool := by
  obtain ⟨boundary, proved, -, -, -, -, h⟩ := prepare_parts h
  obtain ⟨-, hspool, -, hbytes, -⟩ := extend_eq_ok h
  exact ⟨hbytes, hspool⟩

theorem prepare_logical :
    prover.logical.prepare sha256 library witness fault =
      (fun result => (result.1, result.2.withSpool prover.logical.spool)) <$>
        prover.prepare sha256 library witness fault :=
  prepare_withSpool _

/-- What is logical of a prover that has written a frame. -/
theorem logical_written {frame : List Byte} (hspooled : prover.Spooled)
    (h : prover.prepare sha256 library witness fault = .ok (frame, next)) :
    ({ next with spool := writeAt prover.spool prover.spoolBytes.toNat frame } :
      NativeReceiptStreamProver akita Columns).logical =
      next.withSpool (prover.logical.spool ++ frame) := by
  obtain ⟨hbytes, -⟩ := prepare_spool h
  unfold logical withSpool
  simp only [hbytes, take_writeAt_add hspooled]

/-- What is logical of a prover that has written a part of a frame. -/
theorem logical_torn {bytes : List Byte} (hspooled : prover.Spooled) :
    ({ prover with spool := writeAt prover.spool prover.spoolBytes.toNat bytes } :
      NativeReceiptStreamProver akita Columns).logical = prover.logical := by
  unfold logical withSpool
  simp only [take_writeAt hspooled]

/-- An append is an append without a trace of the frames that are there, and leaves them there. -/
theorem append_transactional (sha256 : List Byte → Digest) (library : ProverLibrary akita Columns) :
    Transactional (appendCall sha256 library) Spooled logical (appendFrame sha256 library) where
  keeps := by
    intro prover call hspooled
    obtain ⟨witness, fault⟩ := call
    unfold appendCall append
    cases hprepare : prover.prepare sha256 library witness fault with
    | error error => exact hspooled
    | ok result =>
      obtain ⟨frame, next⟩ := result
      have hwritten : ({ next with spool := writeAt prover.spool prover.spoolBytes.toNat frame } :
          NativeReceiptStreamProver akita Columns).Spooled :=
        (prepare_spool hprepare).1.trans_le (length_writeAt hspooled)
      cases fault with
      | none | workerSpawn | workerPanicked => exact hwritten
      | seek message => exact hspooled
      | write written message =>
        exact (Nat.le_add_right _ _).trans (length_writeAt hspooled)
  ok := by
    intro prover call hspooled hok
    obtain ⟨witness, fault⟩ := call
    unfold appendCall append at hok ⊢
    unfold appendFrame
    rw [prepare_logical]
    cases hprepare : prover.prepare sha256 library witness fault with
    | error error =>
      rw [hprepare] at hok
      cases hok
    | ok result =>
      obtain ⟨frame, next⟩ := result
      rw [hprepare] at hok
      cases fault with
      | none | workerSpawn | workerPanicked =>
        exact congrArg Except.ok (logical_written hspooled hprepare).symm
      | seek | write => cases hok
  error := by
    intro prover call error hspooled herror
    obtain ⟨witness, fault⟩ := call
    unfold appendCall append at herror ⊢
    unfold appendFrame
    rw [prepare_logical]
    cases hprepare : prover.prepare sha256 library witness fault with
    | error error' =>
      rw [hprepare] at herror
      cases herror
      exact ⟨rfl, rfl⟩
    | ok result =>
      obtain ⟨frame, next⟩ := result
      rw [hprepare] at herror
      cases fault with
      | none | workerSpawn | workerPanicked => cases herror
      | seek message =>
        cases herror
        exact ⟨rfl, rfl⟩
      | write written message =>
        cases herror
        exact ⟨rfl, logical_torn hspooled⟩

/-! ## The segments of a spool -/

/-- The prover with an empty spool. -/
def start (rom : CommittedRom akita Columns) : NativeReceiptStreamProver akita Columns :=
  ⟨rom, [], none, none, none, 0, 0, 0, 0⟩

/-- The spool of a prover holds the frames of some segments, and the progress of the prover is what
their verification shows, apart from the proofs in them. -/
structure Holds (sha256 : List Byte → Digest) (prover : NativeReceiptStreamProver akita Columns)
    (segments : List (NativeSegmentReceipt akita)) : Prop where
  frames : segmentFrame.encodeMany segments = .ok prover.spool
  length_eq : prover.spool.length = prover.spoolBytes.toNat
  bytes_le : prover.spoolBytes.toNat ≤ maxNativeStreamReceiptBytes
  count_le : segments.length ≤ maxNativeSegmentCount
  fits (segment : NativeSegmentReceipt akita) : segment ∈ segments → fits segment
  verified : segments.foldlM (verifySpoolNext sha256 trustComponents prover.rom.commitment)
    (.start akita) = .ok prover.progress

theorem start_spooled {rom : CommittedRom akita Columns} : (start rom).Spooled := Nat.zero_le _

theorem start_holds {rom : CommittedRom akita Columns} : (start rom).Holds sha256 [] where
  frames := rfl
  length_eq := rfl
  bytes_le := Nat.zero_le _
  count_le := Nat.zero_le _
  fits := by
    intro segment hmem
    cases hmem
  verified := rfl

theorem logical_logical : prover.logical.logical = prover.logical := by
  unfold logical withSpool
  simp only [List.take_take, Nat.min_self]

/-- An append adds one segment to those of a spool, and the segment shows what its witness does. -/
theorem Holds.append {segments : List (NativeSegmentReceipt akita)}
    (h : prover.Holds sha256 segments) {call : Call akita Columns}
    (hstep : prover.appendFrame sha256 library call = .ok next) :
    ∃ segment boundary, next.Holds sha256 (segments ++ [segment]) ∧ next.rom = prover.rom ∧
      segment.Shows prover.segmentCount.toNat boundary call.1 ∧
      verifySpoolNext sha256 trustComponents prover.rom.commitment prover.progress segment =
        .ok next.progress := by
  have hcount : segments.length = prover.segmentCount.toNat :=
    ((verifySpool_count h.verified).trans (Nat.zero_add _)).symm
  unfold appendFrame at hstep
  cases hprepare : prover.prepare sha256 library call.1 call.2 with
  | error error =>
    rw [hprepare] at hstep
    cases hstep
  | ok result =>
    obtain ⟨frame, extended⟩ := result
    obtain ⟨hroom, hrom, -, hbytes, hwithin, segment, boundary, hshows, hframe, hverified⟩ :=
      prepare_eq_ok (verifySpool_valid h.verified) hprepare
    obtain rfl : extended.withSpool (prover.spool ++ frame) = next := by
      rw [hprepare] at hstep
      obtain ⟨witness, fault⟩ := call
      cases fault with
      | none | workerSpawn | workerPanicked => exact Except.ok.inj hstep
      | seek | write => cases hstep
    refine ⟨segment, boundary, ⟨?_, ?_, hwithin, ?_, ?_, ?_⟩, hrom, hshows, hverified⟩
    · have hlast : segmentFrame.encodeMany [segment] = .ok frame := by
        refine Except.bind_eq_ok.mpr ⟨frame, hframe, Except.bind_eq_ok.mpr ⟨[], rfl, ?_⟩⟩
        rw [List.append_nil]
        rfl
      exact Codec.encodeMany_append _ h.frames hlast
    · show (prover.spool ++ frame).length = extended.spoolBytes.toNat
      rw [List.length_append, h.length_eq, hbytes]
    · rw [List.length_append, hcount]
      exact hroom
    · intro other hmem
      rcases List.mem_append.mp hmem with hmem | hmem
      · exact h.fits other hmem
      · rw [List.mem_singleton.mp hmem]
        exact hshows.fits
    · rw [List.foldlM_append]
      show List.foldlM (verifySpoolNext sha256 trustComponents extended.rom.commitment) _ _ >>= _ =
        _
      rw [hrom]
      refine Except.bind_eq_ok.mpr ⟨_, h.verified, ?_⟩
      rw [List.foldlM_cons]
      exact Except.bind_eq_ok.mpr ⟨_, hverified, rfl⟩

theorem Holds.run {segments : List (NativeSegmentReceipt akita)}
    (h : prover.Holds sha256 segments) {calls : List (Call akita Columns)}
    (hrun : calls.foldlM (appendFrame sha256 library) prover = .ok next) :
    ∃ more, more.length = calls.length ∧ next.Holds sha256 (segments ++ more) ∧
      next.rom = prover.rom := by
  induction calls generalizing prover segments with
  | nil =>
    cases hrun
    exact ⟨[], rfl, by rwa [List.append_nil], rfl⟩
  | cons call calls ih =>
    rw [List.foldlM_cons] at hrun
    obtain ⟨middle, hstep, hrun⟩ := Except.bind_eq_ok.mp hrun
    obtain ⟨segment, -, hmiddle, hrom, -⟩ := h.append hstep
    obtain ⟨more, hlength, hnext, hrom'⟩ := ih hmiddle hrun
    rw [List.append_assoc] at hnext
    exact ⟨[segment] ++ more, by rw [List.length_append, hlength, Nat.add_comm]; rfl, hnext,
      hrom'.trans hrom⟩

/-- Whatever is attempted, the spool holds one segment for each append that succeeded. -/
theorem exists_held (sha256 : List Byte → Digest) (library : ProverLibrary akita Columns)
    (rom : CommittedRom akita Columns) (calls : List (Call akita Columns)) :
    ∃ segments, segments.length =
        (succeeded (appendCall sha256 library) (start rom) calls).length ∧
      (attemptAll (appendCall sha256 library) (start rom) calls).logical.Holds sha256 segments ∧
      (attemptAll (appendCall sha256 library) (start rom) calls).rom = rom := by
  have hrun : (succeeded (appendCall sha256 library) (start rom) calls).foldlM
      (appendFrame sha256 library) (start rom).logical =
        .ok (attemptAll (appendCall sha256 library) (start rom) calls).logical :=
    (append_transactional sha256 library).run start_spooled
  obtain ⟨segments, hlength, hholds, hrom⟩ := start_holds.run hrun
  exact ⟨segments, hlength, hholds, hrom⟩

/-! ## The finished receipt -/

theorem finish_eq_ok {statement : NativeStatement} {output : List Byte} :
    prover.finish sha256 = .ok (statement, output) ↔
      ∃ first final romIdentity statementBytes romBytes, prover.initial = some first ∧
        prover.boundary = some final ∧
        directRomIdentityFor sha256 .current prover.rom.commitment = .ok romIdentity ∧
        NativeStatement.newFor sha256 .current romIdentity first final prover.segmentCount
          prover.transitionCount prover.relationRowCount = .ok statement ∧
        encodeStatement statement = .ok statementBytes ∧
        encodeRom prover.rom.commitment = .ok romBytes ∧
        40 + (statementBytes.length + romBytes.length) + prover.spoolBytes.toNat ≤
          maxNativeStreamReceiptBytes ∧
        prover.Spooled ∧
        output = receiptFront statement.protocol ++
          ((leBytes 8 statementBytes.length ++ statementBytes) ++
            ((leBytes 8 romBytes.length ++ romBytes) ++ (leBytes 8 prover.segmentCount.toNat ++
              prover.spool.take prover.spoolBytes.toNat))) := by
  have hlimit : maxNativeStreamReceiptBytes < 2 ^ 64 := by decide
  have hspooled : (prover.spool.take prover.spoolBytes.toNat).length = prover.spoolBytes.toNat ↔
      prover.Spooled := by
    rw [List.length_take, min_eq_left_iff]
    rfl
  unfold finish
  simp only [Except.bind_eq_ok, ↓Except.check_eq_ok, rejectIf_eq_ok, someOr_eq_ok, not_le, not_lt,
    not_not, ne_eq, hspooled]
  constructor
  · rintro ⟨first, hfirst, final, hfinal, romIdentity, hrom, statement', hstatement,
      statementBytes, hencode, romBytes, hromBytes, -, hsize, hheld, h⟩
    cases h
    refine ⟨first, final, romIdentity, statementBytes, romBytes, hfirst, hfinal, hrom, hstatement,
      hencode, hromBytes, hsize, hheld, ?_⟩
    simp only [receiptFront, List.append_assoc]
  · rintro ⟨first, final, romIdentity, statementBytes, romBytes, hfirst, hfinal, hrom, hstatement,
      hencode, hromBytes, hsize, hheld, rfl⟩
    refine ⟨first, hfirst, final, hfinal, romIdentity, hrom, statement, hstatement,
      statementBytes, hencode, romBytes, hromBytes, by omega, hsize, hheld, ?_⟩
    simp only [receiptFront, List.append_assoc]
    rfl

/-- What stands behind the front of a finished receipt: the fields of a receipt of the segments in
the spool. -/
theorem finish_fields {segments : List (NativeSegmentReceipt akita)}
    (hholds : prover.logical.Holds sha256 segments) {statement : NativeStatement}
    {output : List Byte} (hfinish : prover.finish sha256 = .ok (statement, output)) :
    ∃ fields, output = receiptFront statement.protocol ++ fields ∧
      receiptFields.decode fields = .ok ((statement, prover.rom.commitment, segments), []) := by
  obtain ⟨first, final, romIdentity, statementBytes, romBytes, -, -, -, -, hencode, hrom, -, -,
    houtput⟩ := finish_eq_ok.mp hfinish
  have hcount : segments.length = prover.segmentCount.toNat :=
    ((verifySpool_count hholds.verified).trans (Nat.zero_add _)).symm
  have hstatementSize : statementBytes.length < 2 ^ 64 :=
    (encodeStatement_eq_ok.mp hencode).choose_spec.2.2.trans_lt (by decide)
  have hromSize : romBytes.length < 2 ^ 64 :=
    (encodeWire_eq_ok.mp hrom).2.trans_lt (by decide)
  have hstatementFrame : statementFrame.encode statement =
      .ok (leBytes 8 statementBytes.length ++ statementBytes) :=
    framed_encode hencode hstatementSize
  have hromFrame : romFrame.encode prover.rom.commitment =
      .ok (leBytes 8 romBytes.length ++ romBytes) :=
    framed_encode hrom hromSize
  have hcountBytes : Zksm83.segmentCount.encode segments.length =
      .ok (leBytes 8 prover.segmentCount.toNat) := by
    rw [hcount]
    exact Except.mapError_eq_ok.mpr
      (Wire.encode_usize.mpr ⟨prover.segmentCount.toNat_lt, rfl⟩)
  have hfields := encode_receiptFields.mpr
    ⟨_, _, _, _, hstatementFrame, hromFrame, hcountBytes, hholds.frames, rfl⟩
  have hdecode := receiptFields_exact.decode_encode
    ⟨prover.rom.fits, hholds.count_le, hholds.fits⟩ hfields []
  rw [List.append_nil] at hdecode
  exact ⟨_, houtput, hdecode⟩

/-- A finished receipt is the receipt of the segments in the spool, apart from their proofs. -/
theorem finish_receipt {segments : List (NativeSegmentReceipt akita)}
    (hholds : prover.logical.Holds sha256 segments) {statement : NativeStatement}
    {output : List Byte} (hfinish : prover.finish sha256 = .ok (statement, output)) :
    AcceptedReceipt sha256 trustComponents ⟨.v2, statement, prover.rom.commitment, segments⟩
        statement ∧
      output.length ≤ maxNativeStreamReceiptBytes := by
  obtain ⟨first, final, romIdentity, statementBytes, romBytes, hfirst, hfinal, hrom, hstatement, -,
    -, hsize, hspooled, rfl⟩ := finish_eq_ok.mp hfinish
  obtain ⟨hvalid, hromEq, hinitialEq, hfinalEq, hcountEq, htransitionsEq, hrowsEq, -⟩ :=
    newFor_of_ok hstatement
  have hcount : segments.length = prover.segmentCount.toNat :=
    ((verifySpool_count hholds.verified).trans (Nat.zero_add _)).symm
  have hne : segments ≠ [] := by
    rintro rfl
    have hzero : prover.segmentCount = 0 := UInt64.toNat_inj.mp hcount.symm
    exact hvalid.segmentCount_ne (hcountEq.trans hzero)
  obtain ⟨first', final', hfirst', hfinal', hchain, htransitions, hrows⟩ :=
    verifySpool_chain hne hholds.verified
  obtain rfl := Option.some.inj (hfirst.symm.trans hfirst')
  obtain rfl := Option.some.inj (hfinal.symm.trans hfinal')
  refine ⟨⟨rfl, hvalid, ?_, ?_, ?_, ?_, ?_⟩, ?_⟩
  · rw [hromEq]
    exact hrom
  · rw [hcountEq]
    exact hcount
  · rw [hinitialEq, hfinalEq]
    exact hchain
  · rw [htransitionsEq]
    exact htransitions
  · rw [hrowsEq]
    exact hrows
  · simp only [receiptFront, List.length_append, Vector.length_toList, length_leBytes,
      List.length_take, Nat.min_eq_left hspooled]
    omega

theorem acceptedReceipt_proved_iff {verifyComponents : NativeProtocolVersion →
    PackedBlockProof akita → PackedBlockVerificationInputs akita →
      Except PackedBlockProofError Unit} {statement : NativeStatement}
    {rom : RomCommitment akita} {segments : List (NativeSegmentReceipt akita)} :
    AcceptedReceipt sha256 verifyComponents ⟨.v2, statement, rom, segments⟩ statement ↔
      AcceptedReceipt sha256 trustComponents ⟨.v2, statement, rom, segments⟩ statement ∧
        ∀ segment ∈ segments, segment.Proved verifyComponents rom := by
  constructor
  · intro h
    obtain ⟨hchain, hproved⟩ := ChainChecked.proved_iff.mp h.chain
    exact ⟨{ h with chain := hchain }, hproved⟩
  · rintro ⟨h, hproved⟩
    exact { h with chain := ChainChecked.proved_iff.mpr ⟨h.chain, hproved⟩ }

/-- A finished receipt is accepted when its proofs are. -/
theorem finish_accepted_iff {segments : List (NativeSegmentReceipt akita)}
    (hholds : prover.logical.Holds sha256 segments) {statement : NativeStatement}
    {output : List Byte} (hfinish : prover.finish sha256 = .ok (statement, output))
    {verifyComponents : NativeProtocolVersion → PackedBlockProof akita →
      PackedBlockVerificationInputs akita → Except PackedBlockProofError Unit} :
    verifyNativeReceiptReader sha256 verifyComponents output statement =
        .ok ⟨statement.statementId, statement.segmentCount⟩ ↔
      ∀ segment ∈ segments, segment.Proved verifyComponents prover.rom.commitment := by
  obtain ⟨hreceipt, hsize⟩ := finish_receipt hholds hfinish
  obtain ⟨fields, houtput, hdecode⟩ := finish_fields hholds hfinish
  rw [protocol_eq statement.protocol] at houtput
  rw [reader_eq_ok]
  constructor
  · rintro ⟨-, ⟨version, statement', rom, segments'⟩, fields', houtput', hdecode', haccepted, -⟩
    rw [protocol_eq version, houtput, List.append_cancel_left_eq] at houtput'
    obtain rfl := houtput'
    rw [hdecode] at hdecode'
    cases hdecode'
    cases version
    exact (acceptedReceipt_proved_iff.mp haccepted).2
  · intro hproved
    exact ⟨hsize, ⟨.v2, statement, prover.rom.commitment, segments⟩, fields, houtput, hdecode,
      acceptedReceipt_proved_iff.mpr ⟨hreceipt, hproved⟩, rfl⟩

/-! ## When a receipt can be finished -/

/-- What has to hold of the ROM and of the last boundary for a receipt to be finished. -/
structure Finishable (sha256 : List Byte → Digest) (rom : RomCommitment akita)
    (first final : NativeBoundary) (spoolBytes : ℕ) : Prop where
  profile : ∃ identity profile, directRomIdentityFor sha256 .current rom = .ok identity ∧
    first.machineProfile = .ok profile ∧ final.machineProfile = .ok profile ∧
    romByteLengthForMachineProfile profile = .ok rom.logicalByteLength
  size : ∃ romBytes, encodeRom rom = .ok romBytes ∧
    1680 + romBytes.length + spoolBytes ≤ maxNativeStreamReceiptBytes

/-- A receipt can be finished as soon as there is a segment, unless the profile of the machine has
changed, the ROM is not one of that profile, or the receipt gets too large. -/
theorem finish_succeeds_iff {segments : List (NativeSegmentReceipt akita)}
    (hholds : prover.logical.Holds sha256 segments) (hspooled : prover.Spooled) :
    (∃ result, prover.finish sha256 = .ok result) ↔ ∃ first final,
      prover.initial = some first ∧ prover.boundary = some final ∧
      Finishable sha256 prover.rom.commitment first final prover.spoolBytes.toNat := by
  constructor
  · rintro ⟨⟨statement, output⟩, hfinish⟩
    obtain ⟨first, final, identity, statementBytes, romBytes, hfirst, hfinal, hidentity,
      hstatement, hencode, hrom, hsize, -, -⟩ := finish_eq_ok.mp hfinish
    obtain ⟨hvalid, -, rfl, rfl, -, -, -, hromLength⟩ := newFor_of_ok hstatement
    obtain ⟨hcommitted, -⟩ := directRomIdentityFor_of_ok hidentity
    obtain ⟨bytes, hbytes, hlength⟩ := statement.exists_encoding
    obtain rfl := Except.ok.inj (hencode.symm.trans hbytes)
    refine ⟨_, _, hfirst, hfinal, ⟨identity, statement.machineProfile, hidentity,
      hvalid.initialProfile, hvalid.finalProfile, ?_⟩, ⟨romBytes, hrom, by omega⟩⟩
    rw [← hcommitted, ← hromLength]
    exact hvalid.romByteLength_eq
  · rintro ⟨first, final, hfirst, hfinal, ⟨identity, profile, hidentity, hfirstProfile,
      hfinalProfile, hlength⟩, ⟨romBytes, hrom, hsize⟩⟩
    have hne : segments ≠ [] := by
      rintro rfl
      have hstart : prover.logical.progress = .start akita := (Except.ok.inj hholds.verified).symm
      have hnone : prover.initial = none := congrArg SpoolProgress.initial hstart
      rw [hfirst] at hnone
      cases hnone
    obtain ⟨first', final', hfirst', hfinal', hchain, htransitions, hrows⟩ :=
      verifySpool_chain hne hholds.verified
    obtain rfl := Option.some.inj (hfirst.symm.trans hfirst')
    obtain rfl := Option.some.inj (hfinal.symm.trans hfinal')
    have hcount : segments.length = prover.segmentCount.toNat :=
      ((verifySpool_count hholds.verified).trans (Nat.zero_add _)).symm
    obtain ⟨statement, hstatement⟩ := exists_newFor hne hholds.count_le hchain hcount htransitions
      hrows hidentity hfirstProfile hfinalProfile hlength
      (hchain.first_valid hne) (verifySpool_valid hholds.verified _ hfinal')
    obtain ⟨statementBytes, hencode, hbytes⟩ := statement.exists_encoding
    exact ⟨_, finish_eq_ok.mpr ⟨_, _, identity, statementBytes, romBytes, hfirst, hfinal,
      hidentity, hstatement, hencode, hrom, by omega, hspooled, rfl⟩⟩

/-! ## Taking up the spool -/

theorem Holds.nil_iff {segments : List (NativeSegmentReceipt akita)}
    (h : prover.Holds sha256 segments) : segments = [] ↔ prover.spool = [] := by
  constructor
  · rintro rfl
    exact (Except.ok.inj h.frames).symm
  · intro hempty
    cases segments with
    | nil => rfl
    | cons segment segments =>
      obtain ⟨frame, hframe, hframes⟩ := Except.bind_eq_ok.mp h.frames
      obtain ⟨rest, -, hframes⟩ := Except.bind_eq_ok.mp hframes
      have happend := (Except.ok.inj hframes).trans hempty
      exact absurd (List.append_eq_nil_iff.mp happend).1 (segmentFrame_ne_nil hframe)

/-- A spool with segments is taken up as the prover that wrote it, when the proofs in it hold. -/
theorem resume_eq_ok {segments : List (NativeSegmentReceipt akita)}
    (h : prover.Holds sha256 segments)
    {verifyComponents : NativeProtocolVersion → PackedBlockProof akita →
      PackedBlockVerificationInputs akita → Except PackedBlockProofError Unit} :
    resume sha256 verifyComponents prover.rom prover.spool = .ok next ↔ segments ≠ [] ∧
      (∀ segment ∈ segments, segment.Proved verifyComponents prover.rom.commitment) ∧
      next = prover := by
  have hloop := @verifySpoolLoop_frames akita sha256 verifyComponents prover.rom.commitment
    segments prover.spool maxNativeSegmentCount (.start akita) h.fits h.frames h.count_le
  have hlength : prover.spool.length = 0 ↔ segments = [] := by
    rw [List.length_eq_zero_iff]
    exact h.nil_iff.symm
  have hwithin : prover.spool.length ≤ maxNativeStreamReceiptBytes :=
    h.length_eq.trans_le h.bytes_le
  have hbytes : UInt64.ofNat prover.spool.length = prover.spoolBytes := by
    rw [h.length_eq, UInt64.ofNat_toNat]
  unfold resume verifyNativeSpoolReader validateSpoolLength verifySpool
  rw [hloop, hbytes]
  simp only [↓Except.check_eq_ok, Except.bind_eq_ok, rejectIf_eq_ok, someOr_eq_ok, not_or, not_lt,
    not_not, ne_eq, hlength, verifySpool_proved_iff, h.verified]
  constructor
  · rintro ⟨⟨hne, -⟩, spool, ⟨-, progress, ⟨hprogress, hproved⟩, first, hfirst, final, hfinal,
      memory, hmemory, hspool⟩, hnext⟩
    cases hprogress
    cases hspool
    cases hnext
    refine ⟨hne, hproved, ?_⟩
    obtain ⟨rom, spool, initial, boundary, previousMemory, count, transitions, rows, bytes⟩ :=
      prover
    obtain rfl : initial = some first := hfirst
    obtain rfl : boundary = some final := hfinal
    obtain rfl : previousMemory = some memory := hmemory
    rfl
  · rintro ⟨hne, hproved, rfl⟩
    obtain ⟨first, final, hfirst, hfinal, -⟩ := verifySpool_chain hne h.verified
    obtain ⟨memory, hmemory⟩ := verifySpool_memory hne h.verified
    refine ⟨⟨hne, hwithin⟩, _, ⟨⟨⟨hne, hwithin⟩, trivial⟩, _, ⟨rfl, hproved⟩, first, hfirst, final,
      hfinal, memory, hmemory, rfl⟩, ?_⟩
    rw [← hfirst, ← hfinal, ← hmemory]
    rfl

/-- Only the frames of a spool are in a receipt. -/
theorem finish_logical : prover.logical.finish sha256 = prover.finish sha256 := by
  have hframes : prover.logical.spool.take prover.logical.spoolBytes.toNat =
      prover.spool.take prover.spoolBytes.toNat := by
    show (prover.spool.take _).take prover.spoolBytes.toNat = _
    rw [List.take_take, Nat.min_self]
  unfold finish
  rw [hframes]
  rfl

end NativeReceiptStreamProver

end Prepare

/-! ## Main results -/

section Results

open NativeReceiptStreamProver

variable (sha256 : List Byte → Digest) {akita : Akita} {Columns : Type}
  (library : ProverLibrary akita Columns) (rom : CommittedRom akita Columns)
  (calls : List (Call akita Columns))

/-- The prover after it was called to append. -/
def attempted : NativeReceiptStreamProver akita Columns :=
  attemptAll (appendCall sha256 library) (start rom) calls

/-- The calls that did append. -/
def appended : List (Call akita Columns) := succeeded (appendCall sha256 library) (start rom) calls

/-- Appends that fail leave nothing behind that counts, wherever they fail: the appends that
succeeded would all succeed without the others, to the same frames and the same progress, and the
same receipt is finished. -/
theorem failed_appends_dropped :
    appended sha256 library rom (appended sha256 library rom calls) =
        appended sha256 library rom calls ∧
      (attempted sha256 library rom (appended sha256 library rom calls)).logical =
        (attempted sha256 library rom calls).logical ∧
      (attempted sha256 library rom (appended sha256 library rom calls)).finish sha256 =
        (attempted sha256 library rom calls).finish sha256 := by
  obtain ⟨hdone, hlogical⟩ := (append_transactional sha256 library).succeeded_again calls
    (start_spooled : (start rom).Spooled)
  refine ⟨hdone, hlogical, ?_⟩
  rw [attempted, attempted, appended, ← finish_logical, hlogical, finish_logical]

/-- Whatever is attempted, the spool holds one segment for each append that succeeded. As soon as
there is one, a receipt can be finished, unless the profile of the machine has changed, the ROM is
not one of that profile or the receipt gets too large; and every finished receipt is accepted for
its statement exactly when the proofs of its segments are. -/
theorem finished_accepted :
    ∃ segments, segments.length = (appended sha256 library rom calls).length ∧
      (attempted sha256 library rom calls).logical.Holds sha256 segments ∧
      ((∃ result, (attempted sha256 library rom calls).finish sha256 = .ok result) ↔
        ∃ first final, (attempted sha256 library rom calls).initial = some first ∧
          (attempted sha256 library rom calls).boundary = some final ∧
          Finishable sha256 rom.commitment first final
            (attempted sha256 library rom calls).spoolBytes.toNat) ∧
      ∀ statement output,
        (attempted sha256 library rom calls).finish sha256 = .ok (statement, output) →
        statement.segmentCount.toNat = segments.length ∧
        ∀ verifyComponents, verifyNativeReceiptReader sha256 verifyComponents output statement =
            .ok ⟨statement.statementId, statement.segmentCount⟩ ↔
          ∀ segment ∈ segments, segment.Proved verifyComponents rom.commitment := by
  obtain ⟨segments, hlength, hholds, hrom⟩ := exists_held sha256 library rom calls
  have hspooled := (append_transactional sha256 library).keeps_all calls
    (start_spooled : (start rom).Spooled)
  refine ⟨segments, hlength, hholds, ?_, ?_⟩
  · have hiff := finish_succeeds_iff hholds hspooled
    rwa [hrom] at hiff
  · intro statement output hfinish
    obtain ⟨hreceipt, -⟩ := finish_receipt hholds hfinish
    refine ⟨hreceipt.count.symm, fun verifyComponents => ?_⟩
    have hiff := @finish_accepted_iff sha256 akita Columns _ segments hholds statement output
      hfinish verifyComponents
    rwa [hrom] at hiff

/-- Whatever is attempted, the frames in the spool are taken up as the prover that wrote them,
exactly when there are any and their proofs hold; and the prover that goes on from there has the
same appends succeed, with the same frames and progress, as one that was never interrupted. -/
theorem spool_resumed :
    ∃ segments, (attempted sha256 library rom calls).logical.Holds sha256 segments ∧
      (∀ verifyComponents next, resume sha256 verifyComponents rom
          (attempted sha256 library rom calls).logical.spool = .ok next ↔
        segments ≠ [] ∧ (∀ segment ∈ segments, segment.Proved verifyComponents rom.commitment) ∧
          next = (attempted sha256 library rom calls).logical) ∧
      ∀ more, appended sha256 library rom calls ++ succeeded (appendCall sha256 library)
            (attempted sha256 library rom calls).logical more =
          appended sha256 library rom (calls ++ more) ∧
        (attemptAll (appendCall sha256 library) (attempted sha256 library rom calls).logical
            more).logical =
          (attempted sha256 library rom (calls ++ more)).logical := by
  obtain ⟨segments, -, hholds, hrom⟩ := exists_held sha256 library rom calls
  have htransactional := append_transactional sha256 library
  have hspooled := htransactional.keeps_all calls (start_spooled : (start rom).Spooled)
  refine ⟨segments, hholds, fun verifyComponents next => ?_, fun more => ?_⟩
  · have hiff := @resume_eq_ok sha256 akita Columns _ next segments hholds verifyComponents
    have hrom' : (attemptAll (appendCall sha256 library) (start rom) calls).logical.rom = rom :=
      hrom
    rwa [hrom'] at hiff
  · obtain ⟨hmore, hlogical⟩ := htransactional.same_view more hholds.length_eq.ge hspooled
      logical_logical
    rw [appended, appended, attempted, attempted, succeeded_append, attemptAll_append]
    exact ⟨congrArg _ hmore, hlogical⟩

end Results

end Zksm83
