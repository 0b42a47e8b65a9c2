import Zksm83.Receipt.Prover
import Zksm83.Receipt.RoundTrip

/-!
# Spools and chains

The loop over the frames of a spool finds the same chain of segments as the verifier of a receipt,
and checks it but for the proofs in it in the same way (`verifySpool_chain`,
`verifySpool_proved_iff`). A statement about the chain can be made whenever its profiles and its ROM
agree (`exists_newFor`).
-/

namespace Zksm83

open Wire (fits)

/-! ## Frames -/

section Frames

variable {akita : Akita}

theorem segmentFrame_encode {segment : NativeSegmentReceipt akita} {encoded : List Byte}
    (hencode : encodeSegment segment = .ok encoded) :
    segmentFrame.encode segment = .ok (leBytes 8 encoded.length ++ encoded) := by
  have hlength : encoded.length < 2 ^ 64 :=
    (encodeWire_eq_ok.mp hencode).2.trans_lt (by decide)
  exact framed_encode hencode hlength

/-- A frame is the length of a segment and the segment. -/
theorem segmentFrame_eq_ok {segment : NativeSegmentReceipt akita} {frame : List Byte} :
    segmentFrame.encode segment = .ok frame ↔ ∃ encoded, encodeSegment segment = .ok encoded ∧
      frame = leBytes 8 encoded.length ++ encoded := by
  constructor
  · intro h
    obtain ⟨encoded, hencode, -⟩ := Except.bind_eq_ok.mp h
    rw [segmentFrame_encode hencode] at h
    exact ⟨encoded, hencode, (Except.ok.inj h).symm⟩
  · rintro ⟨encoded, hencode, rfl⟩
    exact segmentFrame_encode hencode

theorem readSpoolFrame_frame {encoded rest : List Byte}
    (hlength : encoded.length ≤ maxNativeSegmentBytes) :
    readSpoolFrame (leBytes 8 encoded.length ++ encoded ++ rest) = .ok (encoded, rest) := by
  have hword : encoded.length < 256 ^ 8 := hlength.trans_lt (by decide)
  have hheader : readExactWire 8 (leBytes 8 encoded.length ++ (encoded ++ rest)) =
      .ok (leBytes 8 encoded.length, encoded ++ rest) := by
    refine Except.check_eq_ok.mpr ⟨rejectIf_eq_ok.mpr ?_, ?_⟩
    · rw [List.length_append, length_leBytes]
      omega
    · rw [List.take_left' (length_leBytes _ _), List.drop_left' (length_leBytes _ _)]
      rfl
  have hbody : readExactWire encoded.length (encoded ++ rest) = .ok (encoded, rest) := by
    refine Except.check_eq_ok.mpr ⟨rejectIf_eq_ok.mpr ?_, ?_⟩
    · rw [List.length_append]
      omega
    · rw [List.take_left, List.drop_left]
      rfl
  have hvalue : leValue (leBytes 8 encoded.length) = encoded.length := by
    rw [leValue_leBytes, Nat.mod_eq_of_lt hword]
  rw [List.append_assoc]
  refine Except.bind_eq_ok.mpr ⟨_, hheader, ?_⟩
  simp only [hvalue]
  refine Except.check_eq_ok.mpr ⟨rejectIf_eq_ok.mpr (not_lt.mpr hlength), Except.check_eq_ok.mpr
    ⟨rejectIf_eq_ok.mpr ?_, hbody⟩⟩
  rw [List.length_append]
  omega

theorem segmentFrame_ne_nil {segment : NativeSegmentReceipt akita} {frame : List Byte}
    (hframe : segmentFrame.encode segment = .ok frame) : frame ≠ [] := by
  obtain ⟨encoded, -, rfl⟩ := segmentFrame_eq_ok.mp hframe
  intro hempty
  have hlength := congrArg List.length hempty
  rw [List.length_append, length_leBytes, List.length_nil] at hlength
  omega

variable {sha256 : List Byte → Digest}
  {verifyComponents : NativeProtocolVersion → PackedBlockProof akita →
    PackedBlockVerificationInputs akita → Except PackedBlockProofError Unit}
  {rom : RomCommitment akita}

/-- The loop over the frames of some segments checks these segments one after another. -/
theorem verifySpoolLoop_frames {segments : List (NativeSegmentReceipt akita)} {frames : List Byte}
    {left : ℕ} {progress : SpoolProgress akita} (hfits : ∀ segment ∈ segments, fits segment)
    (hframes : segmentFrame.encodeMany segments = .ok frames) (hleft : segments.length ≤ left) :
    verifySpoolLoop sha256 verifyComponents rom left frames progress =
      segments.foldlM (verifySpoolNext sha256 verifyComponents rom) progress := by
  induction segments generalizing frames left progress with
  | nil =>
    cases hframes
    cases left <;> rfl
  | cons segment segments ih =>
    obtain ⟨frame, hframe, hframes⟩ := Except.bind_eq_ok.mp hframes
    obtain ⟨rest, hrest, hframes⟩ := Except.bind_eq_ok.mp hframes
    cases hframes
    obtain ⟨left, rfl⟩ : ∃ before, left = before + 1 :=
      Nat.exists_eq_add_one.mpr ((Nat.succ_pos _).trans_le hleft)
    obtain ⟨hfit, hfits⟩ := List.forall_mem_cons.mp hfits
    have hnext (progress : SpoolProgress akita) :=
      @ih _ _ progress hfits hrest (Nat.le_of_succ_le_succ hleft)
    obtain ⟨encoded, hencode, rfl⟩ := segmentFrame_eq_ok.mp hframe
    have hread := @readSpoolFrame_frame encoded rest (encodeWire_eq_ok.mp hencode).2
    have hdecode : decodeSegment encoded = .ok segment :=
      (wire_roundTrips _).decode_encode hfit hencode
    -- the frame is not empty, so the loop takes a step
    obtain ⟨byte, bytes, hbytes⟩ : ∃ byte bytes,
        leBytes 8 encoded.length ++ encoded ++ rest = byte :: bytes :=
      List.exists_cons_of_ne_nil (List.append_ne_nil_of_left_ne_nil
        (segmentFrame_ne_nil hframe) _)
    rw [hbytes] at hread ⊢
    rw [List.foldlM_cons, verifySpoolLoop, hread]
    show (decodeSegment encoded >>= _) = _
    rw [hdecode]
    show (verifySpoolNext sha256 verifyComponents rom progress segment >>= _) = _
    cases verifySpoolNext sha256 verifyComponents rom progress segment with
    | error error => rfl
    | ok next => exact hnext next

end Frames

/-- The check that lets every proof pass: what is left of a verification is all but the proofs. -/
def trustComponents {akita : Akita} (_ : NativeProtocolVersion) (_ : PackedBlockProof akita)
    (_ : PackedBlockVerificationInputs akita) : Except PackedBlockProofError Unit :=
  .ok ()

/-! ## Progress -/

section Progress

variable {sha256 : List Byte → Digest} {akita : Akita}
  {verifyComponents : NativeProtocolVersion → PackedBlockProof akita →
    PackedBlockVerificationInputs akita → Except PackedBlockProofError Unit}
  {rom : RomCommitment akita}

/-- The boundary that the next segment has to start from. -/
def SpoolProgress.Expects (sha256 : List Byte → Digest) (progress : SpoolProgress akita)
    (segment : NativeSegmentReceipt akita) (expected : NativeBoundary) : Prop :=
  progress.boundary = some expected ∨ progress.boundary = none ∧
    NativeBoundary.initialFor sha256 .current segment.initial.state segment.initialMemory =
      .ok expected

/-- The parts of a step of the loop over a spool. -/
theorem verifySpoolNext_eq_ok {progress next : SpoolProgress akita}
    {segment : NativeSegmentReceipt akita} :
    verifySpoolNext sha256 verifyComponents rom progress segment = .ok next ↔
      (∃ expected, progress.Expects sha256 segment expected ∧
        (∀ memory ∈ progress.previousMemory,
          ensureSameMemory sha256 memory segment.initialMemory .current = .ok ()) ∧
        verifySegment sha256 verifyComponents progress.segmentCount.toNat segment expected rom
          .current = .ok ()) ∧
      checkedAdd progress.transitionCount segment.transitionCount = .ok next.transitionCount ∧
      checkedAdd progress.relationRowCount segment.activeRowCount = .ok next.relationRowCount ∧
      checkedAdd progress.segmentCount 1 = .ok next.segmentCount ∧
      next.initial = some (progress.initial.getD segment.initial) ∧
      next.boundary = some segment.finalBoundary ∧
      next.previousMemory = some segment.finalMemory := by
  have hexpected (expected : NativeBoundary) : progress.boundary.elim
      (NativeBoundary.initialFor sha256 .current segment.initial.state segment.initialMemory)
      Except.ok = Except.ok expected ↔ progress.Expects sha256 segment expected := by
    unfold SpoolProgress.Expects
    cases progress.boundary <;> simp
  have hprevious : progress.previousMemory.elim (.ok ())
      (fun memory => ensureSameMemory sha256 memory segment.initialMemory .current) = .ok () ↔
      ∀ memory ∈ progress.previousMemory,
        ensureSameMemory sha256 memory segment.initialMemory .current = .ok () := by
    cases progress.previousMemory <;> simp
  have hsplit : verifySpoolNext sha256 verifyComponents rom progress segment =
      progress.boundary.elim (NativeBoundary.initialFor sha256 .current segment.initial.state
        segment.initialMemory) Except.ok >>= fun expected =>
      progress.previousMemory.elim (.ok ())
        (fun memory => ensureSameMemory sha256 memory segment.initialMemory .current) >>=
        fun _ => do
          verifySegment sha256 verifyComponents progress.segmentCount.toNat segment expected rom
            .current
          let transitionCount ← checkedAdd progress.transitionCount segment.transitionCount
          let relationRowCount ← checkedAdd progress.relationRowCount segment.activeRowCount
          let segmentCount ← checkedAdd progress.segmentCount 1
          return ⟨some (progress.initial.getD segment.initial), some segment.finalBoundary,
            some segment.finalMemory, segmentCount, transitionCount, relationRowCount⟩ := by
    unfold verifySpoolNext
    cases progress.boundary <;> cases progress.previousMemory <;> rfl
  obtain ⟨initial, boundary, memory, count, transitions, rows⟩ := next
  rw [hsplit]
  simp only [↓Except.check_eq_ok, Except.bind_eq_ok, hexpected, hprevious]
  constructor
  · rintro ⟨expected, hexpects, hmemory, hsegment, _, htransitions, _, hrows, _, hcount, h⟩
    cases h
    exact ⟨⟨expected, hexpects, hmemory, hsegment⟩, htransitions, hrows, hcount, rfl, rfl, rfl⟩
  · rintro ⟨⟨expected, hexpects, hmemory, hsegment⟩, htransitions, hrows, hcount, rfl, rfl, rfl⟩
    exact ⟨expected, hexpects, hmemory, hsegment, _, htransitions, _, hrows, _, hcount, rfl⟩

/-- The boundary that a verified spool ends with is valid. -/
theorem verifySpoolNext_valid {progress next : SpoolProgress akita}
    {segment : NativeSegmentReceipt akita}
    (h : verifySpoolNext sha256 verifyComponents rom progress segment = .ok next) :
    ∀ boundary ∈ next.boundary, boundary.validateFor sha256 .current = .ok () := by
  obtain ⟨⟨expected, -, -, hsegment⟩, -, -, -, -, hboundary, -⟩ := verifySpoolNext_eq_ok.mp h
  obtain ⟨-, -, hchecked⟩ := verifySegment_eq_ok.mp hsegment
  rw [hboundary]
  intro boundary hmem
  cases hmem
  exact hchecked.finalBoundary

/-- A fold over a spool counts the segments. -/
theorem verifySpool_count {segments : List (NativeSegmentReceipt akita)}
    {progress last : SpoolProgress akita}
    (h : segments.foldlM (verifySpoolNext sha256 verifyComponents rom) progress = .ok last) :
    last.segmentCount.toNat = progress.segmentCount.toNat + segments.length := by
  induction segments generalizing progress with
  | nil =>
    cases h
    rfl
  | cons segment segments ih =>
    rw [List.foldlM_cons] at h
    obtain ⟨next, hnext, h⟩ := Except.bind_eq_ok.mp h
    obtain ⟨-, -, -, hcount, -⟩ := verifySpoolNext_eq_ok.mp hnext
    have hone : (1 : UInt64).toNat = 1 := rfl
    rw [ih h, ← checkedAdd_eq_ok.mp hcount, hone, List.length_cons]
    omega

/-- The boundary that a verified spool ends with is valid. -/
theorem verifySpool_valid {segments : List (NativeSegmentReceipt akita)}
    {last : SpoolProgress akita}
    (h : segments.foldlM (verifySpoolNext sha256 verifyComponents rom) (.start akita) =
      .ok last) :
    ∀ boundary ∈ last.boundary, boundary.validateFor sha256 .current = .ok () := by
  refine (Runs.foldlM_eq_ok.mp h).invariant
    (fun progress => ∀ boundary ∈ progress.boundary, boundary.validateFor sha256 .current = .ok ())
    (fun _ hstep => verifySpoolNext_valid hstep) ?_
  intro boundary hmem
  cases hmem

/-! ## From the spool to the chain -/

/-- The loop over a spool and the loop over a receipt are at the same place. -/
structure SpoolProgress.Follows (progress : SpoolProgress akita) (chain : ChainProgress akita) :
    Prop where
  boundary : progress.boundary = some chain.boundary
  index : chain.index = progress.segmentCount.toNat
  transitions : chain.transitions = progress.transitionCount
  rows : chain.rows = progress.relationRowCount
  previousMemory : chain.previousMemory = progress.previousMemory

/-- The two loops take the same step. -/
theorem verifyNext_of_spool {progress next : SpoolProgress akita} {chain : ChainProgress akita}
    {segment : NativeSegmentReceipt akita} (hindex : chain.index = progress.segmentCount.toNat)
    (hsums : chain.transitions = progress.transitionCount ∧
      chain.rows = progress.relationRowCount)
    (hprevious : chain.previousMemory = progress.previousMemory)
    (hboundary : progress.boundary = some chain.boundary ∨ progress.boundary = none ∧
      chain.boundary = segment.initial)
    (h : verifySpoolNext sha256 verifyComponents rom progress segment = .ok next) :
    ∃ chain', verifyNext sha256 verifyComponents rom .current chain segment = .ok chain' ∧
      next.Follows chain' ∧ next.initial = some (progress.initial.getD segment.initial) := by
  obtain ⟨⟨expected, hexpects, hmemory, hsegment⟩, htransitions, hrows, hcount, hinitial, hfinal,
    hfinalMemory⟩ := verifySpoolNext_eq_ok.mp h
  have hexpected : chain.boundary = expected := by
    obtain ⟨-, hsame, -⟩ := verifySegment_eq_ok.mp hsegment
    rcases hboundary with hsome | ⟨hnone, hfirst⟩
    · rcases hexpects with hsome' | ⟨hnone, -⟩
      · exact Option.some.inj (hsome.symm.trans hsome')
      · rw [hsome] at hnone
        cases hnone
    · rw [hfirst, hsame]
  have hone : (1 : UInt64).toNat = 1 := rfl
  rw [← hexpected, ← hindex] at hsegment
  rw [← hsums.1] at htransitions
  rw [← hsums.2] at hrows
  rw [← hprevious] at hmemory
  have hnext := checkedAdd_eq_ok.mp hcount
  rw [hone, ← hindex] at hnext
  exact ⟨⟨chain.index + 1, segment.finalBoundary, next.transitionCount, next.relationRowCount,
    some segment.finalMemory⟩, verifyNext_parts.mpr ⟨hmemory, hsegment, htransitions, hrows, rfl,
      rfl, rfl⟩, ⟨hfinal, hnext, rfl, rfl, hfinalMemory.symm⟩, hinitial⟩

theorem verifyChain_of_follows {segments : List (NativeSegmentReceipt akita)}
    {progress last : SpoolProgress akita} {chain : ChainProgress akita} {first : NativeBoundary}
    (hfollows : progress.Follows chain) (hfirst : progress.initial = some first)
    (h : segments.foldlM (verifySpoolNext sha256 verifyComponents rom) progress = .ok last) :
    ∃ chain', segments.foldlM (verifyNext sha256 verifyComponents rom .current) chain =
      .ok chain' ∧ last.Follows chain' ∧ last.initial = some first := by
  induction segments generalizing progress chain with
  | nil =>
    cases h
    exact ⟨chain, rfl, hfollows, hfirst⟩
  | cons segment segments ih =>
    rw [List.foldlM_cons] at h
    obtain ⟨next, hnext, h⟩ := Except.bind_eq_ok.mp h
    obtain ⟨chain', hchain, hfollows', hinitial⟩ := verifyNext_of_spool hfollows.index
      ⟨hfollows.transitions, hfollows.rows⟩ hfollows.previousMemory (.inl hfollows.boundary) hnext
    rw [hfirst] at hinitial
    obtain ⟨last', hlast, hrest⟩ := ih hfollows' hinitial h
    rw [List.foldlM_cons]
    exact ⟨last', Except.bind_eq_ok.mpr ⟨chain', hchain, hlast⟩, hrest⟩

/-- The segments of a verified spool are a chain from its first boundary to its last, with the sums
that the spool counts. -/
theorem verifySpool_chain {segments : List (NativeSegmentReceipt akita)}
    {last : SpoolProgress akita} (hne : segments ≠ [])
    (h : segments.foldlM (verifySpoolNext sha256 verifyComponents rom) (.start akita) =
      .ok last) : ∃ first final, last.initial = some first ∧ last.boundary = some final ∧
      ChainChecked sha256 verifyComponents rom .current 0 first segments final ∧
      (segments.map (·.transitionCount.toNat)).sum = last.transitionCount.toNat ∧
      (segments.map (·.activeRowCount.toNat)).sum = last.relationRowCount.toNat := by
  obtain ⟨segment, segments, rfl⟩ := List.exists_cons_of_ne_nil hne
  rw [List.foldlM_cons] at h
  obtain ⟨next, hnext, h⟩ := Except.bind_eq_ok.mp h
  let start : ChainProgress akita := .start akita segment.initial
  obtain ⟨chain, hchain, hfollows, hinitial⟩ : ∃ chain, verifyNext sha256 verifyComponents rom
      .current start segment = .ok chain ∧ next.Follows chain ∧
      next.initial = some segment.initial :=
    verifyNext_of_spool rfl ⟨rfl, rfl⟩ rfl (.inr ⟨rfl, rfl⟩) hnext
  obtain ⟨chain', hchain', hfollows', hlast⟩ := verifyChain_of_follows hfollows hinitial h
  have hfold : (segment :: segments).foldlM (verifyNext sha256 verifyComponents rom .current)
      start = .ok chain' := by
    rw [List.foldlM_cons]
    exact Except.bind_eq_ok.mpr ⟨chain, hchain, hchain'⟩
  obtain ⟨hchecked, htransitions, hrows⟩ :=
    (verifyChain_eq_ok ChainProgress.start_coherent).mp ⟨chain', hfold, rfl, rfl, rfl⟩
  rw [hfollows'.transitions] at htransitions
  rw [hfollows'.rows] at hrows
  exact ⟨_, _, hlast, hfollows'.boundary, hchecked, (Nat.zero_add _).symm.trans htransitions,
    (Nat.zero_add _).symm.trans hrows⟩

theorem verifySpool_memory {segments : List (NativeSegmentReceipt akita)}
    {last : SpoolProgress akita} (hne : segments ≠ [])
    (h : segments.foldlM (verifySpoolNext sha256 verifyComponents rom) (.start akita) =
      .ok last) : ∃ memory, last.previousMemory = some memory := by
  obtain ⟨front, segment, rfl⟩ := (List.eq_nil_or_concat segments).resolve_left hne
  rw [List.concat_eq_append, List.foldlM_append] at h
  obtain ⟨middle, -, h⟩ := Except.bind_eq_ok.mp h
  rw [List.foldlM_cons] at h
  obtain ⟨next, hnext, h⟩ := Except.bind_eq_ok.mp h
  cases h
  obtain ⟨-, -, -, -, -, -, hmemory⟩ := verifySpoolNext_eq_ok.mp hnext
  exact ⟨_, hmemory⟩

/-! ## The proofs apart -/

/-- The proof of a segment holds for the claims that the segment makes. -/
def NativeSegmentReceipt.Proved (verifyComponents : NativeProtocolVersion →
    PackedBlockProof akita → PackedBlockVerificationInputs akita →
      Except PackedBlockProofError Unit)
    (rom : RomCommitment akita) (segment : NativeSegmentReceipt akita) : Prop :=
  verifyComponents .current segment.proof ⟨segment.claim, segment.logClaim, segment.logs, rom,
    segment.initialMemory, segment.finalMemory⟩ = .ok ()

theorem SegmentChecked.proved_iff {segment : NativeSegmentReceipt akita} :
    SegmentChecked sha256 verifyComponents rom .current segment ↔
      SegmentChecked sha256 trustComponents rom .current segment ∧
        segment.Proved verifyComponents rom := by
  constructor
  · intro h
    exact ⟨{ h with components := rfl }, h.components⟩
  · rintro ⟨h, hproved⟩
    exact { h with components := hproved }

theorem ChainChecked.proved_iff {index : ℕ} {first final : NativeBoundary}
    {segments : List (NativeSegmentReceipt akita)} :
    ChainChecked sha256 verifyComponents rom .current index first segments final ↔
      ChainChecked sha256 trustComponents rom .current index first segments final ∧
        ∀ segment ∈ segments, segment.Proved verifyComponents rom := by
  constructor
  · intro h
    have hchecked := fun segment hmem => SegmentChecked.proved_iff.mp (h.checked segment hmem)
    exact ⟨⟨h.numbered, h.linked, fun segment hmem => (hchecked segment hmem).1⟩,
      fun segment hmem => (hchecked segment hmem).2⟩
  · rintro ⟨h, hproved⟩
    exact ⟨h.numbered, h.linked, fun segment hmem =>
      SegmentChecked.proved_iff.mpr ⟨h.checked segment hmem, hproved segment hmem⟩⟩

theorem verifySpoolNext_proved_iff {progress next : SpoolProgress akita}
    {segment : NativeSegmentReceipt akita} :
    verifySpoolNext sha256 verifyComponents rom progress segment = .ok next ↔
      verifySpoolNext sha256 trustComponents rom progress segment = .ok next ∧
        segment.Proved verifyComponents rom := by
  simp only [verifySpoolNext_eq_ok, verifySegment_eq_ok]
  constructor
  · rintro ⟨⟨expected, hexpects, hmemory, hindex, hinitial, hchecked⟩, hrest⟩
    obtain ⟨hchecked, hproved⟩ := SegmentChecked.proved_iff.mp hchecked
    exact ⟨⟨⟨expected, hexpects, hmemory, hindex, hinitial, hchecked⟩, hrest⟩, hproved⟩
  · rintro ⟨⟨⟨expected, hexpects, hmemory, hindex, hinitial, hchecked⟩, hrest⟩, hproved⟩
    exact ⟨⟨expected, hexpects, hmemory, hindex, hinitial,
      SegmentChecked.proved_iff.mpr ⟨hchecked, hproved⟩⟩, hrest⟩

/-- A spool is verified when it is but for its proofs, and these hold. -/
theorem verifySpool_proved_iff {segments : List (NativeSegmentReceipt akita)}
    {progress last : SpoolProgress akita} :
    segments.foldlM (verifySpoolNext sha256 verifyComponents rom) progress = .ok last ↔
      segments.foldlM (verifySpoolNext sha256 trustComponents rom) progress = .ok last ∧
        ∀ segment ∈ segments, segment.Proved verifyComponents rom := by
  induction segments generalizing progress with
  | nil => simp
  | cons segment segments ih =>
    have hstep (next : SpoolProgress akita) :=
      @verifySpoolNext_proved_iff sha256 akita verifyComponents rom progress next segment
    simp only [List.foldlM_cons, Except.bind_eq_ok, ih, List.forall_mem_cons, hstep]
    constructor
    · rintro ⟨next, ⟨hnext, hproved⟩, hrest, hall⟩
      exact ⟨⟨next, hnext, hrest⟩, hproved, hall⟩
    · rintro ⟨⟨next, hnext, hrest⟩, hproved, hall⟩
      exact ⟨next, ⟨hnext, hproved⟩, hrest, hall⟩

/-! ## Statements about a chain -/

/-- The growth of counters along a chain. -/
theorem ChainChecked.growth {index : ℕ} {first final : NativeBoundary}
    {segments : List (NativeSegmentReceipt akita)}
    (h : ChainChecked sha256 verifyComponents rom .current index first segments final) :
    first.mCycles.toNat ≤ final.mCycles.toNat ∧
      ∀ kind, (first.logCursor kind).toNat ≤ (final.logCursor kind).toNat := by
  constructor
  · rw [← h.linked.sum (·.mCycles.toNat) (·.mCycleCount.toNat)
      (fun segment hmem => (h.checked segment hmem).mCycles)]
    exact Nat.le_add_right _ _
  · intro kind
    rw [← h.linked.sum (fun boundary => (boundary.logCursor kind).toNat)
      (fun segment => (segment.logCounts.get kind).toNat)
      (fun segment hmem => (h.checked segment hmem).logCounts kind)]
    exact Nat.le_add_right _ _

/-- The sums of a chain are within the bounds of a statement. -/
theorem ChainChecked.sums {index : ℕ} {first final : NativeBoundary}
    {segments : List (NativeSegmentReceipt akita)}
    (h : ChainChecked sha256 verifyComponents rom .current index first segments final) :
    segments.length ≤ (segments.map (·.activeRowCount.toNat)).sum ∧
      (segments.map (·.activeRowCount.toNat)).sum ≤ segments.length * uniformRowCount ∧
      (segments.map (·.activeRowCount.toNat)).sum ≤
        (segments.map (·.transitionCount.toNat)).sum ∧
      (segments.map (·.transitionCount.toNat)).sum ≤
        (segments.map (·.activeRowCount.toNat)).sum * basicBlockInstructionBound := by
  have hchecked := h.checked
  clear h
  induction segments with
  | nil => simp
  | cons segment segments ih =>
    obtain ⟨hsegment, hsegments⟩ := List.forall_mem_cons.mp hchecked
    obtain ⟨hlength, hcapacity, hrows, htransitions⟩ := ih hsegments
    have hpositive := hsegment.rows_pos
    have hwithin := hsegment.capacity
    have hleast := UInt64.le_iff_toNat_le.mp hsegment.rows_le
    have hmost := hsegment.transitions_le
    simp only [List.map_cons, List.sum_cons, List.length_cons]
    refine ⟨by omega, ?_, by omega, ?_⟩
    · rw [Nat.succ_mul]
      omega
    · rw [Nat.add_mul]
      omega

theorem ChainChecked.first_valid {index : ℕ}
    {first final : NativeBoundary} {segments : List (NativeSegmentReceipt akita)}
    (hne : segments ≠ [])
    (h : ChainChecked sha256 verifyComponents rom .current index first segments final) :
    first.validateFor sha256 .current = .ok () := by
  obtain ⟨segment, segments, rfl⟩ := List.exists_cons_of_ne_nil hne
  obtain ⟨-, hinitial, hchecked, -⟩ := ChainChecked.cons_iff.mp h
  rw [← hinitial]
  exact hchecked.initial

theorem exists_checkedDelta {before after : UInt64} (h : before.toNat ≤ after.toNat) :
    ∃ delta, checkedDelta before after = .ok delta :=
  ⟨_, Except.check_eq_ok.mpr
    ⟨rejectIf_eq_ok.mpr (UInt64.not_lt.mpr (UInt64.le_iff_toNat_le.mpr h)), rfl⟩⟩

theorem exists_between {first final : NativeBoundary}
    (h : ∀ kind, (first.logCursor kind).toNat ≤ (final.logCursor kind).toNat) :
    ∃ counts, ProtocolLogCounts.between first final = .ok counts := by
  obtain ⟨bus, hbus⟩ := exists_checkedDelta (h .bus)
  obtain ⟨input, hinput⟩ := exists_checkedDelta (h .input)
  obtain ⟨output, houtput⟩ := exists_checkedDelta (h .output)
  obtain ⟨isa, hisa⟩ := exists_checkedDelta (h .isa)
  exact ⟨⟨bus, input, output, isa⟩, Except.bind_eq_ok.mpr ⟨bus, hbus, Except.bind_eq_ok.mpr
    ⟨input, hinput, Except.bind_eq_ok.mpr ⟨output, houtput, Except.bind_eq_ok.mpr
      ⟨isa, hisa, rfl⟩⟩⟩⟩⟩

/-- A statement that is made has been checked. -/
theorem newFor_of_ok {rom : CommitmentIdentity} {first final : NativeBoundary}
    {segmentCount transitionCount relationRowCount : UInt64} {statement : NativeStatement}
    (h : NativeStatement.newFor sha256 .current rom first final segmentCount transitionCount
      relationRowCount = .ok statement) :
    statement.Valid sha256 ∧ statement.rom = rom ∧ statement.initial = first ∧
      statement.finalBoundary = final ∧ statement.segmentCount = segmentCount ∧
      statement.transitionCount = transitionCount ∧
      statement.relationRowCount = relationRowCount ∧
      statement.romByteLength = rom.committedLength := by
  obtain ⟨profile, -, h⟩ := Except.bind_eq_ok.mp h
  obtain ⟨cycles, -, h⟩ := Except.bind_eq_ok.mp h
  obtain ⟨logs, -, h⟩ := Except.bind_eq_ok.mp h
  obtain ⟨hvalid, h⟩ := Except.check_eq_ok.mp h
  cases h
  exact ⟨NativeStatement.validate_eq_ok.mp hvalid, rfl, rfl, rfl, rfl, rfl, rfl, rfl⟩

theorem directRomIdentityFor_of_ok {rom : RomCommitment akita} {identity : CommitmentIdentity}
    (h : directRomIdentityFor sha256 .current rom = .ok identity) :
    identity.committedLength = rom.logicalByteLength ∧
      identity.validateFor sha256 .current .rom rom.logicalByteLength = .ok () := by
  obtain ⟨-, h⟩ := Except.check_eq_ok.mp h
  obtain ⟨bytes, -, h⟩ := Except.bind_eq_ok.mp h
  cases h
  exact ⟨rfl, rejectIf_eq_ok.mpr (by simp [directIdentity])⟩

/-- A statement about a chain can be made when its profiles and its ROM are the same. -/
theorem exists_newFor {segments : List (NativeSegmentReceipt akita)} {rom : RomCommitment akita}
    {identity : CommitmentIdentity} {first final : NativeBoundary} {profile : UInt64}
    {count transitions rows : UInt64} (hne : segments ≠ [])
    (hmost : segments.length ≤ maxNativeSegmentCount)
    (hchain : ChainChecked sha256 trustComponents rom .current 0 first segments final)
    (hcount : segments.length = count.toNat)
    (htransitions : (segments.map (·.transitionCount.toNat)).sum = transitions.toNat)
    (hrows : (segments.map (·.activeRowCount.toNat)).sum = rows.toNat)
    (hidentity : directRomIdentityFor sha256 .current rom = .ok identity)
    (hfirst : first.machineProfile = .ok profile) (hfinal : final.machineProfile = .ok profile)
    (hlength : romByteLengthForMachineProfile profile = .ok rom.logicalByteLength)
    (hfirstValid : first.validateFor sha256 .current = .ok ())
    (hfinalValid : final.validateFor sha256 .current = .ok ()) :
    ∃ statement, NativeStatement.newFor sha256 .current identity first final count transitions
      rows = .ok statement := by
  obtain ⟨hcycles, hlogs⟩ := hchain.growth
  obtain ⟨hleast, hcapacity, hordered, hbound⟩ := hchain.sums
  obtain ⟨cycles, hcycles⟩ := exists_checkedDelta hcycles
  obtain ⟨counts, hcounts⟩ := exists_between hlogs
  obtain ⟨hcommitted, hrom⟩ := directRomIdentityFor_of_ok hidentity
  have hpositive := List.length_pos_iff.mpr hne
  have hroom : maxNativeSegmentCount * uniformRowCount * basicBlockInstructionBound < 2 ^ 64 := by
    decide
  rw [hrows] at hleast hcapacity hordered hbound
  rw [htransitions] at hordered hbound
  rw [hcount] at hleast hmost hpositive
  refine ⟨_, Except.bind_eq_ok.mpr ⟨profile, hfirst, Except.bind_eq_ok.mpr ⟨cycles, hcycles,
    Except.bind_eq_ok.mpr ⟨counts, hcounts, Except.check_eq_ok.mpr ⟨?_, rfl⟩⟩⟩⟩⟩
  exact NativeStatement.validate_eq_ok.mpr {
    backendDigest_eq := rfl
    romByteLength_eq := hlength.trans (congrArg Except.ok hcommitted.symm)
    segmentCount_ne := by
      intro hzero
      have hzero : count.toNat = 0 := congrArg UInt64.toNat hzero
      omega
    segmentCount_le := hmost
    segmentCount_le_rows := UInt64.le_iff_toNat_le.mpr hleast
    rows_le := UInt64.le_iff_toNat_le.mpr hordered
    transitionCount_le := hbound
    maximum_lt := by
      refine lt_of_le_of_lt (Nat.mul_le_mul_right _ (hcapacity.trans ?_)) hroom
      exact Nat.mul_le_mul_right _ (hcount.trans_le hmost)
    rom := hcommitted ▸ hrom
    initial := hfirstValid
    finalBoundary := hfinalValid
    initialProfile := hfirst
    finalProfile := hfinal
    mCycleCount_eq := hcycles
    logs_eq := hcounts
    statementId_eq := rfl }

end Progress

end Zksm83
