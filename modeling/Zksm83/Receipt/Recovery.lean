import Zksm83.Receipt.NativeProver

/-!
# Interruption and recovery

Whatever interrupts the prover, and however often, its files hold the spool and the checkpoint of an
uninterrupted prover after some segments, apart from what lies behind the spool. They are taken up
as exactly that session, when the proofs in the spool hold, and what is published is what the
uninterrupted prover publishes. Read `interrupted_prover_exact` first.

A session keeps to the machine: its builder has taken as many steps as the spool proves, the last
boundary holds the scalars of its state, and its memory is committed.
-/

namespace Zksm83

open Rejecting

/-! ## The steps of a segment -/

namespace TraceBuilder

variable {sha256 : List Byte → CommitmentRoot} {builder last : TraceBuilder}
  {labels : List (TraceRow × TraceBuilder)}

theorem Reachable.runs (hreachable : Reachable sha256 builder)
    (hruns : Runs (Steps sha256) builder labels last) : Reachable sha256 last := by
  refine hruns.invariant (Reachable sha256) ?_ hreachable
  rintro state ⟨row, after⟩ next hstate ⟨hstep, rfl⟩
  have hnext : (outcome (TraceBuilder.step sha256) state).2 = after := congrArg Prod.snd hstep
  show Reachable sha256 after
  rw [← hnext]
  exact .step hstate

/-- Steps keep the ROM and the private input. -/
theorem Reachable.inputs_of_runs (hreachable : Reachable sha256 builder)
    (hruns : Runs (Steps sha256) builder labels last) :
    last.rom = builder.rom ∧ last.privateInput = builder.privateInput := by
  induction hruns with
  | nil => exact ⟨rfl, rfl⟩
  | @cons before middle after label labels hstep htail ih =>
    obtain ⟨row, next⟩ := label
    obtain ⟨haccepts, rfl⟩ := hstep
    obtain ⟨hrom, hinput⟩ := ih (hreachable.runs (.single ⟨haccepts, rfl⟩))
    rcases step_cases hreachable.consistent with
      ⟨error, hrun, -⟩ | ⟨row', next', existing, input, hrun, hstepped, -⟩
    · rw [Accepts, hrun] at haccepts
      cases haccepts
    · rw [Accepts, hrun] at haccepts
      cases haccepts
      exact ⟨hrom.trans hstepped.rom, hinput.trans hstepped.privateInput⟩

/-- A run of steps ends in the state of its last row. -/
theorem after_of_runs (hruns : Runs (Steps sha256) builder labels last) :
    ∀ row ∈ (labels.map Prod.fst).getLast?, row.after = last.state := by
  induction hruns with
  | nil => exact fun row hrow => (by cases hrow)
  | @cons before middle after label labels hstep htail ih =>
    obtain ⟨haccepts, rfl⟩ := hstep
    intro row hrow
    rw [List.map_cons, List.getLast?_cons] at hrow
    cases hlast : (labels.map Prod.fst).getLast? with
    | some other =>
      rw [hlast] at hrow
      obtain rfl : other = row := Option.some.inj hrow
      exact ih other hlast
    | none =>
      rw [hlast] at hrow
      obtain rfl : label.1 = row := Option.some.inj hrow
      rw [List.getLast?_eq_none_iff, List.map_eq_nil_iff] at hlast
      subst hlast
      cases htail
      exact (state_of_step haccepts).symm

end TraceBuilder

/-- The blocks of a segment lead from the state of the builder to that of the builder after it. -/
theorem FillsSegment.ends {sha256 : List Byte → CommitmentRoot} {builder last : TraceBuilder}
    {maximumSteps relationRowCapacity : ℕ} {segment : PackedSegment}
    (h : FillsSegment sha256 builder maximumSteps relationRowCapacity segment last) :
    (∀ block ∈ segment.blocks.head?, block.initialState = builder.state) ∧
      ∀ block ∈ segment.blocks.getLast?, block.finalState = last.state := by
  obtain ⟨labels, hruns, -, hpacks⟩ := h.steps
  constructor
  · intro block hblock
    obtain ⟨blocks, hblocks⟩ := List.head?_eq_some_iff.mp hblock
    have hexact := hpacks.exact block (by rw [hblocks]; exact List.mem_cons_self)
    have hconcat := hpacks.concat
    rw [hblocks, List.flatMap_cons] at hconcat
    rw [hexact.initialState]
    refine (TraceBuilder.contiguous_of_runs hruns).2 _ ?_
    rw [← hconcat, List.head?_append_of_ne_nil _ block.nonempty]
    exact List.head_mem_head? block.nonempty
  · intro block hblock
    obtain ⟨blocks, hblocks⟩ := List.getLast?_eq_some_iff.mp hblock
    have hexact := hpacks.exact block (by rw [hblocks]; simp)
    have hconcat := hpacks.concat
    rw [hblocks, List.flatMap_append, List.flatMap_singleton] at hconcat
    rw [hexact.finalState]
    refine TraceBuilder.after_of_runs hruns _ ?_
    rw [← hconcat, List.getLast?_append_of_ne_nil _ block.nonempty]
    exact List.getLast_mem_getLast? block.nonempty

namespace NativeProver

open NativeReceiptStreamProver (start_holds)

variable {akita : Akita} {Columns : Type} {env : ProverEnvironment akita Columns}
  {inputs : CommandInputs akita Columns} {session next : Session akita Columns}

/-! ## Sessions -/

theorem constructBlockWitness_eq_ok {blocks : List BasicBlock} {trace : PackedTrace}
    (h : env.constructBlockWitness blocks = .ok trace) :
    ∃ first last, blocks.head? = some first ∧ blocks.getLast? = some last ∧
      trace.initialState = .fromVmState first.initialState ∧
      trace.finalState = .fromVmState last.finalState := by
  unfold ProverEnvironment.constructBlockWitness at h
  split at h
  · rename_i first last hfirst hlast
    obtain ⟨witness, -, h⟩ := Except.bind_eq_ok.mp h
    cases h
    exact ⟨first, last, hfirst, hlast, rfl, rfl⟩
  · cases h

/-- What a session goes through to prove a segment. -/
theorem proveNext_parts (h : proveNext env inputs session = .ok next) :
    ∃ segment trace,
      Accepts (TraceBuilder.fillPackedSegmentWithCapacity env.sha256
        (inputs.expected.completedSteps.toNat - session.completedSteps.toNat) uniformRowCount)
        session.builder segment next.builder ∧
      env.constructBlockWitness segment.blocks = .ok trace ∧
      env.commitMemory next.builder.memory.checkpointBytes = .ok next.initialMemory ∧
      session.prover.append env.digest env.library
        ⟨trace, session.initialMemory, next.initialMemory⟩ .none = (.ok (), next.prover) ∧
      next.completedSteps = next.prover.transitionCount ∧
      next.completedSteps.toNat = session.completedSteps.toNat + segment.completedSteps := by
  unfold proveNext at h
  obtain ⟨segment, hsegment, h⟩ := Except.bind_eq_ok.mp h
  obtain ⟨trace, htrace, h⟩ := Except.bind_eq_ok.mp h
  obtain ⟨-, h⟩ := Except.check_eq_ok.mp h
  obtain ⟨-, h⟩ := Except.check_eq_ok.mp h
  obtain ⟨finalMemory, hmemory, h⟩ := Except.bind_eq_ok.mp h
  obtain ⟨happended, h⟩ := Except.check_eq_ok.mp h
  obtain ⟨-, h⟩ := Except.check_eq_ok.mp h
  obtain ⟨hcount, h⟩ := Except.check_eq_ok.mp h
  cases h
  exact ⟨segment, trace, Prod.ext (Except.mapError_eq_ok.mp hsegment) rfl, htrace,
    Except.mapError_eq_ok.mp hmemory, Prod.ext (Except.mapError_eq_ok.mp happended) rfl, rfl,
    not_not.mp (rejectIf_eq_ok.mp hcount)⟩

/-- A session that began as `first` has proved its segments. Its builder is as many steps on as they
prove, from inputs that have not changed; the first and the last boundary hold the scalars of its
first and its present state; and its memory is the one that the last segment ends with. -/
structure Tracks (env : ProverEnvironment akita Columns) (inputs : CommandInputs akita Columns)
    (first session : Session akita Columns) (segments : List (NativeSegmentReceipt akita)) :
    Prop where
  reachable : TraceBuilder.Reachable env.sha256 session.builder
  rom : RomImage.new env.sha256 inputs.romBytes = .ok session.builder.rom
  input : session.builder.privateInput = inputs.input
  steps : ∃ labels, Runs (TraceBuilder.Steps env.sha256) first.builder labels session.builder ∧
    labels.length = session.completedSteps.toNat
  memory : env.commitMemory session.builder.memory.checkpointBytes = .ok session.initialMemory
  holds : session.prover.Holds env.digest segments
  romCommitment : session.prover.rom = inputs.rom
  completed : session.completedSteps = session.prover.transitionCount
  initial : session.prover.initial = none ∧ session.builder = first.builder ∨
    ∃ boundary, session.prover.initial = some boundary ∧
      boundary.state = .fromVmState first.builder.state
  boundary : ∀ boundary ∈ session.prover.boundary,
    boundary.state = .fromVmState session.builder.state
  previousMemory : ∀ memory ∈ session.prover.previousMemory,
    memory = session.initialMemory.commitment ∧ ∃ bytes, memory.canonicalBytes = .ok bytes

theorem start_tracks {files : Files} {first : Session akita Columns}
    (h : start env inputs files = .ok first) : Tracks env inputs first first [] := by
  obtain ⟨-, h⟩ := Except.check_eq_ok.mp h
  obtain ⟨-, h⟩ := Except.check_eq_ok.mp h
  obtain ⟨memory, hmemory, h⟩ := Except.bind_eq_ok.mp h
  obtain ⟨initialMemory, hinitialMemory, h⟩ := Except.bind_eq_ok.mp h
  obtain ⟨rom, hrom, h⟩ := Except.bind_eq_ok.mp h
  obtain ⟨builder, hbuilder, h⟩ := Except.bind_eq_ok.mp h
  obtain ⟨prover, hprover, h⟩ := Except.bind_eq_ok.mp h
  cases h
  rw [Except.mapError_eq_ok] at hmemory hinitialMemory hrom hbuilder hprover
  cases hprover
  have hreachable : TraceBuilder.Reachable env.sha256 builder :=
    .newDmgPostBootMbc3Profile hrom (.built (.new hmemory)) hbuilder
  obtain ⟨state, -, hbuilder⟩ := Except.bind_eq_ok.mp hbuilder
  cases hbuilder
  exact {
    reachable := hreachable
    rom := hrom
    input := rfl
    steps := ⟨[], .nil _, rfl⟩
    memory := hinitialMemory
    holds := start_holds
    romCommitment := rfl
    completed := rfl
    initial := .inl ⟨rfl, rfl⟩
    boundary := fun boundary hmem => (by cases hmem)
    previousMemory := fun memory hmem => (by cases hmem) }

/-- An append that nothing disturbs writes a frame behind those of the spool. -/
theorem append_eq_ok {sha256 : List Byte → Digest} {library : ProverLibrary akita Columns}
    {prover next : NativeReceiptStreamProver akita Columns}
    {segments : List (NativeSegmentReceipt akita)} {witness : NativeSegmentWitness akita Columns}
    (hholds : prover.Holds sha256 segments)
    (h : prover.append sha256 library witness .none = (.ok (), next)) :
    prover.appendFrame sha256 library (witness, .none) = .ok next := by
  unfold NativeReceiptStreamProver.append at h
  unfold NativeReceiptStreamProver.appendFrame
  cases hprepare : prover.prepare sha256 library witness .none with
  | error error =>
    rw [hprepare] at h
    cases h
  | ok result =>
    obtain ⟨frame, extended⟩ := result
    rw [hprepare] at h
    obtain rfl := congrArg Prod.snd h
    have hwritten : writeAt prover.spool prover.spoolBytes.toNat frame = prover.spool ++ frame := by
      unfold writeAt
      rw [← hholds.length_eq, List.take_length, List.drop_eq_nil_of_le (Nat.le_add_right _ _),
        List.append_nil]
    show Except.ok (extended.withSpool (prover.spool ++ frame)) = _
    rw [← hwritten]
    rfl

/-- A segment that was proved takes the session on by its steps. -/
theorem Tracks.step {first : Session akita Columns} {segments : List (NativeSegmentReceipt akita)}
    (h : Tracks env inputs first session segments)
    (hnext : proveNext env inputs session = .ok next) :
    (∃ segment, Tracks env inputs first next (segments ++ [segment])) ∧
      session.completedSteps.toNat < next.completedSteps.toNat := by
  obtain ⟨filled, trace, hfill, htrace, hmemory, happend, hcompleted, hcount⟩ :=
    proveNext_parts hnext
  have hfills := (TraceBuilder.fillPackedSegment_exact _ _ _ _).1 _ _ hfill
  obtain ⟨labels, hruns, hlabels, hpacks⟩ := hfills.steps
  obtain ⟨before, hbefore, hbeforeCount⟩ := h.steps
  obtain ⟨hrom, hinput⟩ := h.reachable.inputs_of_runs hruns
  obtain ⟨segment, boundary, hholds, hproverRom, hshows, hverified⟩ :=
    h.holds.append (append_eq_ok h.holds happend)
  obtain ⟨⟨expected, -, -, hsegment⟩, -, -, -, hinitial, hboundary, hprevious⟩ :=
    verifySpoolNext_eq_ok.mp hverified
  obtain ⟨-, -, hchecked⟩ := verifySegment_eq_ok.mp hsegment
  obtain ⟨firstBlock, lastBlock, hfirst, hlast, hinitialState, hfinalState⟩ :=
    constructBlockWitness_eq_ok htrace
  obtain ⟨hfrom, hto⟩ := hfills.ends
  have hstart : segment.initial.state = .fromVmState session.builder.state := by
    rw [hshows.initialState, hinitialState, hfrom firstBlock hfirst]
  refine ⟨⟨segment, ?_⟩, ?_⟩
  · exact {
      reachable := h.reachable.runs hruns
      rom := hrom ▸ h.rom
      input := hinput.trans h.input
      steps := ⟨before ++ labels, hbefore.append hruns, by
        rw [List.length_append, hbeforeCount, hlabels, hcount]⟩
      memory := hmemory
      holds := hholds
      romCommitment := hproverRom.trans h.romCommitment
      completed := hcompleted
      initial := by
        refine .inr ⟨_, hinitial, ?_⟩
        rcases h.initial with ⟨hnone, hbuilder⟩ | ⟨initial, hsome, hstate⟩
        · have hnone' : session.prover.progress.initial = none := hnone
          rw [hnone', ← hbuilder]
          exact hstart
        · have hsome' : session.prover.progress.initial = some initial := hsome
          rw [hsome']
          exact hstate
      boundary := by
        intro other hother
        obtain rfl := Option.some.inj (hboundary.symm.trans hother)
        rw [hshows.finalState, hfinalState, hto lastBlock hlast]
      previousMemory := by
        intro memory hmem
        obtain rfl := Option.some.inj (hprevious.symm.trans hmem)
        obtain ⟨bytes, hbytes, -⟩ := Except.bind_eq_ok.mp hchecked.finalMemory
        exact ⟨hshows.finalMemory, bytes, Except.mapError_eq_ok.mp hbytes⟩ }
  · have hblocks := hfills.blocks_pos
    have hrows := hpacks.length_le
    rw [List.length_map] at hrows
    omega

/-! ## Checkpoints -/

/-- The checkpoint of a session with segments passes its checks. -/
theorem Tracks.validates {first : Session akita Columns}
    {segments : List (NativeSegmentReceipt akita)} (h : Tracks env inputs first session segments)
    (hne : segments ≠ []) :
    validateProgress env (progressOf env inputs session) (identities env inputs) = .ok () := by
  obtain ⟨_, _, -, -, hchain, htransitions, hrows⟩ := verifySpool_chain hne h.holds.verified
  obtain ⟨hleast, hcapacity, hsteps, hmost⟩ := hchain.sums
  have hcount : segments.length = session.prover.segmentCount.toNat :=
    ((verifySpool_count h.holds.verified).trans (Nat.zero_add _)).symm
  have hpositive : 0 < segments.length := List.length_pos_iff.mpr hne
  have hmany := h.holds.count_le
  have hbytes : session.prover.spoolBytes.toNat ≠ 0 := by
    rw [← h.holds.length_eq, ne_eq, List.length_eq_zero_iff]
    exact fun hempty => hne (h.holds.nil_iff.mpr hempty)
  have hwithin := h.holds.bytes_le
  change _ = session.prover.transitionCount.toNat at htransitions
  change _ = session.prover.relationRowCount.toNat at hrows
  rw [htransitions, hrows] at hmost hsteps
  rw [hrows] at hleast hcapacity
  rw [hcount] at hpositive hmany hleast hcapacity
  have hrowBound : uniformRowCount = 16384 := rfl
  have hblockBound : basicBlockInstructionBound = 4 := rfl
  have hsegmentBound : maxNativeSegmentCount = 4096 := rfl
  unfold validateProgress progressOf
  simp only [Except.check_eq_ok, rejectIf_eq_ok, not_true_eq_false, ne_eq, or_self,
    not_false_eq_true, true_and, and_true]
  rw [hrowBound] at hcapacity ⊢
  rw [hblockBound] at hmost ⊢
  rw [hsegmentBound] at hmany ⊢
  omega

/-- The files hold the spool and the checkpoint of a session, and maybe more behind the spool. -/
structure Saved (env : ProverEnvironment akita Columns) (inputs : CommandInputs akita Columns)
    (session : Session akita Columns) (files : Files) : Prop where
  spool : ∃ tail, files.spool = some (session.prover.spool ++ tail)
  progress : files.progress = some (progressOf env inputs session)

theorem recoverSpool_append (spool tail : List Byte) :
    recoverSpool (spool ++ tail) spool.length = .ok spool := by
  unfold recoverSpool spoolRecovery
  rw [List.length_append, if_neg (not_lt.mpr (Nat.le_add_right _ _))]
  by_cases hexact : spool.length + tail.length = spool.length
  · obtain rfl : tail = [] := List.length_eq_zero_iff.mp (by omega)
    rw [if_pos hexact, List.append_nil]
    rfl
  · rw [if_neg hexact]
    show Except.ok ((spool ++ tail).take spool.length) = _
    rw [List.take_left]

/-- A checkpoint can be taken up, with the frames that it counts. -/
theorem Saved.recover_eq {first : Session akita Columns}
    {segments : List (NativeSegmentReceipt akita)} {files : Files}
    (hsaved : Saved env inputs session files) (h : Tracks env inputs first session segments)
    (hne : segments ≠ []) :
    recover env inputs files = .ok (progressOf env inputs session, session.prover.spool) := by
  obtain ⟨tail, htail⟩ := hsaved.spool
  have hlength : (progressOf env inputs session).spoolBytes.toNat = session.prover.spool.length :=
    h.holds.length_eq.symm
  unfold recover
  refine Except.bind_eq_ok.mpr ⟨_, someOr_eq_ok.mpr hsaved.progress, Except.check_eq_ok.mpr
    ⟨h.validates hne, Except.bind_eq_ok.mpr ⟨_, someOr_eq_ok.mpr htail, Except.bind_eq_ok.mpr
      ⟨session.prover.spool, ?_, rfl⟩⟩⟩⟩
  rw [hlength]
  exact recoverSpool_append _ _

/-- The session of a checkpoint is the one that wrote it. -/
theorem Tracks.restoreFrom_eq {first : Session akita Columns}
    {segments : List (NativeSegmentReceipt akita)} (h : Tracks env inputs first session segments)
    (hne : segments ≠ []) :
    restoreFrom env inputs (progressOf env inputs session) session.prover = .ok session := by
  obtain ⟨_, final, -, hfinal, -⟩ := verifySpool_chain hne h.holds.verified
  obtain ⟨memory, hmemory⟩ := verifySpool_memory hne h.holds.verified
  obtain ⟨hcommitment, bytes, hbytes⟩ := h.previousMemory memory hmemory
  have hinput : session.builder.privateInput.length < 2 ^ 64 := by
    rw [h.input]
    exact inputs.input_le.trans_lt (by decide)
  obtain ⟨image, himage, hresume⟩ := h.reachable.resumes.same hinput
  have hverified : validateVerifiedProgress env (progressOf env inputs session)
      ⟨session.prover.segmentCount, session.prover.transitionCount,
        session.prover.relationRowCount, session.prover.spoolBytes, final, memory⟩ =
      .ok session.initialMemory := by
    unfold validateVerifiedProgress validateVerifiedCounters
    simp only [↓Except.check_eq_ok, Except.bind_eq_ok, Except.mapError_eq_ok, rejectIf_eq_ok]
    refine ⟨?_, ?_, session.initialMemory, h.memory, bytes, hbytes, bytes, ?_, ?_, rfl⟩
    · simp [progressOf]
    · rw [not_not]
      exact h.boundary final hfinal
    · rw [← hcommitment]
      exact hbytes
    · exact not_not.mpr rfl
  unfold restoreFrom
  refine Except.bind_eq_ok.mpr ⟨final, someOr_eq_ok.mpr hfinal, Except.bind_eq_ok.mpr
    ⟨memory, someOr_eq_ok.mpr hmemory, Except.bind_eq_ok.mpr ⟨_, hverified, Except.bind_eq_ok.mpr
      ⟨image, Except.mapError_eq_ok.mpr himage, Except.bind_eq_ok.mpr
        ⟨_, Except.mapError_eq_ok.mpr h.rom, Except.bind_eq_ok.mpr ⟨session.builder,
          Except.mapError_eq_ok.mpr ?_, ?_⟩⟩⟩⟩⟩⟩
  · rw [← h.input]
    exact hresume
  · show Except.ok _ = _
    rw [show (progressOf env inputs session).completedSteps = session.completedSteps from
      h.completed.symm]

/-- A checkpoint is taken up as the session that wrote it, exactly when the proofs in the spool
hold. -/
theorem Tracks.restore_eq_ok {first : Session akita Columns}
    {segments : List (NativeSegmentReceipt akita)} (h : Tracks env inputs first session segments)
    (hne : segments ≠ []) :
    restore env inputs (progressOf env inputs session) session.prover.spool = .ok next ↔
      (∀ segment ∈ segments, segment.Proved env.verifyComponents inputs.rom.commitment) ∧
        next = session := by
  have hresume (prover : NativeReceiptStreamProver akita Columns) :
      NativeReceiptStreamProver.resume env.digest env.verifyComponents inputs.rom
        session.prover.spool = .ok prover ↔ segments ≠ [] ∧
        (∀ segment ∈ segments, segment.Proved env.verifyComponents inputs.rom.commitment) ∧
          prover = session.prover := by
    rw [← h.romCommitment]
    exact NativeReceiptStreamProver.resume_eq_ok h.holds
  unfold restore
  simp only [Except.bind_eq_ok, Except.mapError_eq_ok, hresume]
  constructor
  · rintro ⟨prover, ⟨-, hproved, rfl⟩, hrestore⟩
    rw [h.restoreFrom_eq hne] at hrestore
    exact ⟨hproved, (Except.ok.inj hrestore).symm⟩
  · rintro ⟨hproved, rfl⟩
    exact ⟨_, ⟨hne, hproved, rfl⟩, h.restoreFrom_eq hne⟩

/-! ## Invocations -/

variable (env inputs) in
/-- The session of an uninterrupted prover after so many segments. -/
def uninterrupted : ℕ → Except CommandError (Session akita Columns)
  | 0 => start env inputs .none
  | count + 1 => uninterrupted count >>= proveNext env inputs

theorem uninterrupted_tracks {count : ℕ} (h : uninterrupted env inputs count = .ok session) :
    ∃ first segments, start env inputs .none = .ok first ∧ segments.length = count ∧
      Tracks env inputs first session segments := by
  induction count generalizing session with
  | zero => exact ⟨session, [], h, rfl, start_tracks h⟩
  | succ count ih =>
    obtain ⟨before, hbefore, hnext⟩ := Except.bind_eq_ok.mp h
    obtain ⟨first, segments, hfirst, hlength, htracks⟩ := ih hbefore
    obtain ⟨⟨segment, hsession⟩, -⟩ := htracks.step hnext
    exact ⟨first, segments ++ [segment], hfirst, by rw [List.length_append, hlength]; rfl, hsession⟩

/-- Nothing is published of a session before it has come to the endpoint, and then its conclusion,
the statement first. -/
structure Published (env : ProverEnvironment akita Columns) (inputs : CommandInputs akita Columns)
    (session : Session akita Columns) (files : Files) : Prop where
  statement : ∀ bytes ∈ files.statement,
    session.completedSteps = inputs.expected.completedSteps ∧
      ∃ conclusion, conclude env inputs session = .ok conclusion ∧
        bytes = conclusion.statementBytes
  receipt : ∀ bytes ∈ files.receipt, ∃ conclusion, conclude env inputs session = .ok conclusion ∧
    files.statement = some conclusion.statementBytes ∧ bytes = conclusion.receipt

/-- Nothing has been checkpointed yet, and nothing published. -/
def Blank (files : Files) : Prop :=
  files.progress = none ∧ files.statement = none ∧ files.receipt = none

/-- The files are those of an uninterrupted session after so many segments. -/
structure Current (env : ProverEnvironment akita Columns) (inputs : CommandInputs akita Columns)
    (count : ℕ) (session : Session akita Columns) (files : Files) : Prop where
  session_eq : uninterrupted env inputs count = .ok session
  saved : 0 < count → Saved env inputs session files
  blank : count = 0 → Blank files
  published : Published env inputs session files

/-- The files are blank or those of an uninterrupted session. -/
def Recorded (env : ProverEnvironment akita Columns) (inputs : CommandInputs akita Columns)
    (files : Files) : Prop :=
  Blank files ∨ ∃ count session, 0 < count ∧ Current env inputs count session files

variable {count : ℕ} {files : Files}

theorem Current.recorded (h : Current env inputs count session files) :
    Recorded env inputs files := by
  rcases count.eq_zero_or_pos with rfl | hpositive
  · exact .inl (h.blank rfl)
  · exact .inr ⟨count, session, hpositive, h⟩

/-- What is behind a spool does not count. -/
theorem Current.tail (h : Current env inputs count session files) (tail : List Byte) :
    Current env inputs count session { files with spool := files.spool.map (· ++ tail) } where
  session_eq := h.session_eq
  saved := by
    intro hpositive
    obtain ⟨⟨before, hspool⟩, hprogress⟩ := h.saved hpositive
    refine ⟨⟨before ++ tail, ?_⟩, hprogress⟩
    rw [hspool, Option.map_some, List.append_assoc]
  blank := h.blank
  published := ⟨h.published.statement, h.published.receipt⟩

/-- A segment takes the files on, together with the session. -/
theorem Current.step (h : Current env inputs count session files)
    (hmore : ¬inputs.expected.completedSteps ≤ session.completedSteps)
    (hnext : proveNext env inputs session = .ok next) :
    Current env inputs (count + 1) next (written env inputs next files) := by
  have hstatement : files.statement = none := by
    rw [Option.eq_none_iff_forall_not_mem]
    intro bytes hbytes
    exact hmore (UInt64.le_of_eq (h.published.statement bytes hbytes).1.symm)
  have hreceipt : files.receipt = none := by
    rw [Option.eq_none_iff_forall_not_mem]
    intro bytes hbytes
    obtain ⟨conclusion, -, hsome, -⟩ := h.published.receipt bytes hbytes
    rw [hstatement] at hsome
    cases hsome
  exact {
    session_eq := Except.bind_eq_ok.mpr ⟨session, h.session_eq, hnext⟩
    saved := fun _ => ⟨⟨[], by rw [List.append_nil]; rfl⟩, rfl⟩
    blank := fun hzero => absurd hzero (Nat.succ_ne_zero count)
    published := by
      refine ⟨fun bytes hbytes => ?_, fun bytes hbytes => ?_⟩
      · rw [show (written env inputs next files).statement = none from hstatement] at hbytes
        cases hbytes
      · rw [show (written env inputs next files).receipt = none from hreceipt] at hbytes
        cases hbytes }

theorem Current.proveSegments (h : Current env inputs count session files) (limit : ℕ) :
    ∃ count', Current env inputs count'
      (proveSegments env inputs limit session files).1.1
      (proveSegments env inputs limit session files).1.2 := by
  induction limit generalizing count session files with
  | zero => exact ⟨count, h⟩
  | succ limit ih =>
    rw [NativeProver.proveSegments]
    split
    case isTrue => exact ⟨count, h⟩
    case isFalse hmore =>
      cases hnext : proveNext env inputs session with
      | error error => exact ⟨count, h⟩
      | ok next => exact ih (h.step hmore hnext)

/-- A session without segments has nothing to conclude. -/
theorem conclude_pos {conclusion : Conclusion}
    (hsession : uninterrupted env inputs count = .ok session)
    (h : conclude env inputs session = .ok conclusion) : 0 < count := by
  rw [Nat.pos_iff_ne_zero]
  rintro rfl
  obtain ⟨first, segments, -, hlength, htracks⟩ := uninterrupted_tracks hsession
  obtain rfl := List.length_eq_zero_iff.mp hlength
  obtain ⟨-, h⟩ := Except.check_eq_ok.mp h
  obtain ⟨⟨statement, output⟩, hfinish, -⟩ := Except.bind_eq_ok.mp h
  obtain ⟨initial, -, -, -, -, hinitial, -⟩ :=
    NativeReceiptStreamProver.finish_eq_ok.mp (Except.mapError_eq_ok.mp hfinish)
  have hstart : session.prover.progress = .start akita :=
    (Except.ok.inj htracks.holds.verified).symm
  have hnone : session.prover.initial = none := congrArg SpoolProgress.initial hstart
  rw [hinitial] at hnone
  cases hnone

theorem publishStatement_eq_ok {conclusion : Conclusion} {after : Files}
    (h : publishStatement conclusion files = .ok after) :
    after = { files with statement := some conclusion.statementBytes } := by
  obtain ⟨spool, progress, statement, receipt⟩ := files
  unfold publishStatement at h
  cases statement with
  | none => exact (Except.ok.inj h).symm
  | some existing =>
    dsimp only at h
    split at h
    case isTrue => cases h
    case isFalse hsame =>
      rw [← not_not.mp hsame]
      exact (Except.ok.inj h).symm

/-- What is published of a session that has come to the endpoint is its conclusion. -/
theorem Current.finalize (h : Current env inputs count session files)
    (hend : session.completedSteps = inputs.expected.completedSteps) (interruption : Interruption) :
    Current env inputs count session (finalize env inputs interruption session files) := by
  unfold NativeProver.finalize
  cases hconclude : conclude env inputs session with
  | error error => exact h
  | ok conclusion =>
    have hpositive := conclude_pos h.session_eq hconclude
    obtain ⟨hspool, hprogress⟩ := h.saved hpositive
    have hstated : Current env inputs count session
        { files with statement := some conclusion.statementBytes } := {
      session_eq := h.session_eq
      saved := fun _ => ⟨hspool, hprogress⟩
      blank := fun hzero => absurd hzero hpositive.ne'
      published := by
        refine ⟨fun bytes hbytes => ⟨hend, conclusion, hconclude, (Option.some.inj hbytes).symm⟩,
          fun bytes hbytes => ?_⟩
        obtain ⟨other, hother, -, rfl⟩ := h.published.receipt bytes hbytes
        obtain rfl := Except.ok.inj (hconclude.symm.trans hother)
        exact ⟨conclusion, hconclude, rfl, rfl⟩ }
    dsimp only
    split
    case isTrue => exact h
    case isFalse =>
      cases hpublish : publishStatement conclusion files with
      | error error => exact h
      | ok after =>
        obtain rfl := publishStatement_eq_ok hpublish
        dsimp only
        split
        case isTrue => exact hstated
        case isFalse =>
          exact {
            session_eq := h.session_eq
            saved := fun _ => ⟨hspool, hprogress⟩
            blank := fun hzero => absurd hzero hpositive.ne'
            published := ⟨hstated.published.statement, fun bytes hbytes =>
              ⟨conclusion, hconclude, rfl, (Option.some.inj hbytes).symm⟩⟩ }

theorem start_none (h : start env inputs files = .ok session) :
    files.progress = none ∧ start env inputs .none = .ok session := by
  obtain ⟨-, h⟩ := Except.check_eq_ok.mp h
  obtain ⟨hprogress, h⟩ := Except.check_eq_ok.mp h
  refine ⟨?_, Except.check_eq_ok.mpr ⟨rfl, Except.check_eq_ok.mpr ⟨rfl, h⟩⟩⟩
  rw [rejectIf_eq_ok, Bool.not_eq_true, Option.isSome_eq_false_iff, Option.isNone_iff_eq_none]
    at hprogress
  exact hprogress

/-- A session is started only where nothing has been checkpointed. -/
theorem Recorded.started (h : Recorded env inputs files)
    (hstart : start env inputs files = .ok session) :
    Current env inputs 0 session { files with spool := some [] } := by
  obtain ⟨hprogress, hnone⟩ := start_none hstart
  rcases h with ⟨-, hstatement, hreceipt⟩ | ⟨count, other, hpositive, hcurrent⟩
  · exact {
      session_eq := hnone
      saved := fun hpositive => absurd hpositive (lt_irrefl 0)
      blank := fun _ => ⟨hprogress, hstatement, hreceipt⟩
      published := by
        refine ⟨fun bytes hbytes => ?_, fun bytes hbytes => ?_⟩
        · rw [Option.mem_def, hstatement] at hbytes
          cases hbytes
        · rw [Option.mem_def, hreceipt] at hbytes
          cases hbytes }
  · rw [(hcurrent.saved hpositive).progress] at hprogress
    cases hprogress

/-- What lies behind a spool can be cut off. -/
theorem Current.trimmed (h : Current env inputs count session files) (hpositive : 0 < count) :
    Current env inputs count session { files with spool := some session.prover.spool } where
  session_eq := h.session_eq
  saved := fun _ => ⟨⟨[], by rw [List.append_nil]⟩, (h.saved hpositive).progress⟩
  blank := fun hzero => absurd hzero hpositive.ne'
  published := ⟨h.published.statement, h.published.receipt⟩

/-- A session that is taken up is the one that wrote the checkpoint. -/
theorem Current.launch_eq (h : Current env inputs count session files) (hpositive : 0 < count)
    (hreceipt : files.receipt = none) :
    launch env inputs true files = (restore env inputs (progressOf env inputs session)
      session.prover.spool, { files with spool := some session.prover.spool }) := by
  obtain ⟨first, segments, -, hlength, htracks⟩ := uninterrupted_tracks h.session_eq
  have hne : segments ≠ [] := by
    rw [← List.length_pos_iff, hlength]
    exact hpositive
  unfold launch
  rw [hreceipt, (h.saved hpositive).recover_eq htracks hne]
  rfl

/-- A launch fails and leaves the files recorded, or an uninterrupted session is at work on
them. -/
inductive Launched (env : ProverEnvironment akita Columns) (inputs : CommandInputs akita Columns) :
    Except CommandError (Session akita Columns) × Files → Prop
  | failed {error : CommandError} {files : Files} (h : Recorded env inputs files) :
    Launched env inputs (.error error, files)
  | running {count : ℕ} {session : Session akita Columns} {files : Files}
    (h : Current env inputs count session files) : Launched env inputs (.ok session, files)

theorem Recorded.resumed (h : Recorded env inputs files) (hreceipt : files.receipt = none) :
    Launched env inputs (launch env inputs true files) := by
  rcases h with hblank | ⟨count, session, hpositive, hcurrent⟩
  -- without a checkpoint there is nothing to take up
  · have hlaunch : launch env inputs true files =
        (.error (.missing .progressCheckpoint), files) := by
      unfold launch recover
      rw [hreceipt, hblank.1]
      rfl
    rw [hlaunch]
    exact .failed (.inl hblank)
  · obtain ⟨first, segments, -, hlength, htracks⟩ := uninterrupted_tracks hcurrent.session_eq
    have hne : segments ≠ [] := by
      rw [← List.length_pos_iff, hlength]
      exact hpositive
    have htrimmed := hcurrent.trimmed hpositive
    rw [hcurrent.launch_eq hpositive hreceipt]
    cases hrestore : restore env inputs (progressOf env inputs session) session.prover.spool with
    | error error => exact .failed htrimmed.recorded
    | ok other =>
      obtain ⟨-, rfl⟩ := (htracks.restore_eq_ok hne).mp hrestore
      exact .running htrimmed

theorem Recorded.begun (h : Recorded env inputs files) (hreceipt : files.receipt = none) :
    Launched env inputs (launch env inputs false files) := by
  unfold launch
  rw [hreceipt]
  cases hstatement : files.statement with
  | some statement => exact .failed h
  | none =>
    cases hstart : start env inputs files with
    | error error => exact .failed h
    | ok session =>
      have hstarted := h.started hstart
      rw [hreceipt, hstatement] at hstarted
      exact .running hstarted

/-- A session that is started or taken up is an uninterrupted one, and the files are still
recorded when none is. -/
theorem launch_recorded (h : Recorded env inputs files) (resume : Bool) :
    Launched env inputs (launch env inputs resume files) := by
  cases hreceipt : files.receipt with
  | some receipt =>
    unfold launch
    rw [hreceipt]
    exact .failed h
  | none =>
    cases resume with
    | true => exact h.resumed hreceipt
    | false => exact h.begun hreceipt

theorem perform_recorded (h : Recorded env inputs files) (invocation : Invocation) :
    Recorded env inputs (perform env inputs files invocation) := by
  have hlaunched := launch_recorded h invocation.resume
  unfold perform
  generalize launch env inputs invocation.resume files = launched at hlaunched
  cases hlaunched with
  | failed hrecorded => exact hrecorded
  | @running count session files' hcurrent =>
    dsimp only
    split
    case isTrue => exact hcurrent.recorded
    case isFalse =>
      obtain ⟨count', hproved⟩ := hcurrent.proveSegments
        (invocation.segmentLimit.getD inputs.expected.completedSteps.toNat)
      generalize NativeProver.proveSegments env inputs
        (invocation.segmentLimit.getD inputs.expected.completedSteps.toNat) session files' = proved
        at hproved
      obtain ⟨⟨last, written⟩, error⟩ := proved
      cases invocation.interruption with
      | proving tail => exact (hproved.tail tail).recorded
      | none | beforeStatement | beforeReceipt =>
        dsimp only
        split
        case isTrue => exact hproved.recorded
        case isFalse hend =>
          exact (hproved.finalize (not_not.mp (not_or.mp hend).2) _).recorded

theorem performed_recorded (invocations : List Invocation) (h : Recorded env inputs files) :
    Recorded env inputs (invocations.foldl (perform env inputs) files) := by
  induction invocations generalizing files with
  | nil => exact h
  | cons invocation invocations ih => exact ih (perform_recorded h invocation)

/-! ## The endpoint -/

/-- A state is the expected one: in everything but the roots, and in the input that it has read. -/
structure Reached (sha256 : List Byte → CommitmentRoot) (input : List Byte)
    (expected : ExpectedState) (actual : AuthenticatedState) : Prop where
  profile : actual.vm.profile = expected.profile
  cpu : actual.vm.cpu = expected.cpu
  mbc3 : actual.vm.mbc3 = expected.mbc3
  dmgDevices : actual.vm.dmgDevices = expected.dmgDevices
  inputLog : LogAccumulator.commit sha256 .input (input.take expected.inputLog.nextIndex) =
    .ok actual.inputLog
  outputLog : actual.outputLog = .empty sha256 .output

theorem validateEndpoint_eq_ok {actual : AuthenticatedState} {memory romBytes input : List Byte}
    {expected : ExpectedCheckpoint}
    (h : validateEndpoint env actual memory romBytes input expected = .ok ()) :
    memory = expected.memory ∧ Reached env.sha256 input expected.state actual := by
  obtain ⟨hmemory, h⟩ := Except.check_eq_ok.mp h
  obtain ⟨rom, -, h⟩ := Except.bind_eq_ok.mp h
  obtain ⟨image, -, h⟩ := Except.bind_eq_ok.mp h
  obtain ⟨-, h⟩ := Except.check_eq_ok.mp h
  obtain ⟨inputLog, hcommit, h⟩ := Except.bind_eq_ok.mp h
  obtain ⟨-, h⟩ := Except.check_eq_ok.mp h
  rw [rejectIf_eq_ok, not_not] at hmemory h
  obtain ⟨hprofile, hcpu, hmbc3, hdevices, -, -, hinput, houtput⟩ := h
  rw [← hinput] at hcommit
  exact ⟨hmemory, hprofile, hcpu, hmbc3, hdevices, Except.mapError_eq_ok.mp hcommit, houtput⟩

/-- What a conclusion says: the steps of the session, between its first state and the expected
one. -/
structure Concludes (env : ProverEnvironment akita Columns) (inputs : CommandInputs akita Columns)
    (first session : Session akita Columns) (segments : List (NativeSegmentReceipt akita))
    (conclusion : Conclusion) : Prop where
  reached : Reached env.sha256 inputs.input inputs.expected.state session.builder.state
  memory : session.builder.memory.checkpointBytes = inputs.expected.memory
  initial : conclusion.statement.initial.state = .fromVmState first.builder.state
  final : conclusion.statement.finalBoundary.state = .fromVmState session.builder.state
  transitions : conclusion.statement.transitionCount = session.completedSteps
  encoded : encodeStatement conclusion.statement = .ok conclusion.statementBytes
  accepted : verifyNativeReceiptReader env.digest env.verifyComponents conclusion.receipt
      conclusion.statement = .ok ⟨conclusion.statement.statementId,
        conclusion.statement.segmentCount⟩ ↔
    ∀ segment ∈ segments, segment.Proved env.verifyComponents inputs.rom.commitment

theorem Tracks.concludes {first : Session akita Columns}
    {segments : List (NativeSegmentReceipt akita)} {conclusion : Conclusion}
    (h : Tracks env inputs first session segments)
    (hconclude : conclude env inputs session = .ok conclusion) :
    Concludes env inputs first session segments conclusion := by
  obtain ⟨hendpoint, hconclude⟩ := Except.check_eq_ok.mp hconclude
  obtain ⟨⟨statement, output⟩, hfinish, hconclude⟩ := Except.bind_eq_ok.mp hconclude
  obtain ⟨statementBytes, hencode, hconclude⟩ := Except.bind_eq_ok.mp hconclude
  cases hconclude
  rw [Except.mapError_eq_ok] at hfinish hencode
  obtain ⟨hmemory, hreached⟩ := validateEndpoint_eq_ok hendpoint
  obtain ⟨initial, final, identity, _, _, hinitial, hfinal, -, hstatement, -⟩ :=
    NativeReceiptStreamProver.finish_eq_ok.mp hfinish
  obtain ⟨-, -, hinitialEq, hfinalEq, -, htransitions, -⟩ := newFor_of_ok hstatement
  have hlogical : session.prover.logical = session.prover := by
    unfold NativeReceiptStreamProver.logical NativeReceiptStreamProver.withSpool
    rw [← h.holds.length_eq, List.take_length]
  have hholds : session.prover.logical.Holds env.digest segments := hlogical.symm ▸ h.holds
  exact {
    reached := hreached
    memory := hmemory
    initial := by
      rcases h.initial with ⟨hnone, -⟩ | ⟨boundary, hsome, hstate⟩
      · rw [hinitial] at hnone
        cases hnone
      · obtain rfl := Option.some.inj (hinitial.symm.trans hsome)
        rw [hinitialEq]
        exact hstate
    final := by
      rw [hfinalEq]
      exact h.boundary final hfinal
    transitions := htransitions.trans h.completed.symm
    encoded := hencode
    accepted := by
      rw [← h.romCommitment]
      exact NativeReceiptStreamProver.finish_accepted_iff hholds hfinish }

/-! ## Main results -/

section Results

variable (env inputs) (invocations : List Invocation)

/-- The files after the prover was invoked, from none. -/
def performed : Files := invocations.foldl (perform env inputs) .none

/-- However often the prover is invoked, and wherever it is interrupted, its files are blank or hold
what the uninterrupted prover has after some segments: its checkpoint, and its spool with something
behind it at most. Nothing but the conclusion of that session is published. Without a receipt the
files are taken up exactly when the proofs in the spool hold, and then as that very session. -/
theorem interrupted_prover_exact :
    Blank (performed env inputs invocations) ∨ ∃ count session segments, 0 < count ∧
      uninterrupted env inputs count = .ok session ∧
      segments.length = count ∧ session.prover.Holds env.digest segments ∧
      Saved env inputs session (performed env inputs invocations) ∧
      Published env inputs session (performed env inputs invocations) ∧
      ((performed env inputs invocations).receipt = none → ∀ next,
        (launch env inputs true (performed env inputs invocations)).1 = .ok next ↔
          (∀ segment ∈ segments, segment.Proved env.verifyComponents inputs.rom.commitment) ∧
            next = session) := by
  have hblank : Recorded env inputs Files.none := .inl ⟨rfl, rfl, rfl⟩
  rcases performed_recorded invocations hblank with
    hblank | ⟨count, session, hpositive, hcurrent⟩
  · exact .inl hblank
  · obtain ⟨first, segments, -, hlength, htracks⟩ := uninterrupted_tracks hcurrent.session_eq
    have hne : segments ≠ [] := by
      rw [← List.length_pos_iff, hlength]
      exact hpositive
    refine .inr ⟨count, session, segments, hpositive, hcurrent.session_eq, hlength, htracks.holds,
      hcurrent.saved hpositive, hcurrent.published, fun hreceipt next => ?_⟩
    rw [performed, hcurrent.launch_eq hpositive hreceipt]
    exact htracks.restore_eq_ok hne

/-- A receipt that is published at any time is about the whole execution. The machine goes from the
post-boot state to the expected one in as many steps as the statement counts; the statement has the
scalars of both states; and the receipt is accepted for it exactly when the proofs in it hold. -/
theorem published_receipt_covers :
    (performed env inputs invocations).receipt = none ∨ ∃ first session labels segments conclusion,
      start env inputs .none = .ok first ∧
      Runs (TraceBuilder.Steps env.sha256) first.builder labels session.builder ∧
      labels.length = inputs.expected.completedSteps.toNat ∧
      session.completedSteps = inputs.expected.completedSteps ∧
      Concludes env inputs first session segments conclusion ∧
      (performed env inputs invocations).statement = some conclusion.statementBytes ∧
      (performed env inputs invocations).receipt = some conclusion.receipt := by
  have hblank : Recorded env inputs Files.none := .inl ⟨rfl, rfl, rfl⟩
  rcases performed_recorded invocations hblank with
    hblank | ⟨count, session, hpositive, hcurrent⟩
  · exact .inl hblank.2.2
  · rw [or_iff_not_imp_left]
    intro hreceipt
    obtain ⟨receipt, hreceipt⟩ := Option.ne_none_iff_exists'.mp hreceipt
    obtain ⟨conclusion, hconclude, hstatement, rfl⟩ := hcurrent.published.receipt receipt hreceipt
    obtain ⟨hend, -⟩ := hcurrent.published.statement _ hstatement
    obtain ⟨first, segments, hfirst, -, htracks⟩ := uninterrupted_tracks hcurrent.session_eq
    obtain ⟨labels, hruns, hlength⟩ := htracks.steps
    exact ⟨first, session, labels, segments, conclusion, hfirst, hruns, hend ▸ hlength, hend,
      htracks.concludes hconclude, hstatement, hreceipt⟩

end Results

end NativeProver

end Zksm83
