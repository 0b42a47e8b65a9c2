import Zksm83.Trace.Packing

/-!
# Filling a packed segment

A segment is filled by chunks: the builder takes as many exact steps as relation rows are left, the
witness of the steps is packed, and the blocks join the segment, until the steps or the rows run
out. After `run_exact_steps` of `builder.rs`, the metrics of `model.rs` and
`fill_packed_segment_with_capacity` of the native prover. Read `fillPackedSegment_exact` first.

A row needs a step and a step gives a row, so a chunk never has more blocks than there was room for.
-/

namespace Zksm83

open Rejecting

/-- What the metrics of a run can fail with. -/
inductive MetricError where
  | metricOverflow
  | cycleRegression
  deriving DecidableEq, Repr

/-- The counts of an executed prefix, by the kind of its rows and of its bus events. -/
structure ExecutionMetrics where
  relationSteps : ℕ
  instructions : ℕ
  haltIdleSteps : ℕ
  haltIdleMCycles : ℕ
  haltUntilVblankSteps : ℕ
  haltUntilVblankMCycles : ℕ
  haltUntilSerialSteps : ℕ
  haltUntilSerialMCycles : ℕ
  haltUntilTimerSteps : ℕ
  haltUntilTimerMCycles : ℕ
  haltWakeSteps : ℕ
  interruptDispatches : ℕ
  dmaByteSteps : ℕ
  busEvents : ℕ
  romReads : ℕ
  memoryReads : ℕ
  memoryWrites : ℕ
  inputEvents : ℕ
  outputEvents : ℕ
  isaRows : ℕ
  joypadSamples : ℕ
  batterySramWrites : ℕ
  dmaStarts : ℕ
  deriving DecidableEq, Repr

namespace ExecutionMetrics

def zero : ExecutionMetrics :=
  ⟨0, 0, 0, 0, 0, 0, 0, 0, 0, 0, 0, 0, 0, 0, 0, 0, 0, 0, 0, 0, 0, 0, 0⟩

def increment (value : ℕ) : Except MetricError ℕ :=
  if 2 ^ 64 ≤ value + 1 then .error .metricOverflow else .ok (value + 1)

/-- Adds the cycles of a row. -/
def addElapsed (row : TraceRow) (value : ℕ) : Except MetricError ℕ :=
  let before := row.before.vm.cpu.mCycles
  let after := row.after.vm.cpu.mCycles
  if after < before then .error .cycleRegression
  else if 2 ^ 64 ≤ value + (after - before) then .error .metricOverflow
  else .ok (value + (after - before))

def recordKind (metrics : ExecutionMetrics) (row : TraceRow) :
    Except MetricError ExecutionMetrics :=
  match row.effects.kind with
  | .instruction => return { metrics with instructions := ← increment metrics.instructions }
  | .haltIdle => return { metrics with
      haltIdleSteps := ← increment metrics.haltIdleSteps
      haltIdleMCycles := ← addElapsed row metrics.haltIdleMCycles }
  | .haltUntilVblank => return { metrics with
      haltUntilVblankSteps := ← increment metrics.haltUntilVblankSteps
      haltUntilVblankMCycles := ← addElapsed row metrics.haltUntilVblankMCycles }
  | .haltUntilSerial => return { metrics with
      haltUntilSerialSteps := ← increment metrics.haltUntilSerialSteps
      haltUntilSerialMCycles := ← addElapsed row metrics.haltUntilSerialMCycles }
  | .haltUntilTimer => return { metrics with
      haltUntilTimerSteps := ← increment metrics.haltUntilTimerSteps
      haltUntilTimerMCycles := ← addElapsed row metrics.haltUntilTimerMCycles }
  | .haltWake => return { metrics with haltWakeSteps := ← increment metrics.haltWakeSteps }
  | .interruptDispatch _ =>
    return { metrics with interruptDispatches := ← increment metrics.interruptDispatches }
  | .dmaByte => return { metrics with dmaByteSteps := ← increment metrics.dmaByteSteps }

/-- The family that an event is counted in. -/
def recordFamily (metrics : ExecutionMetrics) :
    BusEvent MerklePath → Except MetricError ExecutionMetrics
  | .opcodeFetch _ | .immediateRead _ | .romRead _ | .dmgDmaRomRead _ =>
    return { metrics with romReads := ← increment metrics.romReads }
  | .memoryOpcodeFetch _ | .memoryImmediateRead _ | .memoryRead _ | .dmgDmaMemoryRead _ =>
    return { metrics with memoryReads := ← increment metrics.memoryReads }
  | .memoryWrite _ | .dmgDmaWrite _ =>
    return { metrics with memoryWrites := ← increment metrics.memoryWrites }
  | .inputRead _ _ | .dmgJoypadRead _ _ _ _ =>
    return { metrics with inputEvents := ← increment metrics.inputEvents }
  | .outputWrite _ _ => return { metrics with outputEvents := ← increment metrics.outputEvents }
  | .mbc3ControlWrite _ _ | .mbc3OpenBusRead _ _ | .mbc3IgnoredWrite _ _ | .dmgMmioRead _ _
  | .dmgMmioWrite _ _ _ => .ok metrics

/-- The further count of joypad samples, battery writes and DMA starts. -/
def recordDevice (metrics : ExecutionMetrics) :
    BusEvent MerklePath → Except MetricError ExecutionMetrics
  | .dmgJoypadRead _ _ _ _ =>
    return { metrics with joypadSamples := ← increment metrics.joypadSamples }
  | .memoryWrite write =>
    if 0x10000 ≤ write.physicalAddress ∧ write.physicalAddress ≤ 0x17fff then
      return { metrics with batterySramWrites := ← increment metrics.batterySramWrites }
    else .ok metrics
  | .dmgMmioWrite address _ _ =>
    if address = 0xff46 then return { metrics with dmaStarts := ← increment metrics.dmaStarts }
    else .ok metrics
  | _ => .ok metrics

def recordBusEvent (metrics : ExecutionMetrics) (event : BusEvent MerklePath) :
    Except MetricError ExecutionMetrics := do
  let metrics := { metrics with busEvents := ← increment metrics.busEvents }
  let metrics ← metrics.recordFamily event
  metrics.recordDevice event

/-- Counts one row. -/
def record (metrics : ExecutionMetrics) (row : TraceRow) : Except MetricError ExecutionMetrics := do
  let metrics := { metrics with
    relationSteps := ← increment metrics.relationSteps
    isaRows := ← increment metrics.isaRows }
  let metrics ← metrics.recordKind row
  row.effects.busEvents.foldlM recordBusEvent metrics

end ExecutionMetrics

/-- The boundary of an executed prefix. -/
structure ExecutionBoundary where
  initialState : AuthenticatedState
  finalState : AuthenticatedState
  stepCount : ℕ
  metrics : ExecutionMetrics

/-- The errors of an exact prefix. -/
inductive ExactRunError where
  | zeroStepChunk
  | terminatedBeforeExactSteps (completed requested : ℕ) (runState : RunState)
  | exactStepFailed (completed pc : ℕ) (source : TraceBuilderError)
  | metric (error : MetricError)
  | trace (error : TraceError)
  deriving DecidableEq, Repr

/-- The errors of the prover around a segment. -/
inductive CliError where
  | trace (error : ExactRunError)
  | blockPlan (error : BasicBlockPlanError)
  | progressMismatch (text : String)
  deriving DecidableEq, Repr

/-- The blocks of a segment, and the steps in them. -/
structure PackedSegment where
  blocks : List BasicBlock
  completedSteps : ℕ

namespace TraceBuilder

variable (sha256 : List Byte → CommitmentRoot)

def requireExactRow (builder : TraceBuilder) (completed requested : ℕ) :
    Except ExactRunError Unit :=
  let runState := builder.state.vm.cpu.runState
  if runState.canExecuteInstruction ∨
      builder.state.vm.profile.isDmgPostBootMbc3 ∧ runState = .halted then .ok ()
  else .error (.terminatedBeforeExactSteps completed requested runState)

/-- The loop of an exact prefix: its rows and their counts. -/
def exactLoop (requested : ℕ) : ℕ → ℕ → ExecutionMetrics →
    Action ExactRunError TraceBuilder (List TraceRow × ExecutionMetrics)
  | 0, _, metrics => pure ([], metrics)
  | remaining + 1, completed, metrics => do
    let builder ← get
    ofExcept (requireExactRow builder completed requested)
    let row ← ExceptT.adapt (.exactStepFailed completed builder.state.vm.cpu.pc) (step sha256)
    let metrics ← ofExcept ((metrics.record row).mapError .metric)
    let (rows, metrics) ← exactLoop requested remaining (completed + 1) metrics
    return (row :: rows, metrics)

/-- Executes exactly so many steps. The rows, which the source hands to a callback, are listed. -/
def executeExact (stepCount : ℕ) :
    Action ExactRunError TraceBuilder (List TraceRow × ExecutionBoundary) := do
  if stepCount = 0 then throw .zeroStepChunk
  let initial ← get
  let (rows, metrics) ← exactLoop sha256 stepCount stepCount 0 .zero
  let final ← get
  return (rows, ⟨initial.state, final.state, metrics.relationSteps, metrics⟩)

def runExactSteps (stepCount : ℕ) : Action ExactRunError TraceBuilder Witness := do
  let (rows, _) ← executeExact sha256 stepCount
  ofExcept ((Witness.fromRows rows).mapError .trace)

/-- One chunk of a segment. -/
def fillChunk (chunkSteps remainingRows completedSteps : ℕ) :
    Action CliError TraceBuilder (List BasicBlock) := do
  let witness ← ExceptT.adapt .trace (runExactSteps sha256 chunkSteps)
  let chunk ← ofExcept
    ((BlockPlanner.packWitnessBasicBlocksAt witness completedSteps).mapError .blockPlan)
  if chunk = [] ∨ remainingRows < chunk.length then
    throw (.progressMismatch "packed chunk exceeded relation-row capacity")
  return chunk

/-- The loop over the chunks. Every chunk has a step. -/
def fillLoop (maximumSteps relationRowCapacity completedSteps : ℕ) (blocks : List BasicBlock) :
    Action CliError TraceBuilder PackedSegment :=
  if hmore : completedSteps < maximumSteps ∧ blocks.length < relationRowCapacity then do
    let remainingRows := relationRowCapacity - blocks.length
    let chunkSteps := min (maximumSteps - completedSteps) remainingRows
    let chunk ← fillChunk sha256 chunkSteps remainingRows completedSteps
    if 2 ^ 64 ≤ completedSteps + chunkSteps then
      throw (.progressMismatch "completed-step cursor overflow")
    fillLoop maximumSteps relationRowCapacity (completedSteps + chunkSteps) (blocks ++ chunk)
  else if blocks = [] ∨ completedSteps = 0 then
    throw (.progressMismatch "packed segment is empty")
  else return ⟨blocks, completedSteps⟩
termination_by maximumSteps - completedSteps

/-- Fills a segment with at most so many steps and relation rows. -/
def fillPackedSegmentWithCapacity (maximumSteps relationRowCapacity : ℕ) :
    Action CliError TraceBuilder PackedSegment := do
  if maximumSteps = 0 ∨ relationRowCapacity = 0 then
    throw (.progressMismatch "zero packed-segment bound")
  fillLoop sha256 maximumSteps relationRowCapacity 0 []

variable {sha256} {builder last : TraceBuilder} {rows : List TraceRow}

/-- The loop of an exact prefix takes the steps that are left. -/
theorem exactLoop_accepts {requested remaining completed : ℕ}
    {metrics counted : ExecutionMetrics}
    (h : Accepts (exactLoop sha256 requested remaining completed metrics) builder (rows, counted)
      last) :
    ∃ labels, Runs (Steps sha256) builder labels last ∧ labels.map Prod.fst = rows ∧
      labels.length = remaining := by
  induction remaining generalizing builder completed metrics rows with
  | zero =>
    obtain ⟨hpair, rfl⟩ := (accepts_pure _ _ _ _).mp h
    obtain ⟨rfl, -⟩ := Prod.mk.inj hpair
    exact ⟨[], .nil _, rfl, rfl⟩
  | succ remaining ih =>
    simp only [exactLoop, accepts_bind, accepts_get, accepts_ofExcept, accepts_adapt,
      accepts_pure] at h
    obtain ⟨_, _, ⟨rfl, rfl⟩, _, _, ⟨-, rfl⟩, row, _, hstep, _, next, ⟨-, rfl⟩, ⟨more, _⟩, _,
      hrest, hpair, rfl⟩ := h
    obtain ⟨rfl, rfl⟩ := Prod.mk.inj hpair
    obtain ⟨labels, hruns, hlabels, hlength⟩ := ih hrest
    exact ⟨(row, next) :: labels, .cons ⟨hstep, rfl⟩ hruns, congrArg (row :: ·) hlabels,
      congrArg (· + 1) hlength⟩

/-- The witness of some rows holds these rows. -/
theorem intoRows_of_fromRows {witness : Witness} (h : Witness.fromRows rows = .ok witness) :
    witness.intoRows = rows := by
  obtain ⟨chunk, hchunk, hnew⟩ := Except.of_bind_eq_ok h
  have hrows : chunk.rows = rows := by
    unfold TraceChunk.new at hchunk
    split at hchunk
    · cases hchunk
    · split at hchunk
      · cases hchunk
      · obtain rfl := Except.ok.inj hchunk
        rfl
  have hchunks : witness.chunks = [chunk] := by
    unfold Witness.new at hnew
    simp only [List.head?_cons, List.getLast?_singleton, discontinuity] at hnew
    split at hnew
    · cases hnew
    · obtain rfl := Except.ok.inj hnew
      rfl
  rw [Witness.intoRows, hchunks, List.flatMap_singleton, hrows]

/-- The witness of an exact prefix has a row for every step. -/
theorem runExactSteps_accepts {stepCount : ℕ} {witness : Witness}
    (h : Accepts (runExactSteps sha256 stepCount) builder witness last) :
    ∃ labels, Runs (Steps sha256) builder labels last ∧
      labels.map Prod.fst = witness.intoRows ∧ labels.length = stepCount := by
  unfold runExactSteps executeExact at h
  split_ifs at h with hzero
  · exact absurd h (by simp)
  · simp only [accepts_bind, accepts_get, accepts_ofExcept, accepts_pure] at h
    obtain ⟨⟨rows, boundary⟩, _, ⟨_, _, ⟨-, rfl⟩, ⟨loopRows, _⟩, _, hloop, _, _, ⟨-, rfl⟩, hpair,
      rfl⟩, hwitness, rfl⟩ := h
    obtain ⟨rfl, -⟩ := Prod.mk.inj hpair
    obtain ⟨labels, hruns, hlabels, hlength⟩ := exactLoop_accepts hloop
    refine ⟨labels, hruns, ?_, hlength⟩
    rw [hlabels, intoRows_of_fromRows (Except.mapError_eq_ok.mp hwitness)]

/-- The row of a step starts at the builder. -/
theorem before_of_step {row : TraceRow} {next : TraceBuilder}
    (hstep : Accepts (step sha256) builder row next) : row.before = builder.state := by
  rw [Accepts, outcome_step] at hstep
  split at hstep
  · cases hstep
  · split at hstep <;> cases hstep
    rfl

/-- The rows of a run join, and the first one starts at the builder. -/
theorem contiguous_of_runs {labels : List (TraceRow × TraceBuilder)}
    (hruns : Runs (Steps sha256) builder labels last) :
    Contiguous (labels.map Prod.fst) ∧
      ∀ row ∈ (labels.map Prod.fst).head?, row.before = builder.state := by
  induction hruns with
  | nil => exact ⟨List.isChain_nil, by simp⟩
  | @cons before middle after label labels hstep htail ih =>
    obtain ⟨hstep, rfl⟩ := hstep
    obtain ⟨hrest, hfirst⟩ := ih
    refine ⟨?_, ?_⟩
    · rw [List.map_cons, Contiguous, List.isChain_cons]
      refine ⟨fun next hnext => ?_, hrest⟩
      rw [hfirst next hnext, state_of_step hstep]
    · intro row hrow
      obtain rfl := Option.some.inj hrow
      exact before_of_step hstep

section Filling

variable {maximumSteps relationRowCapacity completedSteps : ℕ} {blocks : List BasicBlock}

/-- A chunk packs the steps that it takes. -/
theorem fillChunk_accepts {chunkSteps remainingRows : ℕ} {chunk : List BasicBlock}
    (h : Accepts (fillChunk sha256 chunkSteps remainingRows completedSteps) builder chunk last) :
    chunk ≠ [] ∧ chunk.length ≤ remainingRows ∧ ∃ labels, Runs (Steps sha256) builder labels last ∧
      labels.length = chunkSteps ∧ Packs completedSteps (labels.map Prod.fst) chunk := by
  simp only [fillChunk, accepts_bind, accepts_adapt, accepts_ofExcept] at h
  obtain ⟨witness, _, hrun, packed, _, ⟨hpack, rfl⟩, h⟩ := h
  split_ifs at h with hfits
  · exact absurd h (by simp)
  · obtain ⟨rfl, rfl⟩ := (accepts_pure _ _ _ _).mp h
    obtain ⟨hempty, hlength⟩ := not_or.mp hfits
    obtain ⟨labels, hruns, hlabels, hcount⟩ := runExactSteps_accepts hrun
    refine ⟨hempty, not_lt.mp hlength, labels, hruns, hcount, ?_⟩
    rw [hlabels]
    exact BlockPlanner.packs_of_packWitness (Except.mapError_eq_ok.mp hpack)

/-- A chunk for a positive number of steps finds room for all of its blocks. -/
theorem fillChunk_rejectsOnly {chunkSteps remainingRows : ℕ} (hsteps : 0 < chunkSteps)
    (hroom : chunkSteps ≤ remainingRows) :
    RejectsOnly (· ≠ .progressMismatch "packed chunk exceeded relation-row capacity")
      (fillChunk sha256 chunkSteps remainingRows completedSteps) builder := by
  refine .bind (.adapt (fun _ => nofun) _) fun witness next hrun => ?_
  refine .bind (.ofExcept ?_) fun chunk middle hchunk => ?_
  · intro error herror
    cases hpack : BlockPlanner.packWitnessBasicBlocksAt witness completedSteps <;>
      rw [hpack] at herror <;> cases herror
    exact nofun
  obtain ⟨labels, -, hlabels, hcount⟩ :=
    runExactSteps_accepts ((accepts_adapt _ _ _ _ _).mp hrun)
  obtain ⟨hpack, -⟩ := (accepts_ofExcept _ _ _ _).mp hchunk
  have hpacks := BlockPlanner.packs_of_packWitness (Except.mapError_eq_ok.mp hpack)
  have hrows : witness.intoRows.length = chunkSteps := by rw [← hlabels, List.length_map, hcount]
  have hempty : chunk ≠ [] := by
    rintro rfl
    have hnone : witness.intoRows = [] := hpacks.concat.symm
    rw [hnone, List.length_nil] at hrows
    omega
  have hlength : chunk.length ≤ remainingRows := by
    have hblocks := hpacks.length_le
    omega
  rw [if_neg (not_or.mpr ⟨hempty, not_lt.mpr hlength⟩)]
  exact .pure _

/-- What the loop keeps: the segment packs the steps so far, within its bounds. -/
structure Filling (sha256 : List Byte → CommitmentRoot) (start : TraceBuilder)
    (maximumSteps relationRowCapacity completedSteps : ℕ) (blocks : List BasicBlock)
    (builder : TraceBuilder) : Prop where
  steps : ∃ labels, Runs (Steps sha256) start labels builder ∧ labels.length = completedSteps ∧
    Packs 0 (labels.map Prod.fst) blocks
  blocks_le : blocks.length ≤ relationRowCapacity
  steps_le : completedSteps ≤ maximumSteps

/-- A chunk goes on with the segment. -/
theorem Filling.chunk {start : TraceBuilder} {chunk : List BasicBlock} {chunkSteps : ℕ}
    (hfilling : Filling sha256 start maximumSteps relationRowCapacity completedSteps blocks builder)
    (hsteps : chunkSteps ≤ maximumSteps - completedSteps)
    (h : Accepts (fillChunk sha256 chunkSteps (relationRowCapacity - blocks.length) completedSteps)
      builder chunk last) :
    Filling sha256 start maximumSteps relationRowCapacity (completedSteps + chunkSteps)
      (blocks ++ chunk) last := by
  obtain ⟨-, hlength, labels, hruns, hcount, hpacks⟩ := fillChunk_accepts h
  obtain ⟨before, hbefore, hbeforeCount, hbeforePacks⟩ := hfilling.steps
  have hblocks := hfilling.blocks_le
  have hbound := hfilling.steps_le
  refine ⟨⟨before ++ labels, hbefore.append hruns, ?_, ?_⟩, ?_, ?_⟩
  · rw [List.length_append, hbeforeCount, hcount]
  · rw [List.map_append]
    refine hbeforePacks.append ?_
    rwa [List.length_map, hbeforeCount, Nat.zero_add]
  · rw [List.length_append]
    omega
  · omega

/-- The loop ends with a segment that it cannot go on with. -/
theorem fillLoop_accepts {start : TraceBuilder} {segment : PackedSegment}
    (hfilling : Filling sha256 start maximumSteps relationRowCapacity completedSteps blocks builder)
    (h : Accepts (fillLoop sha256 maximumSteps relationRowCapacity completedSteps blocks) builder
      segment last) :
    Filling sha256 start maximumSteps relationRowCapacity segment.completedSteps segment.blocks
        last ∧
      segment.blocks ≠ [] ∧ (segment.completedSteps = maximumSteps ∨
        segment.blocks.length = relationRowCapacity) := by
  induction hleft : maximumSteps - completedSteps using Nat.strong_induction_on
    generalizing completedSteps blocks builder with
  | _ left ih =>
    rw [fillLoop] at h
    split_ifs at h with hmore hempty
    · obtain ⟨hcompleted, hblocks⟩ := hmore
      obtain ⟨chunk, next, hchunk, h⟩ := (accepts_bind _ _ _ _ _).mp h
      split_ifs at h with hoverflow
      · exact absurd h (by simp)
      refine ih _ ?_ (hfilling.chunk (min_le_left _ _) hchunk) h rfl
      omega
    · exact absurd h (by simp)
    · obtain ⟨rfl, rfl⟩ := (accepts_pure _ _ _ _).mp h
      have hsteps := hfilling.steps_le
      have hrows := hfilling.blocks_le
      refine ⟨hfilling, (not_or.mp hempty).1, ?_⟩
      dsimp only
      omega

/-- The loop never lacks room for a chunk. -/
theorem fillLoop_rejectsOnly :
    RejectsOnly (· ≠ .progressMismatch "packed chunk exceeded relation-row capacity")
      (fillLoop sha256 maximumSteps relationRowCapacity completedSteps blocks) builder := by
  induction hleft : maximumSteps - completedSteps using Nat.strong_induction_on
    generalizing completedSteps blocks builder with
  | _ left ih =>
    rw [fillLoop]
    split_ifs with hmore hempty
    · obtain ⟨hcompleted, hblocks⟩ := hmore
      refine .bind (fillChunk_rejectsOnly (by omega) (min_le_right _ _)) fun chunk next _ => ?_
      split_ifs with hoverflow
      · exact .bind (.throw (by decide)) (fun _ _ _ => ih _ (by omega) rfl)
      · exact ih _ (by omega) rfl
    · exact .throw (by decide)
    · exact .pure _

theorem fillPackedSegment_rejectsOnly :
    RejectsOnly (· ≠ .progressMismatch "packed chunk exceeded relation-row capacity")
      (fillPackedSegmentWithCapacity sha256 maximumSteps relationRowCapacity) builder := by
  unfold fillPackedSegmentWithCapacity
  split_ifs with hzero
  · exact .bind (.throw (by decide)) fun _ _ _ => fillLoop_rejectsOnly
  · exact fillLoop_rejectsOnly

end Filling

end TraceBuilder

/-- A filled segment: its blocks hold the rows of as many steps as it counts, in order and without a
gap, within both bounds, and one of the bounds is reached. -/
structure FillsSegment (sha256 : List Byte → CommitmentRoot) (builder : TraceBuilder)
    (maximumSteps relationRowCapacity : ℕ) (segment : PackedSegment) (last : TraceBuilder) :
    Prop where
  steps : ∃ labels, Runs (TraceBuilder.Steps sha256) builder labels last ∧
    labels.length = segment.completedSteps ∧ Packs 0 (labels.map Prod.fst) segment.blocks
  joined : segment.blocks.IsChain fun block next => block.finalState = next.initialState
  blocks_pos : 1 ≤ segment.blocks.length
  blocks_le : segment.blocks.length ≤ relationRowCapacity
  steps_le : segment.completedSteps ≤ maximumSteps
  full : segment.completedSteps = maximumSteps ∨ segment.blocks.length = relationRowCapacity

namespace TraceBuilder

/-- A segment that was filled is lossless and bounded, and there is room for every chunk. -/
theorem fillPackedSegment_exact (sha256 : List Byte → CommitmentRoot) (builder : TraceBuilder)
    (maximumSteps relationRowCapacity : ℕ) :
    (∀ segment last, Accepts (fillPackedSegmentWithCapacity sha256 maximumSteps
        relationRowCapacity) builder segment last →
      FillsSegment sha256 builder maximumSteps relationRowCapacity segment last) ∧
    ∀ last, outcome (fillPackedSegmentWithCapacity sha256 maximumSteps relationRowCapacity)
        builder ≠
      (.error (.progressMismatch "packed chunk exceeded relation-row capacity"), last) := by
  refine ⟨fun segment last h => ?_, fun last h => fillPackedSegment_rejectsOnly h rfl⟩
  unfold fillPackedSegmentWithCapacity at h
  split_ifs at h with hzero
  · exact absurd h (by simp)
  · have hstart : Filling sha256 builder maximumSteps relationRowCapacity 0 [] builder :=
      ⟨⟨[], .nil _, rfl, .nil⟩, Nat.zero_le _, Nat.zero_le _⟩
    obtain ⟨hfilling, hsome, hfull⟩ := fillLoop_accepts hstart h
    obtain ⟨labels, hruns, hcount, hpacks⟩ := hfilling.steps
    exact {
      steps := ⟨labels, hruns, hcount, hpacks⟩
      joined := hpacks.joined (contiguous_of_runs hruns).1
      blocks_pos := List.length_pos_iff.mpr hsome
      blocks_le := hfilling.blocks_le
      steps_le := hfilling.steps_le
      full := hfull }

/-- The row of the pending HALT is packed into one block. -/
theorem packs_pendingHalt {row : TraceRow} {path : MerklePath}
    (heffects : row.effects = pendingHaltEffects path)
    (hcycles : row.after.vm.cpu.mCycles = row.before.vm.cpu.mCycles + 1) {witness : Witness}
    (hrows : witness.intoRows = [row]) :
    ∃ block, BlockPlanner.packWitnessBasicBlocksAt witness 0 = .ok [block] := by
  have hkind : row.effects.kind = .instruction := by rw [heffects]; rfl
  have hresources : BlockPlanner.rowResources row 0 = .ok (1, 1) := by
    unfold BlockPlanner.rowResources
    rw [heffects, hcycles, if_neg (by omega), Nat.add_sub_cancel_left]
    rfl
  have htake : BlockPlanner.takeRow 0 ⟨0, 0, 0⟩ row = .ok (.inl ⟨1, 1, 1⟩) := by
    rw [BlockPlanner.takeRow, BlockPlanner.frontCut, if_pos rfl, hresources]
    rfl
  have hback : BlockPlanner.backCut ⟨1, 1, 1⟩ row [] = some .lowPower := by
    rw [BlockPlanner.backCut.eq_def, BlockPlanner.semanticCut, heffects]
    rfl
  have hgrow : BlockPlanner.growBlock 0 ⟨0, 0, 0⟩ [row] = .ok (⟨1, 1, 1⟩, .lowPower) := by
    rw [BlockPlanner.growBlock, htake]
    dsimp only
    rw [hback]
  have hspan : BlockPlanner.nextSpan 0 row [] = .ok ⟨0, 1, 1, 1, 1, .lowPower⟩ := by
    rw [BlockPlanner.nextSpan, if_neg (not_not_intro hkind), BlockPlanner.instructionSpan, hgrow]
    rfl
  have hplan : BlockPlanner.planBasicBlocks [row] = .ok [⟨0, 1, 1, 1, 1, .lowPower⟩] := by
    show BlockPlanner.planLoop 1 0 [row] = _
    rw [BlockPlanner.planLoop, hspan]
    rfl
  have hlanes : ∃ routing, BlockPlanner.routeLanes 0 0 0 0 BlockPlanner.paddingRouting [row] =
      .ok (routing, 1, 1) := by
    rw [BlockPlanner.routeLanes, if_neg (not_not_intro hkind), if_neg (by decide), hresources]
    exact ⟨_, rfl⟩
  obtain ⟨routing, hlanes⟩ := hlanes
  unfold BlockPlanner.packWitnessBasicBlocksAt
  rw [hrows, hplan]
  refine ⟨_, Except.bind_eq_ok.mpr ⟨_, rfl, Except.bind_eq_ok.mpr
    ⟨_, Except.bind_eq_ok.mpr ⟨routing, ?_, rfl⟩, rfl⟩⟩⟩
  exact Except.bind_eq_ok.mpr ⟨_, hlanes, rfl⟩

/-- A segment of one step is filled from the pending HALT. -/
theorem fillPackedSegment_pendingHalt : ∃ segment last,
    Accepts (fillPackedSegmentWithCapacity sha256 1 1) (pendingHalt sha256) segment last ∧
      FillsSegment sha256 (pendingHalt sha256) 1 1 segment last := by
  obtain ⟨path, row, next, hstep, heffects, hcycles, -⟩ := @pendingHalt_steps sha256
  have hcounted : ∃ counted, ExecutionMetrics.zero.record row = .ok counted := by
    unfold ExecutionMetrics.record ExecutionMetrics.recordKind
    rw [heffects]
    exact ⟨_, rfl⟩
  obtain ⟨counted, hcounted⟩ := hcounted
  have hloop : Accepts (exactLoop sha256 1 1 0 .zero) (pendingHalt sha256) ([row], counted)
      next := by
    unfold exactLoop
    refine .get_bind (.ofExcept_bind rfl (.bind ((accepts_adapt _ _ _ _ _).mpr hstep) ?_))
    exact .ofExcept_bind (Except.mapError_eq_ok.mpr hcounted) (.bind rfl rfl)
  let witness : Witness := ⟨[⟨[row], List.cons_ne_nil _ _⟩], row.before, row.after, 1⟩
  have hrun : Accepts (runExactSteps sha256 1) (pendingHalt sha256) witness next :=
    .bind (.get_bind (.bind hloop (.get_bind rfl))) rfl
  have hrows : witness.intoRows = [row] := rfl
  obtain ⟨block, hpack⟩ := packs_pendingHalt heffects hcycles hrows
  have hchunk : Accepts (fillChunk sha256 1 1 0) (pendingHalt sha256) [block] next :=
    .bind ((accepts_adapt _ _ _ _ _).mpr hrun)
      (.ofExcept_bind (Except.mapError_eq_ok.mpr hpack) rfl)
  have hfill : Accepts (fillPackedSegmentWithCapacity sha256 1 1) (pendingHalt sha256)
      ⟨[block], 1⟩ next := by
    show Accepts (fillLoop sha256 1 1 0 []) _ _ _
    rw [fillLoop, dif_pos (by decide)]
    refine .bind hchunk ?_
    show Accepts (fillLoop sha256 1 1 1 [block]) _ _ _
    rw [fillLoop, dif_neg (fun hmore => lt_irrefl 1 hmore.1)]
    rfl
  exact ⟨_, next, hfill, (fillPackedSegment_exact sha256 (pendingHalt sha256) 1 1).1 _ _ hfill⟩

end TraceBuilder

end Zksm83
