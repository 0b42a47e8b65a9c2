import Zksm83.Trace.Agreement

/-!
# Running a builder to its end

`run` takes steps until the CPU cannot execute an instruction, at most as many as its bound says,
and wraps the rows in a witness. It rejects an exhausted bound by asking whether the CPU is
`Running`, although the HALT-bug state can execute as well. After `run` of `builder.rs` and the
chunks and witnesses of `model.rs`.
-/

namespace Zksm83

open Rejecting

inductive TraceError where
  | emptyChunk
  | discontinuousRow (index : ℕ)
  | emptyWitness
  | discontinuousChunk (index : ℕ)
  | stepCountOverflow
  deriving DecidableEq, Repr

/-- The index of the first of two neighbours that do not join. -/
def discontinuity {α : Type} (joins : α → α → Bool) : ℕ → List α → Option ℕ
  | index, first :: second :: rest =>
    if joins first second then discontinuity joins (index + 1) (second :: rest) else some index
  | _, _ => none

/-- A non-empty sequence of rows. -/
structure TraceChunk where
  rows : List TraceRow
  nonempty : rows ≠ []

namespace TraceChunk

def new (rows : List TraceRow) : Except TraceError TraceChunk :=
  if hempty : rows = [] then .error .emptyChunk
  else
    match discontinuity (fun before after : TraceRow => before.after = after.before) 0 rows with
    | some index => .error (.discontinuousRow index)
    | none => .ok ⟨rows, hempty⟩

def initialState (chunk : TraceChunk) : AuthenticatedState := (chunk.rows.head chunk.nonempty).before

def finalState (chunk : TraceChunk) : AuthenticatedState :=
  (chunk.rows.getLast chunk.nonempty).after

end TraceChunk

/-- A contiguous execution, with its boundary states. -/
structure Witness where
  chunks : List TraceChunk
  initialState : AuthenticatedState
  finalState : AuthenticatedState
  stepCount : ℕ

namespace Witness

def new (chunks : List TraceChunk) : Except TraceError Witness :=
  match chunks.head?, chunks.getLast? with
  | some first, some last =>
    match discontinuity (fun before after : TraceChunk => before.finalState = after.initialState) 0
        chunks with
    | some index => .error (.discontinuousChunk index)
    | none =>
      let stepCount := (chunks.map (fun chunk => chunk.rows.length)).sum
      if 2 ^ 64 ≤ stepCount then .error .stepCountOverflow
      else .ok ⟨chunks, first.initialState, last.finalState, stepCount⟩
  | _, _ => .error .emptyWitness

def fromRows (rows : List TraceRow) : Except TraceError Witness := do
  new [← TraceChunk.new rows]

/-- The witness of some rows ends where its last row ends. -/
theorem finalState_of_fromRows {rows : List TraceRow} {witness : Witness}
    (hwitness : fromRows rows = .ok witness) :
    ∃ hrows : rows ≠ [], witness.finalState = (rows.getLast hrows).after := by
  obtain ⟨chunk, hchunk, hnew⟩ := Except.bind_eq_ok.mp hwitness
  unfold TraceChunk.new at hchunk
  split at hchunk
  · cases hchunk
  · split at hchunk
    · cases hchunk
    · obtain rfl := Except.ok.inj hchunk
      unfold new at hnew
      simp only [List.head?_cons, List.getLast?_singleton, discontinuity] at hnew
      split at hnew
      · cases hnew
      · obtain rfl := Except.ok.inj hnew
        exact ⟨_, rfl⟩

/-- A single row is a witness. -/
theorem fromRows_singleton (row : TraceRow) :
    fromRows [row] = .ok ⟨[⟨[row], List.cons_ne_nil _ _⟩], row.before, row.after, 1⟩ := rfl

end Witness

/-- The errors of a run: those of its steps, and those of its end. -/
inductive RunError where
  | builder (error : TraceBuilderError)
  | stepBoundReached (stepBound : ℕ)
  | unconsumedInput (consumed provided : ℕ)
  | trace (error : TraceError)
  deriving DecidableEq, Repr

namespace TraceBuilder

variable (sha256 : List Byte → CommitmentRoot)

/-- The CPU of a builder can begin an instruction. -/
def canExecute (builder : TraceBuilder) : Bool := builder.state.vm.cpu.runState.canExecuteInstruction

/-- The loop of a run: its rows, and the builder that it leaves. -/
def runLoop : ℕ → TraceBuilder → Except TraceBuilderError (List TraceRow × TraceBuilder)
  | 0, builder => .ok ([], builder)
  | bound + 1, builder =>
    if builder.canExecute then
      match outcome (step sha256) builder with
      | (.error error, _) => .error error
      | (.ok row, next) => do
        let (rows, last) ← runLoop bound next
        return (row :: rows, last)
    else .ok ([], builder)

/-- The checks at the end of a run, and its witness. -/
def finishRun (stepBound : ℕ) (rows : List TraceRow) (last : TraceBuilder) :
    Except RunError Witness :=
  if last.state.vm.cpu.runState = .running then .error (.stepBoundReached stepBound)
  else if 2 ^ 64 ≤ last.privateInput.length then .error (.builder .inputIndexOverflow)
  else if last.state.vm.inputNext ≠ last.privateInput.length then
    .error (.unconsumedInput last.state.vm.inputNext last.privateInput.length)
  else (Witness.fromRows rows).mapError .trace

def run (builder : TraceBuilder) (stepBound : ℕ) : Except RunError Witness := do
  let (rows, last) ← (runLoop sha256 stepBound builder).mapError .builder
  finishRun stepBound rows last

/-- A step from a state that can execute. -/
def ExecutingStep (builder : TraceBuilder) (label : TraceRow × TraceBuilder)
    (next : TraceBuilder) : Prop :=
  builder.canExecute = true ∧ Steps sha256 builder label next

variable {sha256} {builder last : TraceBuilder} {rows : List TraceRow} {bound : ℕ}

/-- The loop takes executing steps until its bound or until the CPU cannot execute. -/
theorem runLoop_eq_ok : runLoop sha256 bound builder = .ok (rows, last) ↔
    ∃ labels, Runs (ExecutingStep sha256) builder labels last ∧ rows = labels.map Prod.fst ∧
      (labels.length = bound ∨ labels.length < bound ∧ last.canExecute = false) := by
  constructor
  · intro hloop
    induction bound generalizing builder rows with
    | zero =>
      obtain ⟨rfl, rfl⟩ := Prod.mk.inj (Except.ok.inj hloop)
      exact ⟨[], .nil _, rfl, .inl rfl⟩
    | succ bound ih =>
      unfold runLoop at hloop
      split_ifs at hloop with hexecutes
      · split at hloop
        · cases hloop
        · rename_i row next hstep
          obtain ⟨⟨rest, final⟩, hrest, hpair⟩ := Except.bind_eq_ok.mp hloop
          obtain ⟨rfl, rfl⟩ := Prod.mk.inj (Except.ok.inj hpair)
          obtain ⟨labels, hruns, rfl, hend⟩ := ih hrest
          refine ⟨(row, next) :: labels, .cons ⟨hexecutes, hstep, rfl⟩ hruns, rfl, ?_⟩
          exact hend.imp (congrArg (· + 1)) (fun h => ⟨Nat.succ_lt_succ h.1, h.2⟩)
      · obtain ⟨rfl, rfl⟩ := Prod.mk.inj (Except.ok.inj hloop)
        exact ⟨[], .nil _, rfl, .inr ⟨Nat.succ_pos _, Bool.not_eq_true _ ▸ hexecutes⟩⟩
  · rintro ⟨labels, hruns, rfl, hend⟩
    induction hruns generalizing bound with
    | nil state =>
      cases bound with
      | zero => rfl
      | succ bound =>
        obtain hend | ⟨-, hstops⟩ := hend
        · cases hend
        · rw [runLoop, if_neg (by rw [hstops]; decide)]
          rfl
    | @cons before middle after label labels hstep _ ih =>
      obtain ⟨hexecutes, hstep, rfl⟩ := hstep
      cases bound with
      | zero =>
        simp only [List.length_cons] at hend
        omega
      | succ bound =>
        have hrest := @ih bound (hend.imp Nat.succ.inj (fun h => ⟨Nat.lt_of_succ_lt_succ h.1, h.2⟩))
        rw [runLoop, if_pos hexecutes, show outcome (step sha256) before = _ from hstep]
        exact Except.bind_eq_ok.mpr ⟨_, hrest, rfl⟩

/-- A step leaves the state that its row describes. -/
theorem state_of_step {row : TraceRow} {next : TraceBuilder}
    (hstep : Accepts (step sha256) builder row next) : next.state = row.after := by
  rw [Accepts, outcome_step] at hstep
  split at hstep
  · cases hstep
  · split at hstep <;> cases hstep
    rfl

/-- A run of steps ends in the state that its last row describes. -/
theorem last_row {labels : List (TraceRow × TraceBuilder)}
    (hruns : Runs (ExecutingStep sha256) builder labels last) (hsome : labels.map Prod.fst ≠ []) :
    ((labels.map Prod.fst).getLast hsome).after = last.state := by
  induction hruns with
  | nil => exact absurd rfl hsome
  | @cons before middle after label labels hstep htail ih =>
    obtain ⟨-, hstep, rfl⟩ := hstep
    by_cases hrest : labels = []
    · subst hrest
      cases htail
      exact (state_of_step hstep).symm
    · have hrest' : labels.map Prod.fst ≠ [] := by rwa [ne_eq, List.map_eq_nil_iff]
      rw [← ih hrest']
      simp only [List.map_cons, List.getLast_cons hrest']

/-- What a successful run says about its loop. -/
theorem run_eq_ok {witness : Witness} (hrun : run sha256 builder bound = .ok witness) :
    ∃ rows last, runLoop sha256 bound builder = .ok (rows, last) ∧
      last.state.vm.cpu.runState ≠ .running ∧ Witness.fromRows rows = .ok witness := by
  obtain ⟨⟨rows, last⟩, hloop, hfinish⟩ := Except.bind_eq_ok.mp hrun
  change finishRun bound rows last = .ok witness at hfinish
  unfold finishRun at hfinish
  split_ifs at hfinish with hrunning
  exact ⟨rows, last, Except.mapError_eq_ok.mp hloop, hrunning, Except.mapError_eq_ok.mp hfinish⟩

/-- A run over a loop that ends. -/
theorem run_of_loop (hloop : runLoop sha256 bound builder = .ok (rows, last)) :
    run sha256 builder bound = finishRun bound rows last := by
  unfold run
  rw [hloop]
  rfl

variable (sha256 builder bound) in
/-- A run ends in a terminal state: a witness ends where the CPU cannot execute, and a bound that
runs out where the CPU can execute is reported. -/
structure EndsTerminal : Prop where
  terminal : ∀ witness, run sha256 builder bound = .ok witness →
    witness.finalState.vm.cpu.runState.canExecuteInstruction = false
  bounded : ∀ labels last, Runs (ExecutingStep sha256) builder labels last →
    labels.length = bound → last.canExecute = true →
      run sha256 builder bound = .error (.stepBoundReached bound)

theorem canExecute_cases (hexecutes : builder.canExecute = true) :
    builder.state.vm.cpu.runState = .running ∨ builder.state.vm.cpu.runState = .haltBug := by
  unfold canExecute RunState.canExecuteInstruction at hexecutes
  cases hstate : builder.state.vm.cpu.runState <;> simp [hstate] at hexecutes ⊢

variable (sha256 builder bound) in
/-- A run ends in a terminal state exactly when its bound does not land on the HALT bug. -/
theorem endsTerminal_iff : EndsTerminal sha256 builder bound ↔
    ∀ labels last, Runs (ExecutingStep sha256) builder labels last → labels.length = bound →
      last.state.vm.cpu.runState ≠ .haltBug := by
  constructor
  · rintro hends labels last hruns hlength hbug
    have hexecutes : last.canExecute = true := by rw [canExecute, hbug]; rfl
    have hbounded := hends.bounded labels last hruns hlength hexecutes
    rw [run_of_loop (runLoop_eq_ok.mpr ⟨labels, hruns, rfl, .inl hlength⟩), finishRun,
      if_neg (by rw [hbug]; decide)] at hbounded
    -- Past the check for `Running` no later error is the one of the bound.
    split_ifs at hbounded
    · cases hbounded
    · cases hbounded
    · cases hrows : Witness.fromRows (labels.map Prod.fst) <;> rw [hrows] at hbounded <;>
        cases hbounded
  · intro hsafe
    constructor
    · intro witness hrun
      obtain ⟨rows, last, hloop, hrunning, hrows⟩ := run_eq_ok hrun
      obtain ⟨labels, hruns, rfl, hend⟩ := runLoop_eq_ok.mp hloop
      obtain ⟨hsome, hfinal⟩ := Witness.finalState_of_fromRows hrows
      rw [hfinal, last_row hruns hsome]
      obtain hlength | ⟨-, hstops⟩ := hend
      · by_contra hexecutes
        rw [Bool.not_eq_false] at hexecutes
        obtain hcase | hcase := canExecute_cases hexecutes
        · exact hrunning hcase
        · exact hsafe labels last hruns hlength hcase
      · exact hstops
    · intro labels last hruns hlength hexecutes
      rw [run_of_loop (runLoop_eq_ok.mpr ⟨labels, hruns, rfl, .inl hlength⟩), finishRun,
        if_pos ((canExecute_cases hexecutes).resolve_right (hsafe labels last hruns hlength))]

/-- The machine before a HALT, with an interrupt pending and the master enable off. -/
def pendingHaltVm : VmState :=
  { VmState.dmgPostBootMbc3Initial .dmgPostBootMbc3V1 with
    cpu := { CpuState.dmgPostBootInitial with pc := 0 }
    dmgDevices := { DmgDeviceState.dmgPostBoot with interruptEnable := 1 } }

/-- The pending HALT asks for its opcode. -/
theorem pendingHalt_asks (roots : AuthenticationRoots) :
    StepRelation.apply sha256 ⟨pendingHaltVm, roots⟩ [] =
      .error (.missingWitness (.rom 0 0 .opcodeFetch)) := rfl

/-- The instruction of the opcode 0x76. -/
def haltInstruction : DecodedInstruction := (decodePrimary 0x76).get rfl

section PendingHalt

variable {τ : Type} {authentication : BusAuthentication MerklePath τ} {roots : τ}
  {path : MerklePath}

/-- The pending HALT after its opcode was fetched. -/
def pendingHaltFetched (roots : τ) (path : MerklePath) : Executor (BusState MerklePath τ) :=
  let start := Step.start pendingHaltVm roots [.rom ⟨0, 0, 0x76, path⟩]
  ⟨{ pendingHaltVm.cpu with pc := 1 }, start.bus.listed [] (.opcodeFetch ⟨0, 0, 0x76, path⟩)⟩

/-- The fetch of a verified opcode. -/
theorem pendingHalt_fetches
    (hverify : authentication.verifyRom roots ⟨0, 0, 0x76, path⟩ = .ok ()) :
    Accepts (Exec.fetchAndDecode (machineBus authentication))
      (Step.start pendingHaltVm roots [.rom ⟨0, 0, 0x76, path⟩]) (haltInstruction, [])
      (pendingHaltFetched roots path) := by
  have hfetched := @BusState.Fetched.rom _ _ authentication
    (Step.start pendingHaltVm roots [.rom ⟨0, 0, 0x76, path⟩]).bus 0 .opcodeFetch
    ⟨0, 0, 0x76, path⟩ [] _ rfl rfl rfl rfl rfl hverify
  have hfirst : Accepts (Exec.fetchFirstOpcode (machineBus authentication) false)
      (Step.start pendingHaltVm roots [.rom ⟨0, 0, 0x76, path⟩]) 0x76
      (pendingHaltFetched roots path) :=
    (Exec.accepts_fetchFirstOpcode 0x76).mpr
      ⟨_, (BusState.accepts_fetchInstruction _ _ _).mpr ⟨rfl, hfetched⟩, rfl⟩
  exact Accepts.bind (show Accepts Exec.cpu _ pendingHaltVm.cpu _ from rfl)
    (Accepts.bind hfirst rfl)

/-- The pending HALT runs into the HALT bug. -/
theorem pendingHalt_executes
    (hverify : authentication.verifyRom roots ⟨0, 0, 0x76, path⟩ = .ok ()) :
    ∃ next, outcome (Step.instructionStep authentication pendingHaltVm)
        (Step.start pendingHaltVm roots [.rom ⟨0, 0, 0x76, path⟩]) =
          (.ok (haltInstruction, false), next) ∧
      next.cpu.runState = .haltBug ∧ next.cpu.mCycles = pendingHaltVm.cpu.mCycles + 1 ∧
      next.bus.inputNext = 0 ∧ next.bus.roots = roots ∧ next.bus.witnesses = [] ∧
      next.bus.events = [.opcodeFetch ⟨0, 0, 0x76, path⟩] := by
  have hexecute : Accepts (Exec.fetchAndExecute (machineBus authentication))
      (Step.start pendingHaltVm roots [.rom ⟨0, 0, 0x76, path⟩]) (haltInstruction, false)
      ⟨{ pendingHaltVm.cpu with pc := 1, runState := .halted },
        (pendingHaltFetched roots path).bus⟩ :=
    Accepts.bind (pendingHalt_fetches hverify) rfl
  unfold Step.instructionStep
  rw [outcome_bind, show outcome _ _ = _ from hexecute]
  exact ⟨_, rfl, rfl, rfl, rfl, rfl, rfl, rfl⟩

end PendingHalt

/-- What the pending HALT does. -/
def pendingHaltEffects (path : MerklePath) : StepEffects MerklePath :=
  ⟨.instruction, haltInstruction, false, [.opcodeFetch ⟨0, 0, 0x76, path⟩]⟩

/-- The relation accepts the pending HALT. -/
theorem pendingHalt_applies {roots : AuthenticationRoots} {path : MerklePath}
    (hverify : (BusAuthentication.merkle sha256).verifyRom roots ⟨0, 0, 0x76, path⟩ = .ok ())
    (hbus : roots.busTranscript.nextIndex = 0) (hisa : roots.isaTranscript.nextIndex = 0) :
    ∃ after, StepRelation.apply sha256 ⟨pendingHaltVm, roots⟩ [.rom ⟨0, 0, 0x76, path⟩] =
        .ok (after, pendingHaltEffects path) ∧
      after.vm.cpu.runState = .haltBug ∧
      after.vm.cpu.mCycles = pendingHaltVm.cpu.mCycles + 1 ∧ after.vm.inputNext = 0 := by
  obtain ⟨next, hrun, hbug, hcycles, hinput, hroots, hwitnesses, hevents⟩ := pendingHalt_executes hverify
  have hcommit : ∃ committed, commitStep sha256 roots
      [BusEvent.opcodeFetch (⟨0, 0, 0x76, path⟩ : RomRead MerklePath)] haltInstruction =
        .ok committed := by
    obtain ⟨romRoot, memoryRoot, inputRoot, outputRoot, ⟨busIndex, bus⟩, ⟨isaIndex, isa⟩⟩ := roots
    subst hbus hisa
    have hpacked : ¬ 2 ^ 106 ≤ IsaTable.packedRecord haltInstruction := by decide
    obtain ⟨appended, happended⟩ : ∃ appended, IsaTranscriptAccumulator.append sha256 ⟨0, isa⟩
        (IsaTable.packedRecord haltInstruction) = .ok appended := by
      unfold IsaTranscriptAccumulator.append
      rw [if_neg hpacked]
      exact ⟨_, rfl⟩
    exact ⟨_, Except.bind_eq_ok.mpr ⟨_, rfl, Except.bind_eq_ok.mpr
      ⟨_, Except.mapError_eq_ok.mpr happended, rfl⟩⟩⟩
  obtain ⟨committed, hcommit⟩ := hcommit
  have hfinish : Step.finish (.merkle sha256) .instruction haltInstruction false next =
      .ok ((Step.reached next, committed), pendingHaltEffects path) := by
    unfold Step.finish
    rw [hwitnesses, hroots, hevents]
    show (commitStep sha256 _ _ _ >>= _) = _
    rw [hcommit]
    rfl
  have happly : Step.apply (.merkle sha256) pendingHaltVm roots [.rom ⟨0, 0, 0x76, path⟩] =
      Step.finish (.merkle sha256) .instruction haltInstruction false next := by
    have hruns : Step.apply (.merkle sha256) pendingHaltVm roots [.rom ⟨0, 0, 0x76, path⟩] =
        Step.runInstruction (.merkle sha256) pendingHaltVm
          (Step.start pendingHaltVm roots [.rom ⟨0, 0, 0x76, path⟩]) := rfl
    have hexecutes : pendingHaltVm.cpu.runState.canExecuteInstruction = true := rfl
    rw [hruns, Step.runInstruction, if_pos hexecutes, hrun]
  have hauthenticated : StepRelation.apply sha256 ⟨pendingHaltVm, roots⟩
      [.rom ⟨0, 0, 0x76, path⟩] = .ok (⟨Step.reached next, committed⟩, pendingHaltEffects path) :=
    Except.bind_eq_ok.mpr ⟨_, happly.trans hfinish, rfl⟩
  exact ⟨_, hauthenticated, hbug, hcycles, hinput⟩

variable (sha256) in
/-- A checkpoint at the pending HALT. -/
def pendingHaltState : AuthenticatedState :=
  ⟨pendingHaltVm, .initial sha256 (RomImage.exactImage sha256 [0x76]).root
    (MemoryImage.exactImage sha256 zeroTable).root⟩

variable (sha256) in
/-- A builder that resumes at the pending HALT. -/
def pendingHalt : TraceBuilder :=
  ⟨RomImage.exactImage sha256 [0x76], MemoryImage.exactImage sha256 zeroTable, [],
    pendingHaltState sha256⟩

theorem romImage_pendingHalt :
    RomImage.new sha256 [0x76] = .ok (RomImage.exactImage sha256 [0x76]) :=
  RomImage.new_eq (List.cons_ne_nil _ _) (by decide)

/-- The builder comes from a checkpoint. -/
theorem pendingHalt_reachable : Reachable sha256 (pendingHalt sha256) := by
  have hmemory : MemoryImage.Reachable sha256 (MemoryImage.exactImage sha256 zeroTable) :=
    .built (.fromCheckpointBytes
      (MemoryImage.fromCheckpointBytes_eq sha256 List.length_replicate))
  have hresume : resume sha256 (RomImage.exactImage sha256 [0x76])
      (MemoryImage.exactImage sha256 zeroTable) [] (pendingHaltState sha256) =
        .ok (pendingHalt sha256) := by
    have hlog : LogAccumulator.commit sha256 .input [] =
        .ok (pendingHaltState sha256).inputLog := rfl
    have hromRoot : (pendingHaltState sha256).roots.romRoot =
      (RomImage.exactImage sha256 [0x76]).root := rfl
    have hmemoryRoot : (pendingHaltState sha256).roots.memoryRoot =
      (MemoryImage.exactImage sha256 zeroTable).root := rfl
    have hshort : ¬ 2 ^ 64 ≤ ([] : List Byte).length := by decide
    have hconsumed : ¬ ([] : List Byte).length < (pendingHaltState sha256).vm.inputNext :=
      Nat.not_lt_zero 0
    unfold resume
    rw [if_neg (not_not_intro hromRoot), if_neg (not_not_intro hmemoryRoot), if_neg hshort]
    dsimp only
    rw [if_neg hconsumed, List.take_nil, hlog]
    show (if (pendingHaltState sha256).inputLog ≠ _ then _ else _) = _
    rw [if_neg (not_not_intro rfl)]
    rfl
  exact .resume romImage_pendingHalt hmemory hresume

/-- The opcode of the pending HALT is read and verified. -/
theorem pendingHalt_reads : ∃ path,
    (pendingHalt sha256).materialize sha256 [.rom 0 0] = .ok [.rom ⟨0, 0, 0x76, path⟩] ∧
      (BusAuthentication.merkle sha256).verifyRom (pendingHaltState sha256).roots
        ⟨0, 0, 0x76, path⟩ = .ok () := by
  have hexact := @RomImage.exact_exactImage sha256 [0x76] (by decide)
  have hlength : 0 < (RomImage.exactImage sha256 [0x76]).bytes.length := by
    rw [hexact.length]
    exact Nat.two_pow_pos _
  have hread : (RomImage.exactImage sha256 [0x76]).readMapped 0 0 = .ok ⟨0, 0, 0x76,
      MerkleTree.pathOf sha256 .rom (arrayOf (RomImage.exactImage sha256 [0x76]).bytes) 0⟩ := by
    unfold RomImage.readMapped
    have htree := MerkleTree.read_exact sha256 .rom hexact.length hexact.depth_le hlength
    rw [← hexact.tree] at htree
    rw [htree]
    rfl
  have hderive := hexact.derive_readMapped hread
  generalize MerkleTree.pathOf sha256 .rom (arrayOf (RomImage.exactImage sha256 [0x76]).bytes) 0 =
    path at hread hderive
  have hone : materializeOne sha256 (pendingHalt sha256) none (.rom 0 0) =
      .ok (.rom ⟨0, 0, 0x76, path⟩, none) := by
    exact Except.bind_eq_ok.mpr ⟨_, Except.mapError_eq_ok.mpr hread, rfl⟩
  refine ⟨path, ?_, Except.mapError_eq_ok.mpr hderive⟩
  exact Except.bind_eq_ok.mpr ⟨_, Except.bind_eq_ok.mpr ⟨_, hone, rfl⟩, rfl⟩

/-- The builder takes the pending HALT. -/
theorem pendingHalt_steps : ∃ path row next,
    Accepts (step sha256) (pendingHalt sha256) row next ∧ row.effects = pendingHaltEffects path ∧
      row.after.vm.cpu.mCycles = row.before.vm.cpu.mCycles + 1 ∧
      next.state.vm.cpu.runState = .haltBug ∧ next.state.vm.inputNext = 0 ∧
      next.privateInput = [] := by
  obtain ⟨path, hmaterialize, hverify⟩ := @pendingHalt_reads sha256
  obtain ⟨after, happly, hbug, hcycles, hinput⟩ := pendingHalt_applies hverify rfl rfl
  have hloop : ((pendingHalt sha256).planner sha256).planLoop maxWitnessesPerStep [] =
      .ok (after, pendingHaltEffects path) := by
    rw [maxWitnessesPerStep, Planner.planLoop_asks rfl (pendingHalt_asks _)]
    exact Planner.planLoop_ok hmaterialize happly
  obtain ⟨next, _, _, hstep, hstepped, -⟩ := step_of_planLoop pendingHalt_reachable.consistent hloop
  have hstate : next.state = after := hstepped.state
  exact ⟨path, _, next, hstep, rfl, hcycles, by rw [hstate]; exact hbug,
    by rw [hstate]; exact hinput, hstepped.privateInput⟩

/-- A run with a bound of one step returns a witness that ends in the HALT bug. -/
theorem pendingHalt_runs : ∃ witness, run sha256 (pendingHalt sha256) 1 = .ok witness ∧
    witness.finalState.vm.cpu.runState = .haltBug := by
  obtain ⟨-, row, next, hstep, -, -, hbug, hinput, hprivate⟩ := @pendingHalt_steps sha256
  have hloop : runLoop sha256 1 (pendingHalt sha256) = .ok ([row], next) :=
    runLoop_eq_ok.mpr ⟨[(row, next)], .single ⟨rfl, hstep, rfl⟩, rfl, .inl rfl⟩
  refine ⟨⟨[⟨[row], List.cons_ne_nil _ _⟩], row.before, row.after, 1⟩, ?_, ?_⟩
  · rw [run_of_loop hloop, finishRun, hbug, hprivate, hinput]
    rfl
  · rw [← state_of_step hstep]
    exact hbug

end TraceBuilder

/-- A run may return a witness whose final state can execute. -/
theorem run_endsInHaltBug : ¬∀ builder, TraceBuilder.Reachable sha256 builder →
    ∀ bound, TraceBuilder.EndsTerminal sha256 builder bound := by
  intro hclaim
  obtain ⟨witness, hrun, hbug⟩ := @TraceBuilder.pendingHalt_runs sha256
  have hterminal :=
    (hclaim _ TraceBuilder.pendingHalt_reachable 1).terminal witness hrun
  rw [hbug] at hterminal
  cases hterminal

end Zksm83
