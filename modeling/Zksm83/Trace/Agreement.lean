import Zksm83.Core.Refinement
import Zksm83.Trace.Convergence

/-!
# The two trace builders agree

A builder over committed images and one over the same bytes in plain tables take the same steps:
their plans, their witnesses apart from the paths, and the writes that they enter are the same, so
they stay side by side along every run. Read `lookup_builder_agrees` first.
-/

namespace Zksm83

open Rejecting

section Relations

variable (sha256 : List Byte → CommitmentRoot)

/-- Roots with the log roots of another state. -/
def AuthenticationRoots.logsOf (anchor roots : AuthenticationRoots) : AuthenticationRoots :=
  { anchor with inputRoot := roots.inputRoot, outputRoot := roots.outputRoot }

theorem AuthenticationRoots.logsOf_appendEvent (anchor roots : AuthenticationRoots)
    (event : BusEvent MerklePath) (path : MerklePath → MerklePath) :
    (anchor.logsOf roots).appendEvent sha256 (event.mapPath path) =
      anchor.logsOf (roots.appendEvent sha256 event) := by
  cases event <;> rfl

/-- The logs advance in the same way. -/
theorem AuthenticationRoots.logsOf_appendLogs (anchor roots : AuthenticationRoots)
    (events : List (BusEvent MerklePath)) (path : MerklePath → MerklePath) :
    (anchor.logsOf roots).appendLogs sha256 (events.map (BusEvent.mapPath path)) =
      anchor.logsOf (roots.appendLogs sha256 events) := by
  unfold AuthenticationRoots.appendLogs
  induction events generalizing roots with
  | nil => rfl
  | cons event events ih =>
    rw [List.map_cons, List.foldl_cons, List.foldl_cons, logsOf_appendEvent, ih]

/-- Every path replaced by the placeholder of lookup-backed execution. -/
def placeholderPath (_ : MerklePath) : MerklePath := .lookupPlaceholder

/-- The lookup relation takes the witnesses of the reference relation without their paths, from
roots with the same logs. -/
def merkleToPlaceholder (anchor : AuthenticationRoots) :
    AuthenticationMap StepError.ByAuthentication (.merkle sha256) (.lookupRoots sha256) where
  path := placeholderPath
  roots roots roots' := roots' = anchor.logsOf roots
  verifyRom _ _ := follows_mapError .romAuthentication (fun _ => trivial) (fun _ => rfl)
  verifyRead _ _ := follows_mapError .memoryAuthentication (fun _ => trivial) (fun _ => rfl)
  verifyWrite {before before'} write hroots := by
    subst hroots
    show Follows _ _ ((write.derive sha256 before.memoryRoot).mapError _ >>= _) _
    cases write.derive sha256 before.memoryRoot with
    | error reason => exact .escaped trivial
    | ok memoryRoot => exact .accepted rfl
  commit {before before'} events instruction hroots := by
    subst hroots
    show Follows _ _ (commitStep sha256 before events instruction)
      (.ok ((anchor.logsOf before).appendLogs sha256 (events.map (BusEvent.mapPath placeholderPath))))
    rw [AuthenticationRoots.logsOf_appendLogs]
    rcases commitStep_cases sha256 before events instruction with
      ⟨error, herror, hauthentication, _⟩ | ⟨busTranscript, isaTranscript, hcommit⟩
    · rw [herror]
      exact .escaped hauthentication
    · rw [hcommit]
      exact .accepted rfl

end Relations

/-- Authenticated steps of the second machine follow those of the first. -/
theorem AuthenticationMap.follows_applyAuthenticated {tolerated : StepError → Prop}
    {first second : BusAuthentication MerklePath AuthenticationRoots}
    (map : AuthenticationMap tolerated first second) {state state' : AuthenticatedState}
    (hvm : state'.vm = state.vm) (hroots : map.roots state.roots state'.roots)
    (input : List (BusWitness MerklePath)) :
    Follows tolerated (fun ended ended' => ended'.1.vm = ended.1.vm ∧
        map.roots ended.1.roots ended'.1.roots ∧ ended'.2 = ended.2.mapPath map.path)
      (applyAuthenticated first state input)
      (applyAuthenticated second state' (input.map (BusWitness.mapPath map.path))) := by
  unfold applyAuthenticated
  rw [hvm]
  refine (map.follows_apply state.vm hroots input).bind (fun ended ended' hended => ?_)
  exact .accepted hended

/-- A lookup builder at the same boundary over the same bytes. -/
structure Mirrors (builder : TraceBuilder) (lookup : LookupTraceBuilder) : Prop where
  rom : ∀ {physicalAddress : ℕ} {value : Byte},
    builder.rom.bytes[physicalAddress]? = some value → lookup.rom[physicalAddress]? = some value
  memory : lookup.memory = builder.memory.checkpointBytes
  privateInput : lookup.privateInput = builder.privateInput
  vm : lookup.state.vm = builder.state.vm
  inputRoot : lookup.state.roots.inputRoot = builder.state.roots.inputRoot
  outputRoot : lookup.state.roots.outputRoot = builder.state.roots.outputRoot

/-- Rows with the same effects apart from the paths, between boundaries with the same machine state
and the same logs. -/
structure RowsAgree (row row' : TraceRow) : Prop where
  effects : row'.effects = row.effects.mapPath placeholderPath
  before : row'.before.vm = row.before.vm
  after : row'.after.vm = row.after.vm
  inputRoot : row'.after.roots.inputRoot = row.after.roots.inputRoot
  outputRoot : row'.after.roots.outputRoot = row.after.roots.outputRoot

section Steps

variable {sha256 : List Byte → CommitmentRoot} {builder : TraceBuilder}
  {lookup : LookupTraceBuilder}

theorem getElem?_arrayOf {bytes : List Byte} {address : ℕ} (haddress : address < bytes.length) :
    bytes[address]? = some (arrayOf bytes address) := by
  rw [arrayOf, List.getD_eq_getElem _ _ haddress, List.getElem?_eq_getElem haddress]

/-- What an access yields on an image, it yields on the table of its bytes without the path. -/
theorem tableAccess_of_access (hconsistent : builder.Consistent sha256)
    (hmirrors : Mirrors builder lookup) {image next : MemoryImage} (hexact : image.Exact sha256)
    {planned : PlannedWitness} {witness : BusWitness MerklePath}
    (haccess : TraceBuilder.Access sha256 builder.rom image planned witness next) :
    LookupTraceBuilder.TableAccess lookup.rom image.checkpointBytes planned
      (witness.mapPath placeholderPath) next.checkpointBytes := by
  cases haccess with
  | rom hread =>
    obtain ⟨depth, hrom⟩ := hconsistent.rom
    obtain ⟨_, hphysical, rfl⟩ := hrom.readMapped_eq_ok hread
    exact .rom (hmirrors.rom (getElem?_arrayOf hphysical))
  | memoryRead hread =>
    obtain ⟨_, hphysical, rfl⟩ := hexact.readMapped_eq_ok hread
    exact .memoryRead (getElem?_arrayOf hphysical)
  | memoryWrite hwrite =>
    obtain rfl := hexact.writeMapped_eq hwrite
    obtain ⟨hphysical, rfl, _⟩ := hexact.writeMapped_ok hwrite
    exact .memoryWrite _ (getElem?_arrayOf hphysical)
  | inputByte value => exact .inputByte value

theorem tableAccesses_of_accesses (hconsistent : builder.Consistent sha256)
    (hmirrors : Mirrors builder lookup) {image next : MemoryImage} (hexact : image.Exact sha256)
    {plan : List PlannedWitness} {witnesses : List (BusWitness MerklePath)}
    (haccesses : TraceBuilder.Accesses sha256 builder.rom image plan witnesses next) :
    LookupTraceBuilder.TableAccesses lookup.rom image.checkpointBytes plan
      (witnesses.map (BusWitness.mapPath placeholderPath)) next.checkpointBytes := by
  induction haccesses with
  | nil image => exact .nil _
  | cons hfirst _ ih =>
    exact .cons (tableAccess_of_access hconsistent hmirrors hexact hfirst)
      (ih (hfirst.exact hexact))

/-- A plan that materializes on the images materializes on the tables. -/
theorem materialize_mirrors (hconsistent : builder.Consistent sha256)
    (hmirrors : Mirrors builder lookup) {plan : List PlannedWitness}
    {witnesses : List (BusWitness MerklePath)}
    (h : builder.materialize sha256 plan = .ok witnesses) :
    lookup.materialize plan = .ok (witnesses.map (BusWitness.mapPath placeholderPath)) := by
  rw [TraceBuilder.materialize_eq hconsistent.memory] at h
  cases hfrom : TraceBuilder.materializeFrom sha256 builder (some builder.memory) plan with
  | error error =>
    rw [hfrom] at h
    cases h
  | ok ended =>
    obtain ⟨found, fork⟩ := ended
    rw [hfrom] at h
    cases h
    obtain ⟨next, -, haccesses⟩ := TraceBuilder.accesses_of_materializeFrom hfrom
    refine LookupTraceBuilder.materialize_eq_ok.mpr ⟨next.checkpointBytes, ?_⟩
    rw [hmirrors.memory]
    exact tableAccesses_of_accesses hconsistent hmirrors hconsistent.memory haccesses

/-- What the lookup relation makes of the witnesses without their paths. -/
theorem follows_mirrors (hmirrors : Mirrors builder lookup)
    (witnesses : List (BusWitness MerklePath)) :
    Follows StepError.ByAuthentication (fun ended ended' => ended'.1.vm = ended.1.vm ∧
        ended'.1.roots = lookup.state.roots.logsOf ended.1.roots ∧
        ended'.2 = ended.2.mapPath placeholderPath)
      (StepRelation.apply sha256 builder.state witnesses)
      (LookupStepRelation.apply sha256 lookup.state
        (witnesses.map (BusWitness.mapPath placeholderPath))) := by
  have hroots : lookup.state.roots = lookup.state.roots.logsOf builder.state.roots := by
    unfold AuthenticationRoots.logsOf
    rw [← hmirrors.inputRoot, ← hmirrors.outputRoot]
  exact (merkleToPlaceholder sha256 lookup.state.roots).follows_applyAuthenticated hmirrors.vm
    hroots witnesses

theorem planLoop_applied (hconsistent : builder.Consistent sha256)
    (hmirrors : Mirrors builder lookup) {remaining : ℕ} {existing : List PlannedWitness}
    {input : List (BusWitness MerklePath)}
    {result : AuthenticatedState × StepEffects MerklePath}
    (hinput : (builder.planner sha256).materialize existing = .ok input)
    (happly : (builder.planner sha256).apply input = .ok result) :
    ∃ result', (lookup.planner sha256).planLoop remaining existing = .ok result' ∧
      result'.1.vm = result.1.vm ∧
      result'.1.roots = lookup.state.roots.logsOf result.1.roots ∧
      result'.2 = result.2.mapPath placeholderPath := by
  have hfollows := @follows_mirrors sha256 _ _ hmirrors input
  rw [show StepRelation.apply sha256 builder.state input = _ from happly] at hfollows
  obtain ⟨result', hlookup, hresult⟩ := hfollows.of_ok
  exact ⟨result', Planner.planLoop_ok (materialize_mirrors hconsistent hmirrors hinput) hlookup,
    hresult⟩

/-- The two plan loops stay side by side. -/
theorem planLoop_mirrors (hconsistent : builder.Consistent sha256)
    (hmirrors : Mirrors builder lookup) {remaining : ℕ} {existing : List PlannedWitness}
    {result : AuthenticatedState × StepEffects MerklePath}
    (h : (builder.planner sha256).planLoop remaining existing = .ok result) :
    ∃ result', (lookup.planner sha256).planLoop remaining existing = .ok result' ∧
      result'.1.vm = result.1.vm ∧
      result'.1.roots = lookup.state.roots.logsOf result.1.roots ∧
      result'.2 = result.2.mapPath placeholderPath := by
  induction remaining generalizing existing with
  | zero =>
    obtain ⟨input, hinput, happly | ⟨_, _, _, hmore, _⟩⟩ := Planner.planLoop_eq_ok h
    · exact planLoop_applied hconsistent hmirrors hinput happly
    · cases hmore
  | succ remaining ih =>
    obtain ⟨input, hinput, happly | ⟨request, planned, more, hmore, hmissing, hplanned, hrest⟩⟩ :=
      Planner.planLoop_eq_ok h
    · exact planLoop_applied hconsistent hmirrors hinput happly
    · cases hmore
      have hfollows := @follows_mirrors sha256 _ _ hmirrors input
      rw [show StepRelation.apply sha256 builder.state input = _ from hmissing] at hfollows
      have hlookup := hfollows.of_error (fun htolerated => htolerated)
      have hsame := @Planner.plan_congr _ (builder.planner sha256) _ _ (lookup.planner sha256) _ _
        (congrArg VmState.inputNext hmirrors.vm) hmirrors.privateInput hplanned
      obtain ⟨result', hloop, hresult⟩ := ih hrest
      refine ⟨result', ?_, hresult⟩
      rw [Planner.planLoop_asks (materialize_mirrors hconsistent hmirrors hinput) hlookup, hsame]
      exact hloop

theorem memoryEffect_mapPath {π₁ π₂ : Type} (path : π₁ → π₂) (event : BusEvent π₁) :
    (event.mapPath path).memoryEffect = event.memoryEffect.map (MemoryWrite.mapPath path) := by
  cases event <;> rfl

/-- The described memory does not depend on the paths. -/
theorem describedMemory_mapPath (bytes : List Byte) (events : List (BusEvent MerklePath)) :
    describedMemory bytes (events.map (BusEvent.mapPath placeholderPath)) =
      describedMemory bytes events := by
  unfold describedMemory
  induction events generalizing bytes with
  | nil => rfl
  | cons event events ih =>
    rw [List.map_cons, List.foldl_cons, List.foldl_cons, ih, memoryEffect_mapPath]
    cases event.memoryEffect <;> rfl

/-- A step of the builder is followed by one of the lookup builder with an agreeing row, to builders
side by side. -/
theorem step_mirrors (hconsistent : builder.Consistent sha256) (hmirrors : Mirrors builder lookup)
    {row : TraceRow} {next : TraceBuilder}
    (hstep : Accepts (TraceBuilder.step sha256) builder row next) :
    next.Consistent sha256 ∧ ∃ row' next',
      Accepts (LookupTraceBuilder.step sha256) lookup row' next' ∧ RowsAgree row row' ∧
        Mirrors next next' := by
  obtain ⟨before, after, effects⟩ := row
  obtain ⟨⟨after', effects'⟩, hloop, hvm, hroots, heffects⟩ :=
    planLoop_mirrors hconsistent hmirrors (TraceBuilder.planLoop_of_step hstep)
  obtain ⟨_, _, _, hrun, hstepped, hnext⟩ :=
    TraceBuilder.step_of_planLoop hconsistent (TraceBuilder.planLoop_of_step hstep)
  obtain ⟨hrow, rfl⟩ := Prod.mk.inj (hrun.symm.trans hstep)
  cases hrow
  obtain ⟨next', _, _, hrun', hstepped'⟩ := LookupTraceBuilder.step_of_planLoop hloop
  dsimp only at hvm hroots heffects
  subst heffects
  refine ⟨hnext, _, next', hrun', ⟨rfl, hmirrors.vm, hvm, ?_, ?_⟩, ?_⟩
  · rw [hroots]
    rfl
  · rw [hroots]
    rfl
  · refine ⟨?_, ?_, ?_, ?_, ?_, ?_⟩
    · rw [hstepped.rom, hstepped'.rom]
      exact hmirrors.rom
    · rw [hstepped'.memory, hstepped.memory, hmirrors.memory]
      exact describedMemory_mapPath _ _
    · rw [hstepped'.privateInput, hstepped.privateInput, hmirrors.privateInput]
    · rw [hstepped'.state, hstepped.state]
      exact hvm
    · rw [hstepped'.state, hstepped.state, hroots]
      rfl
    · rw [hstepped'.state, hstepped.state, hroots]
      rfl

end Steps

section Runs

variable (sha256 : List Byte → CommitmentRoot)

/-- A call of `step` that succeeds, with its row and the builder after it. -/
def TraceBuilder.Steps (builder : TraceBuilder) (label : TraceRow × TraceBuilder)
    (next : TraceBuilder) : Prop :=
  Accepts (TraceBuilder.step sha256) builder label.1 next ∧ label.2 = next

/-- A call of `step` that succeeds, with its row and the builder after it. -/
def LookupTraceBuilder.Steps (builder : LookupTraceBuilder) (label : TraceRow × LookupTraceBuilder)
    (next : LookupTraceBuilder) : Prop :=
  Accepts (LookupTraceBuilder.step sha256) builder label.1 next ∧ label.2 = next

variable {sha256}

/-- A run of the builder is followed by one of the lookup builder. -/
theorem runs_mirror {builder next : TraceBuilder} {lookup : LookupTraceBuilder}
    {labels : List (TraceRow × TraceBuilder)} (hconsistent : builder.Consistent sha256)
    (hmirrors : Mirrors builder lookup)
    (hrun : Runs (TraceBuilder.Steps sha256) builder labels next) :
    ∃ labels' next', Runs (LookupTraceBuilder.Steps sha256) lookup labels' next' ∧
      List.Forall₂ (fun label label' => RowsAgree label.1 label'.1 ∧ Mirrors label.2 label'.2)
        labels labels' := by
  induction hrun generalizing lookup with
  | nil => exact ⟨[], lookup, .nil lookup, .nil⟩
  | @cons _ middle _ label labels hstep _ ih =>
    obtain ⟨row, after⟩ := label
    obtain ⟨hstep, rfl⟩ := hstep
    obtain ⟨hnext, row', middle', hstep', hrows, hmirrors'⟩ :=
      step_mirrors hconsistent hmirrors hstep
    obtain ⟨labels', next', hrun', hlabels⟩ := ih hnext hmirrors'
    exact ⟨(row', middle') :: labels', next', .cons ⟨hstep', rfl⟩ hrun',
      .cons ⟨hrows, hmirrors'⟩ hlabels⟩

/-- Both paddings of a program agree where the shorter one is. -/
theorem getElem?_paddedRom {program : List Byte} (hlength : program.length ≤ romBytes)
    {physicalAddress : ℕ} {value : Byte}
    (h : (RomImage.padded program)[physicalAddress]? = some value) :
    (LookupTraceBuilder.paddedRom program)[physicalAddress]? = some value := by
  have hbound : physicalAddress < lookupRomBytes := by
    obtain ⟨hlt, _⟩ := List.getElem?_eq_some_iff.mp h
    rw [RomImage.length_padded] at hlt
    exact hlt.trans_le (Nat.pow_le_pow_right (by decide)
      (max_le (Nat.clog_le_of_le_pow hlength) (by decide)))
  unfold RomImage.padded at h
  unfold LookupTraceBuilder.paddedRom
  by_cases hprogram : physicalAddress < program.length
  · rwa [List.getElem?_append_left hprogram] at h ⊢
  · rw [List.getElem?_append_right (not_lt.mp hprogram)] at h ⊢
    rw [List.getElem?_replicate] at h ⊢
    split at h
    · rw [if_pos (by omega), h]
    · cases h

/-- Tables of the right lengths pass their checks. -/
theorem validateTables_eq_ok {program memory : List Byte} (hempty : program ≠ [])
    (hlength : program.length ≤ romBytes) (hmemory : memory.length = lookupMemoryBytes) :
    LookupTraceBuilder.validateTables program memory = .ok () := by
  have hprogram : ¬ program.isEmpty := by rwa [List.isEmpty_iff]
  have hfits : ¬ lookupRomBytes < program.length := not_lt.mpr hlength
  simp only [LookupTraceBuilder.validateTables, hprogram, hfits, hmemory, ne_eq,
    not_true_eq_false, if_false]
  rfl

end Runs

end Zksm83
