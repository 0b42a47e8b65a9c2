import Zksm83.Core.Authentication
import Zksm83.Core.StepLogic
import Zksm83.Memory.Sha256

/-!
# The lookup relation refines the reference relation

Two machines whose witnesses differ only in their paths take the same steps, unless the first
rejects a step for a reason that is tolerated. The reference relation tolerates that a witness is
not authentic or that a transcript is full; whatever it accepts, the lookup relation accepts with
the same effects, and along runs the two states differ only in the memory root and the transcripts.
Read `lookup_refines_merkle` first. After `transition.rs` and `bus.rs`.
-/

namespace Zksm83

open Rejecting BusState

/-- The effects of a step with the paths of its events replaced. -/
def StepEffects.mapPath {π₁ π₂ : Type} (path : π₁ → π₂) (effects : StepEffects π₁) :
    StepEffects π₂ :=
  ⟨effects.kind, effects.instruction, effects.branchTaken,
    effects.busEvents.map (BusEvent.mapPath path)⟩

/-- A machine whose witnesses another machine takes with their paths replaced. -/
structure AuthenticationMap {π₁ τ₁ π₂ τ₂ : Type} (tolerated : StepError → Prop)
    (first : BusAuthentication π₁ τ₁) (second : BusAuthentication π₂ τ₂) where
  path : π₁ → π₂
  roots : τ₁ → τ₂ → Prop
  verifyRom : ∀ {before : τ₁} {before' : τ₂} (read : RomRead π₁), roots before before' →
    Follows tolerated Eq (first.verifyRom before read)
      (second.verifyRom before' (read.mapPath path))
  verifyRead : ∀ {before : τ₁} {before' : τ₂} (read : MemoryRead π₁), roots before before' →
    Follows tolerated Eq (first.verifyRead before read)
      (second.verifyRead before' (read.mapPath path))
  verifyWrite : ∀ {before : τ₁} {before' : τ₂} (write : MemoryWrite π₁), roots before before' →
    Follows tolerated roots (first.verifyWrite before write)
      (second.verifyWrite before' (write.mapPath path))
  commit : ∀ {before : τ₁} {before' : τ₂} (events : List (BusEvent π₁))
    (instruction : DecodedInstruction), roots before before' →
    Follows tolerated roots (first.commit before events instruction)
      (second.commit before' (events.map (BusEvent.mapPath path)) instruction)

namespace AuthenticationMap

variable {π₁ τ₁ π₂ τ₂ : Type} {tolerated : StepError → Prop} {first : BusAuthentication π₁ τ₁}
  {second : BusAuthentication π₂ τ₂} (map : AuthenticationMap tolerated first second)

/-- The bus of the second machine next to that of the first. -/
structure Mirrored (state : BusState π₁ τ₁) (state' : BusState π₂ τ₂) : Prop where
  view : state'.view = state.view
  roots : map.roots state.roots state'.roots
  witnesses : state'.witnesses = state.witnesses.map (BusWitness.mapPath map.path)
  events : state'.events = state.events.map (BusEvent.mapPath map.path)

/-- The second bus action follows the first. -/
abbrev Runs {α β : Type} (values : α → β → Prop) (action : BusAction π₁ τ₁ α)
    (other : BusAction π₂ τ₂ β) : Prop :=
  Simulates tolerated map.Mirrored values action other

theorem runs_unit {values : Unit → Unit → Prop} {action : BusAction π₁ τ₁ Unit}
    {other : BusAction π₂ τ₂ Unit} (h : map.Runs values action other) :
    map.Runs Eq action other := h.mono (fun _ => rfl)

theorem changeView (change : BusView → BusView) :
    map.Runs Eq (BusState.changeView change) (BusState.changeView change) := by
  refine map.runs_unit (Simulates.of_modify (fun {state state'} h => ?_))
  refine ⟨?_, h.roots, h.witnesses, h.events⟩
  show change state'.view = change state.view
  rw [h.view]

theorem pushEvent (event : BusEvent π₁) :
    map.Runs Eq (BusState.pushEvent event) (BusState.pushEvent (event.mapPath map.path)) := by
  refine map.runs_unit (Simulates.of_modify (fun {state state'} h => ?_))
  refine ⟨h.view, h.roots, h.witnesses, ?_⟩
  show state'.events ++ [event.mapPath map.path] = (state.events ++ [event]).map _
  rw [List.map_append, h.events]
  rfl

theorem kind_mapPath (path : π₁ → π₂) (witness : BusWitness π₁) :
    (witness.mapPath path).kind = witness.kind := by
  cases witness <;> rfl

/-- Both machines take the next witness. -/
theorem next (request : WitnessRequest) :
    map.Runs (fun witness witness' => witness.kind = request.kind ∧
        witness' = witness.mapPath map.path)
      (BusState.next request) (BusState.next request) := by
  refine Simulates.get_bind (fun state state' h => ?_)
  rw [h.witnesses]
  cases state.witnesses with
  | nil => exact Simulates.throw _
  | cons witness rest =>
    refine Simulates.bind (Simulates.of_modify ?_) (fun _ _ _ => ?_)
    · rintro current current' hcurrent
      exact ⟨hcurrent.view, hcurrent.roots, rfl, hcurrent.events⟩
    · dsimp only
      rw [kind_mapPath]
      split
      · exact Simulates.throw_bind _
      · rename_i hkind
        exact Simulates.pure ⟨not_not.mp hkind, rfl⟩

/-- Results of checks that do not change the bus. -/
theorem lift {α β : Type} {values : α → β → Prop} {result : Except StepError α}
    {other : Except StepError β} (h : Follows tolerated values result other) :
    map.Runs values (BusState.lift result) (BusState.lift other) := by
  cases h with
  | accepted hvalues => exact Simulates.pure hvalues
  | rejected => exact Simulates.throw _
  | escaped htolerated => exact fun _ _ _ => .escaped htolerated

theorem requireAddress (expected actual : ℕ) (role : BusRole) :
    map.Runs Eq (BusState.requireAddress expected actual role)
      (BusState.requireAddress expected actual role) := by
  unfold BusState.requireAddress
  split
  · exact Simulates.throw _
  · exact Simulates.pure rfl

theorem requirePhysicalAddress (expected actual : ℕ) (role : BusRole) :
    map.Runs Eq (BusState.requirePhysicalAddress expected actual role)
      (BusState.requirePhysicalAddress expected actual role) := by
  unfold BusState.requirePhysicalAddress
  split
  · exact Simulates.throw _
  · exact Simulates.pure rfl

theorem takeRomRead (address physicalAddress : ℕ) (role : BusRole) :
    map.Runs (fun read read' => read' = read.mapPath map.path)
      (BusState.takeRomRead first address physicalAddress role)
      (BusState.takeRomRead second address physicalAddress role) := by
  refine (map.next _).bind ?_
  rintro witness _ ⟨-, rfl⟩
  cases witness with
  | rom read =>
    refine (map.requireAddress _ _ _).bind (fun _ _ _ => ?_)
    refine (map.requirePhysicalAddress _ _ _).bind (fun _ _ _ => ?_)
    refine Simulates.get_bind (fun state state' h => ?_)
    exact (map.lift (map.verifyRom read h.roots)).bind (fun _ _ _ => Simulates.pure rfl)
  | memoryRead _ | memoryWrite _ | inputByte _ => exact Simulates.throw _

theorem takeMemoryRead (address physicalAddress : ℕ) (role : BusRole) :
    map.Runs (fun read read' => read' = read.mapPath map.path)
      (BusState.takeMemoryRead first address physicalAddress role)
      (BusState.takeMemoryRead second address physicalAddress role) := by
  refine (map.next _).bind ?_
  rintro witness _ ⟨-, rfl⟩
  cases witness with
  | memoryRead read =>
    refine (map.requireAddress _ _ _).bind (fun _ _ _ => ?_)
    refine (map.requirePhysicalAddress _ _ _).bind (fun _ _ _ => ?_)
    refine Simulates.get_bind (fun state state' h => ?_)
    exact (map.lift (map.verifyRead read h.roots)).bind (fun _ _ _ => Simulates.pure rfl)
  | rom _ | memoryWrite _ | inputByte _ => exact Simulates.throw _

theorem takeMemoryWrite (address physicalAddress value : ℕ) :
    map.Runs (fun write write' => write' = write.mapPath map.path)
      (BusState.takeMemoryWrite address physicalAddress value)
      (BusState.takeMemoryWrite address physicalAddress value) := by
  refine (map.next _).bind ?_
  rintro witness _ ⟨-, rfl⟩
  cases witness with
  | memoryWrite write =>
    refine (map.requireAddress _ _ _).bind (fun _ _ _ => ?_)
    refine (map.requirePhysicalAddress _ _ _).bind (fun _ _ _ => ?_)
    dsimp only [BusWitness.mapPath, MemoryWrite.mapPath]
    by_cases hvalue : (write.after : ℕ) = value % 256
    · simp only [hvalue, ne_eq, not_true_eq_false, if_false]
      exact Simulates.pure rfl
    · simp only [hvalue, ne_eq, not_false_eq_true, if_true]
      exact Simulates.throw_bind _
  | rom _ | memoryRead _ | inputByte _ => exact Simulates.throw _

theorem runVerifyWrite (write : MemoryWrite π₁) :
    map.Runs Eq (BusState.verifyWrite first write)
      (BusState.verifyWrite second (write.mapPath map.path)) := by
  refine Simulates.get_bind (fun state state' h => ?_)
  refine (map.lift (map.verifyWrite write h.roots)).bind (fun roots roots' hroots => ?_)
  refine map.runs_unit (Simulates.of_modify (fun {current current'} hcurrent => ?_))
  exact ⟨hcurrent.view, hroots, hcurrent.witnesses, hcurrent.events⟩

/-- The relation of the bus rules. -/
def busLogic : BusLogic first second where
  path := map.path
  Related _ values action other := map.Runs values action other
  pure := Simulates.pure
  throw _ := Simulates.throw _
  bind := Simulates.bind
  get_bind _ h := Simulates.get_bind (fun state state' hstates => h state state' hstates.view.symm)
  changeView := map.changeView
  pushEvent := map.pushEvent
  takeRomRead := map.takeRomRead
  takeMemoryRead := map.takeMemoryRead
  replaceByte address physicalAddress value := by
    refine (map.takeMemoryWrite address physicalAddress value).bind ?_
    rintro write _ rfl
    exact (map.runVerifyWrite write).bind (fun _ _ _ => Simulates.pure rfl)
  nextInput := by
    refine (map.next .inputByte).mono ?_
    rintro witness _ ⟨hkind, rfl⟩
    cases witness with
    | inputByte value => exact ⟨value, rfl, rfl⟩
    | rom _ | memoryRead _ | memoryWrite _ => cases hkind

/-- The executor of the second machine next to that of the first. -/
structure MirroredExecutor (executor : Executor (BusState π₁ τ₁))
    (executor' : Executor (BusState π₂ τ₂)) : Prop where
  cpu : executor'.cpu = executor.cpu
  bus : map.Mirrored executor.bus executor'.bus

/-- The relation of the step rules. -/
def stepLogic : StepLogic first second where
  Related _ action other := Simulates tolerated map.MirroredExecutor Eq action other
  pure _ := Simulates.pure rfl
  throw _ := Simulates.throw _
  bind hfirst hrest := Simulates.bind hfirst (by
    rintro value _ rfl
    exact hrest value)
  cpu := by
    refine Simulates.get_bind (fun executor executor' h => ?_)
    exact Simulates.pure h.cpu.symm
  modifyCpu change := by
    refine (Simulates.of_modify (fun {executor executor'} h => ?_)).mono (fun _ => rfl)
    exact ⟨congrArg change h.cpu, h.bus⟩
  bus := map.busLogic
  onBus {_ _ action other} h := by
    intro executor executor' hexecutors
    rw [Exec.settled_onBus, Exec.settled_onBus]
    refine (h hexecutors.bus).bind (fun ended ended' hended => ?_)
    exact .accepted ⟨hended.1, hexecutors.cpu, hended.2⟩

/-- What a step reaches is read off the CPU and the view of the bus. -/
theorem reached_eq {π τ : Type} (executor : Executor (BusState π τ)) :
    Step.reached executor = ⟨executor.bus.view.profile, executor.cpu, executor.bus.view.mbc3,
      executor.bus.view.dmgDevices, executor.bus.view.inputNext, executor.bus.view.outputNext⟩ :=
  rfl

/-- The step of the second machine follows that of the first. -/
theorem follows_apply (state : VmState) {roots : τ₁} {roots' : τ₂} (hroots : map.roots roots roots')
    (input : List (BusWitness π₁)) :
    Follows tolerated (fun ended ended' => ended'.1.1 = ended.1.1 ∧
        map.roots ended.1.2 ended'.1.2 ∧ ended'.2 = ended.2.mapPath map.path)
      (Step.apply first state roots input)
      (Step.apply second state roots' (input.map (BusWitness.mapPath map.path))) := by
  rw [Step.apply_eq, Step.apply_eq]
  have hstart : map.MirroredExecutor (Step.start state roots input)
      (Step.start state roots' (input.map (BusWitness.mapPath map.path))) :=
    ⟨rfl, rfl, hroots, rfl, rfl⟩
  refine (map.stepLogic.chosen state hstart).bind (fun ended ended' hended => ?_)
  obtain ⟨⟨kind, instruction, branchTaken⟩, executor⟩ := ended
  obtain ⟨_, executor'⟩ := ended'
  obtain ⟨rfl, hexecutor⟩ := hended
  have hwitnesses : executor'.bus.witnesses.length = executor.bus.witnesses.length := by
    rw [hexecutor.bus.witnesses, List.length_map]
  unfold Step.concluded Step.finish
  dsimp only
  rw [hwitnesses]
  split
  · exact .rejected
  · rw [hexecutor.bus.events]
    refine (map.commit executor.bus.events instruction hexecutor.bus.roots).bind ?_
    intro committed committed' hcommitted
    refine .accepted ⟨?_, hcommitted, rfl⟩
    show Step.reached executor' = Step.reached executor
    rw [reached_eq, reached_eq, hexecutor.cpu, hexecutor.bus.view]

end AuthenticationMap

/-- A rejection by the Merkle paths or by the transcripts, which the lookup relation does not
have. -/
def StepError.ByAuthentication : StepError → Prop
  | .romAuthentication _ | .memoryAuthentication _ | .busTranscriptCommitment _
  | .isaTranscriptCommitment _ => True
  | _ => False

namespace AuthenticationRoots

/-- Roots with the memory root and the transcripts of an earlier state. -/
def anchored (roots anchor : AuthenticationRoots) : AuthenticationRoots :=
  { roots with
    memoryRoot := anchor.memoryRoot
    busTranscript := anchor.busTranscript
    isaTranscript := anchor.isaTranscript }

variable (sha256 : List Byte → CommitmentRoot) {π : Type}

theorem anchored_appendEvent (roots anchor : AuthenticationRoots) (event : BusEvent π) :
    (roots.anchored anchor).appendEvent sha256 event =
      (roots.appendEvent sha256 event).anchored anchor := by
  cases event <;> rfl

/-- The logs advance in the same way. -/
theorem anchored_appendLogs (roots anchor : AuthenticationRoots) (events : List (BusEvent π)) :
    (roots.anchored anchor).appendLogs sha256 events =
      (roots.appendLogs sha256 events).anchored anchor := by
  unfold appendLogs
  induction events generalizing roots with
  | nil => rfl
  | cons event events ih => rw [List.foldl_cons, List.foldl_cons, anchored_appendEvent, ih]

end AuthenticationRoots

@[simp] theorem BusWitness.mapPath_id {π : Type} :
    (BusWitness.mapPath id : BusWitness π → BusWitness π) = id := by
  funext witness
  cases witness <;> rfl

@[simp] theorem BusEvent.mapPath_id {π : Type} :
    (BusEvent.mapPath id : BusEvent π → BusEvent π) = id := by
  funext event
  cases event <;> rfl

section Merkle

variable (sha256 : List Byte → CommitmentRoot)

/-- A check that may only fail in the authentication. -/
theorem follows_mapError {ε α β : Type} (error : ε → StepError) {related : α → β → Prop}
    (herror : ∀ reason, (error reason).ByAuthentication) {check : Except ε α} {other : β}
    (hrelated : ∀ {value}, check = .ok value → related value other) :
    Follows StepError.ByAuthentication related (check.mapError error) (.ok other) := by
  cases check with
  | ok value => exact .accepted (hrelated rfl)
  | error reason => exact .escaped (herror reason)

/-- One of the two transcripts of a step may be full; otherwise the log roots advance. -/
theorem commitStep_cases {π : Type} (roots : AuthenticationRoots) (events : List (BusEvent π))
    (instruction : DecodedInstruction) :
    (∃ error, commitStep sha256 roots events instruction = .error error ∧
      error.ByAuthentication ∧ error.blamesWitness = false) ∨
    ∃ busTranscript isaTranscript, commitStep sha256 roots events instruction =
      .ok { roots.appendLogs sha256 events with
        busTranscript := busTranscript
        isaTranscript := isaTranscript } := by
  unfold commitStep commitEvents
  dsimp only
  cases events.foldlM (fun (reached : BusTranscriptAccumulator) event =>
      reached.append sha256 event.transcriptEvent)
    (roots.appendLogs sha256 events).busTranscript with
  | error reason => exact .inl ⟨_, rfl, trivial, rfl⟩
  | ok busTranscript =>
    cases (roots.appendLogs sha256 events).isaTranscript.append sha256
      (IsaTable.packedRecord instruction) with
    | error reason => exact .inl ⟨_, rfl, trivial, rfl⟩
    | ok isaTranscript => exact .inr ⟨_, _, rfl⟩

/-- The log roots advance in both relations, unless a transcript is full. -/
theorem follows_commitStep {roots roots' anchor : AuthenticationRoots}
    (hroots : roots' = roots.anchored anchor) (events : List (BusEvent MerklePath))
    (instruction : DecodedInstruction) :
    Follows StepError.ByAuthentication
      (fun (after after' : AuthenticationRoots) => after' = after.anchored anchor)
      (commitStep sha256 roots events instruction) (.ok (roots'.appendLogs sha256 events)) := by
  subst hroots
  rw [AuthenticationRoots.anchored_appendLogs]
  rcases commitStep_cases sha256 roots events instruction with
    ⟨error, herror, hauthentication, _⟩ | ⟨busTranscript, isaTranscript, hcommit⟩
  · rw [herror]
    exact .escaped hauthentication
  · rw [hcommit]
    exact .accepted rfl

/-- The lookup relation takes the witnesses of the reference relation. -/
def merkleToLookup (anchor : AuthenticationRoots) :
    AuthenticationMap StepError.ByAuthentication (.merkle sha256) (.lookupRoots sha256) where
  path := id
  roots roots roots' := roots' = roots.anchored anchor
  verifyRom _ _ := follows_mapError .romAuthentication (fun _ => trivial) (fun _ => rfl)
  verifyRead _ _ := follows_mapError .memoryAuthentication (fun _ => trivial) (fun _ => rfl)
  verifyWrite {before before'} write hroots := by
    subst hroots
    show Follows _ _ ((write.derive sha256 before.memoryRoot).mapError _ >>= _) _
    cases write.derive sha256 before.memoryRoot with
    | error reason => exact .escaped trivial
    | ok memoryRoot => exact .accepted rfl
  commit events instruction hroots := by
    rw [BusEvent.mapPath_id, List.map_id]
    exact follows_commitStep sha256 hroots events instruction

/-- The state with the memory root and the transcripts of an earlier state. -/
def AuthenticatedState.anchored (state : AuthenticatedState) (anchor : AuthenticationRoots) :
    AuthenticatedState :=
  { state with roots := state.roots.anchored anchor }

/-- A step and its effects, as a label of runs. -/
abbrev StepLabel := List (BusWitness MerklePath) × StepEffects MerklePath

/-- An accepted step of the reference relation. -/
def StepRelation.Accepts (before : AuthenticatedState) (label : StepLabel)
    (after : AuthenticatedState) : Prop :=
  StepRelation.apply sha256 before label.1 = .ok (after, label.2)

/-- An accepted step of the lookup relation. -/
def LookupStepRelation.Accepts (before : AuthenticatedState) (label : StepLabel)
    (after : AuthenticatedState) : Prop :=
  LookupStepRelation.apply sha256 before label.1 = .ok (after, label.2)

theorem StepEffects.mapPath_id {π : Type} (effects : StepEffects π) :
    effects.mapPath id = effects := by
  rw [StepEffects.mapPath, BusEvent.mapPath_id, List.map_id]

variable {sha256}

theorem applyAuthenticated_eq_ok {authentication : BusAuthentication MerklePath AuthenticationRoots}
    {before after : AuthenticatedState} {input : List (BusWitness MerklePath)}
    {effects : StepEffects MerklePath} :
    applyAuthenticated authentication before input = .ok (after, effects) ↔
      Step.apply authentication before.vm before.roots input =
        .ok ((after.vm, after.roots), effects) := by
  unfold applyAuthenticated
  cases Step.apply authentication before.vm before.roots input with
  | error error => simp [bind, Except.bind]
  | ok result =>
    obtain ⟨⟨vm, roots⟩, found⟩ := result
    obtain ⟨afterVm, afterRoots⟩ := after
    simp [bind, Except.bind, pure, Except.pure]

/-- A step that the reference relation accepts, the lookup relation accepts from a state that
differs in the memory root and the transcripts. -/
theorem accepts_anchored {before after : AuthenticatedState} {label : StepLabel}
    (anchor : AuthenticationRoots) (haccepts : StepRelation.Accepts sha256 before label after) :
    LookupStepRelation.Accepts sha256 (before.anchored anchor) label (after.anchored anchor) := by
  obtain ⟨input, effects⟩ := label
  have happly := applyAuthenticated_eq_ok.mp haccepts
  have hroots : (merkleToLookup sha256 anchor).roots before.roots (before.roots.anchored anchor) :=
    rfl
  have hfollows := (merkleToLookup sha256 anchor).follows_apply before.vm hroots input
  rw [happly] at hfollows
  obtain ⟨⟨⟨vm, roots⟩, found⟩, hlookup, hvm, hafter, heffects⟩ := hfollows.of_ok
  have hpath : (merkleToLookup sha256 anchor).path = id := rfl
  rw [hpath, BusWitness.mapPath_id, List.map_id] at hlookup
  rw [hpath, StepEffects.mapPath_id] at heffects
  refine applyAuthenticated_eq_ok.mpr ?_
  show Step.apply _ before.vm (before.roots.anchored anchor) input = _
  rw [hlookup]
  dsimp only at hvm hafter heffects
  rw [hvm, hafter, heffects]
  rfl

/-- Every run of the reference relation is one of the lookup relation. -/
theorem runs_anchored {before after : AuthenticatedState} {labels : List StepLabel}
    (anchor : AuthenticationRoots)
    (hrun : Runs (StepRelation.Accepts sha256) before labels after) :
    Runs (LookupStepRelation.Accepts sha256) (before.anchored anchor) labels
      (after.anchored anchor) := by
  induction hrun with
  | nil => exact .nil _
  | cons hstep _ ih => exact .cons (accepts_anchored anchor hstep) ih

variable (sha256)

/-- The reference relation refines to the lookup relation: what it accepts, the lookup relation
accepts from the same state with the same kind, branch decision and events, and reaches the same
state but for the memory root and the transcripts, which it leaves as they were. So does every run
of the one the other. -/
theorem lookup_refines_merkle :
    (∀ (state after : AuthenticatedState) (input : List (BusWitness MerklePath))
        (effects : StepEffects MerklePath),
      StepRelation.apply sha256 state input = .ok (after, effects) →
      LookupStepRelation.apply sha256 state input = .ok (after.anchored state.roots, effects)) ∧
    ∀ (state after : AuthenticatedState) (labels : List StepLabel),
      Runs (StepRelation.Accepts sha256) state labels after →
      Runs (LookupStepRelation.Accepts sha256) state labels (after.anchored state.roots) := by
  refine ⟨fun state after input effects happly => ?_, fun state after labels hrun => ?_⟩
  · exact @accepts_anchored sha256 state after (input, effects) state.roots happly
  · exact runs_anchored state.roots hrun

end Merkle

/-- A halted machine with a pending interrupt that the master enable does not admit. -/
def asleep : AuthenticatedState where
  vm := { VmState.dmgPostBootMbc3Initial .dmgPostBootMbc3V1 with
    cpu := { CpuState.dmgPostBootInitial with runState := .halted }
    dmgDevices := { DmgDeviceState.dmgPostBoot with interruptRequest := 1, interruptEnable := 1 } }
  roots := ⟨.zero, .zero, .zero, .zero, ⟨0, .zero⟩, ⟨0, .zero⟩⟩

theorem lookup_refines_merkle_asleep : ∃ after effects,
    StepRelation.apply sha256 asleep [] = .ok (after, effects) ∧
      LookupStepRelation.apply sha256 asleep [] = .ok (after.anchored asleep.roots, effects) := by
  have hok : (StepRelation.apply sha256 asleep []).isOk = true := by decide +kernel
  cases happly : StepRelation.apply sha256 asleep [] with
  | error error =>
    rw [happly] at hok
    cases hok
  | ok result =>
    obtain ⟨after, effects⟩ := result
    exact ⟨after, effects, rfl, (lookup_refines_merkle sha256).1 asleep after [] effects happly⟩

end Zksm83
