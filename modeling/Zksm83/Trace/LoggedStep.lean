import Zksm83.Trace.LogEntries

/-!
# Steps whose accesses extend the logs

Every action of a step enters the bytes of its accesses into the logs, so such a step is the step of
the reference relation, which extends the roots of the logs over the listed events at its end.
-/

namespace Zksm83

open Rejecting BusState

namespace LoggedStep

open Step LoggedBus

variable {sha256 : List Byte → CommitmentRoot}

/-- The accesses of an action enter their bytes into the logs. -/
abbrev LogsBytes {α : Type} (action : LoggedAction α) : Prop :=
  Keeps (fun before after => Logged sha256 before.bus after.bus) action

theorem logs_bind {α β : Type} {action : LoggedAction α} {continuation : α → LoggedAction β}
    (hfirst : @LogsBytes sha256 _ action) (hrest : ∀ value, @LogsBytes sha256 _ (continuation value)) :
    @LogsBytes sha256 _ (action >>= continuation) :=
  Keeps.bind (fun h h' => h.trans h') hfirst hrest

theorem logs_pure {α : Type} (value : α) : @LogsBytes sha256 _ (pure value : LoggedAction α) :=
  .pure (fun _ => .refl _) value

theorem logs_modifyCpu (change : CpuState → CpuState) :
    @LogsBytes sha256 _ (Exec.modifyCpu change : LoggedAction Unit) := by
  intro before value after hrun
  obtain rfl := (Exec.accepts_modifyCpu _ _).mp hrun
  exact .refl _

theorem logged_advanced (executor : Executor MerkleBus) (increment : ℕ) (dmaActive : Bool) :
    Logged sha256 executor.bus (advanced executor increment dmaActive).bus := .of_same rfl rfl rfl rfl

theorem logs_addMachineTiming (increment : ℕ) :
    @LogsBytes sha256 _ (addMachineTiming increment : LoggedAction Unit) := by
  intro before value after hrun
  obtain ⟨-, rfl⟩ := (accepts_addMachineTiming _ _).mp hrun
  exact logged_advanced _ _ _

theorem logs_pushInterruptReturn (value : ℕ) :
    @LogsBytes sha256 _ (pushInterruptReturn sha256 value) := by
  intro before result after hrun
  have hpush : Accepts (Exec.pushWord (bus sha256) value) before result after := hrun
  exact logged_runs (Exec.performs_pushWord hpush)

theorem logs_eventAction (event : DmgMachineEvent) :
    @LogsBytes sha256 _ (eventAction sha256 event) := by
  cases event with
  | interrupt interrupt =>
    refine logs_bind (logs_modifyCpu _) fun _ => logs_bind ?_ fun _ => logs_bind ?_ fun cpu => ?_
    · intro before value after hrun
      obtain rfl := (accepts_modifyDevices _ _).mp hrun
      exact .of_same rfl rfl rfl rfl
    · intro before value after hrun
      obtain ⟨-, rfl⟩ := (Exec.accepts_cpu _).mp hrun
      exact .refl _
    · refine logs_bind (logs_pushInterruptReturn _) fun _ => logs_bind ?_ fun _ => ?_
      · intro before value after hrun
        obtain rfl := (Exec.accepts_setPc _ _).mp hrun
        exact .refl _
      · exact logs_addMachineTiming 5
  | haltWake =>
    intro before value after hrun
    obtain rfl := (accepts_haltWake _).mp hrun
    exact .refl _
  | haltUntilVblank increment | haltUntilSerial increment | haltUntilTimer increment =>
    intro before value after hrun
    obtain ⟨-, rfl⟩ := (accepts_haltUntil _ _).mp hrun
    exact .of_same rfl rfl rfl rfl
  | haltIdle =>
    intro before value after hrun
    obtain ⟨-, rfl⟩ := (accepts_haltIdle _).mp hrun
    exact logged_advanced _ _ _

theorem logs_instructionStep (state : VmState) :
    @LogsBytes sha256 _ (instructionStep sha256 state) := by
  refine logs_bind ?_ fun executed => logs_bind ?_ fun _ => logs_bind ?_ fun _ => ?_
  · intro before value after hrun
    obtain ⟨immediates, middle, -, -, hfetched, hexecuted⟩ :=
      Exec.performs_fetchAndExecute fetchesBytes_bus hrun
    exact logged_runs (hfetched.append hexecuted)
  · intro before value after hrun
    obtain rfl := (accepts_applyDelayedIme _ _ _).mp hrun
    exact .refl _
  · intro before value after hrun
    obtain ⟨-, rfl⟩ := (accepts_advance _ _ _).mp hrun
    exact logged_advanced _ _ _
  · split
    · exact logs_bind (logs_modifyCpu _) fun _ => logs_pure _
    · exact logs_pure _

theorem logs_instructionAction (state : VmState) :
    @LogsBytes sha256 _ (instructionAction sha256 state) := by
  unfold instructionAction
  split
  · exact logs_bind (logs_instructionStep state) fun executed => logs_pure _
  · exact .throw _

theorem logs_marked {kind : StepKind} {marker : ℕ} {action : LoggedAction Unit}
    (haction : @LogsBytes sha256 _ action) : @LogsBytes sha256 _ (marked kind marker action) := by
  refine logs_bind haction fun _ => ?_
  cases decodePrimary marker with
  | none => exact .throw _
  | some instruction => exact logs_pure _

/-- Whatever step a state takes, its accesses enter their bytes into the logs. -/
theorem logs_chosen (state : VmState) : @LogsBytes sha256 _ (chosen sha256 state) := by
  unfold chosen
  split
  · split
    · refine logs_marked ?_
      intro before value after hrun
      obtain ⟨bus, hcopy, rfl⟩ := (Exec.accepts_onBus _ _).mp hrun
      exact logged_copyDmaByte hcopy
    · split
      · exact .throw _
      · exact logs_marked (logs_eventAction _)
      · exact logs_instructionAction state
  · exact logs_instructionAction state

/-- Only the byte of a value reaches a log. -/
theorem appendLog_byte (domain : HashDomain) (root : CommitmentRoot) (index value : ℕ) :
    appendLog sha256 domain root index (Fin.ofNat 256 value : Byte) =
      appendLog sha256 domain root index value := by
  have hbyte : leBytes 1 (Fin.ofNat 256 value : Byte) = leBytes 1 value := by
    simp [leBytes, Fin.ofNat]
  rw [appendLog, appendLog, hbyte]

/-- Extending the roots of the logs over the events changes nothing else. -/
theorem appendLogs_eq (roots : AuthenticationRoots) (events : List (BusEvent MerklePath)) :
    roots.appendLogs sha256 events = { roots with
      inputRoot := (events.filterMap BusEvent.inputEntry).foldl (fun root entry =>
        appendLog sha256 .inputElement root entry.1 entry.2) roots.inputRoot
      outputRoot := (events.filterMap BusEvent.outputEntry).foldl (fun root entry =>
        appendLog sha256 .outputElement root entry.1 entry.2) roots.outputRoot } := by
  unfold AuthenticationRoots.appendLogs
  induction events generalizing roots with
  | nil => rfl
  | cons event events ih =>
    rw [List.foldl_cons, ih]
    cases event with
    | inputRead index value =>
      rw [AuthenticationRoots.appendEvent, ← appendLog_byte _ _ _ value]
      rfl
    | dmgJoypadRead index beforeButtons buttons value =>
      rw [AuthenticationRoots.appendEvent, ← appendLog_byte _ _ _ buttons]
      rfl
    | outputWrite index value =>
      rw [AuthenticationRoots.appendEvent, ← appendLog_byte _ _ _ value]
      rfl
    | _ => rfl

/-- The roots of a step whose accesses extended the logs. -/
theorem roots_of_logged {executor executor' : Executor MerkleBus} {start : AuthenticationRoots}
    {vm : VmState} {input : List (BusWitness MerklePath)}
    (hroots : LogsAhead start executor.bus.roots executor'.bus.roots)
    (hevents : executor'.bus.events = executor.bus.events)
    (hlogged : Logged sha256 (Step.start vm start input).bus executor'.bus) :
    executor'.bus.roots = executor.bus.roots.appendLogs sha256 executor.bus.events := by
  obtain ⟨hinput, houtput, hroots⟩ := hroots
  obtain ⟨-, events, happended, -, hin, hout⟩ := hlogged
  rw [hevents] at happended
  obtain rfl : executor.bus.events = events := happended
  have hinputRoot : executor'.bus.roots.inputRoot = _ := hin.root_eq
  have houtputRoot : executor'.bus.roots.outputRoot = _ := hout.root_eq
  rw [appendLogs_eq, hinput, houtput, hroots]
  rw [hinputRoot, houtputRoot]
  rfl

/-- The reference relation whose accesses extend the logs is the reference relation. -/
theorem logged_eq_apply (state : AuthenticatedState) (input : List (BusWitness MerklePath)) :
    apply sha256 state input = StepRelation.apply sha256 state input := by
  have hstart : (logsAhead sha256 state.roots).MirroredExecutor
      (start state.vm state.roots input) (start state.vm state.roots input) := by
    refine ⟨rfl, rfl, ⟨rfl, rfl, rfl⟩, ?_, rfl⟩
    rw [show (logsAhead sha256 state.roots).path = id from rfl, BusWitness.mapPath_id, List.map_id]
  have hplain : Step.chosen (.merkle sha256) state.vm = Step.chosen (.merkleOpen sha256) state.vm :=
    rfl
  unfold apply StepRelation.apply applyAuthenticated
  rw [Step.apply_eq, hplain]
  have hfollows := chosen_follows state.vm hstart
  have hlogs := @logs_chosen sha256 state.vm (start state.vm state.roots input)
  cases hended : settled (outcome (Step.chosen (.merkleOpen sha256) state.vm)
    (start state.vm state.roots input)) with
  | error error =>
    rw [hended] at hfollows
    rw [hfollows.of_error id]
    rfl
  | ok ended =>
    rw [hended] at hfollows
    obtain ⟨⟨_, executor'⟩, hlogged, hvalues, hexecutors⟩ := hfollows.of_ok
    obtain ⟨taken, executor⟩ := ended
    dsimp only at hvalues hexecutors
    subst hvalues
    have hbus := hlogs (settled_eq_ok.mp hlogged)
    obtain ⟨hcpu, hview, hroots, hwitnesses, hevents⟩ := hexecutors
    rw [show (logsAhead sha256 state.roots).path = id from rfl] at hwitnesses hevents
    rw [BusWitness.mapPath_id, List.map_id] at hwitnesses
    rw [BusEvent.mapPath_id, List.map_id] at hevents
    have hahead := roots_of_logged hroots hevents hbus
    have hconcluded : @concluded _ _ (.merkleLogged sha256) (taken, executor') =
        @concluded _ _ (.merkle sha256) (taken, executor) := by
      have hreached : reached executor' = reached executor := by
        rw [AuthenticationMap.reached_eq, AuthenticationMap.reached_eq, hcpu, hview]
      unfold concluded finish
      dsimp only
      rw [hwitnesses, hevents, hahead, hreached]
      rfl
    rw [hlogged]
    show (@concluded _ _ (.merkleLogged sha256) (taken, executor') >>= _) = _
    rw [hconcluded]
    rfl

end LoggedStep

end Zksm83
