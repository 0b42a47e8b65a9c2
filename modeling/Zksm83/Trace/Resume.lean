import Zksm83.Trace.LogRuns
import Zksm83.Trace.Run

/-!
# Builders at a checkpoint

The input log of every builder commits to the part of its private input that its steps consumed. So
a builder may be taken up again at every boundary, and goes on as if it had never stopped. Read
`logs_recorded` first.
-/

namespace Zksm83

open Rejecting

namespace Planner

variable {ε : Type} {planner : Planner ε}

/-- The input byte of a planned access. -/
def inputValue : PlannedWitness → Option Byte
  | .inputByte value => some value
  | .rom _ _ | .memoryRead _ _ | .memoryWrite _ _ _ => none

theorem length_inputValues (plan : List PlannedWitness) :
    (plan.filterMap inputValue).length = plan.countP PlannedWitness.isInput := by
  have hinput : (fun planned => (inputValue planned).isSome) = PlannedWitness.isInput := by
    funext planned
    cases planned <;> rfl
  rw [List.length_filterMap_eq_countP, hinput]

/-- A planned input byte is the next byte of the private input. -/
theorem plan_eq_ok {request : WitnessRequest} {existing : List PlannedWitness}
    {planned : PlannedWitness} (h : planner.plan request existing = .ok planned) :
    inputValue planned = none ∨
      ∃ value, inputValue planned = some value ∧
        planner.privateInput[planner.inputNext + existing.countP PlannedWitness.isInput]? =
          some value := by
  cases request with
  | rom | memoryRead | memoryWrite =>
    cases h
    exact .inl rfl
  | inputByte =>
    unfold plan at h
    dsimp only at h
    split at h
    · cases h
    · split at h
      · cases h
        exact .inr ⟨_, rfl, by assumption⟩
      · cases h

/-- The input bytes of a plan are the next bytes of the private input. -/
theorem inputValues_of_asked {plan : List PlannedWitness} (hasked : planner.Asked plan) :
    plan.filterMap inputValue <+: planner.privateInput.drop planner.inputNext := by
  induction hasked with
  | nil => exact List.nil_prefix
  | @concat existing input request planned _ _ _ hplanned ih =>
    rw [List.filterMap_append]
    rcases plan_eq_ok hplanned with hnone | ⟨value, hvalue, hindex⟩
    · rw [List.filterMap_cons_none hnone, List.filterMap_nil, List.append_nil]
      exact ih
    · rw [List.filterMap_cons_some hvalue, List.filterMap_nil]
      obtain ⟨rest, hrest⟩ := ih
      rw [← length_inputValues, ← List.getElem?_drop, ← hrest,
        List.getElem?_append_right le_rfl, Nat.sub_self] at hindex
      cases rest with
      | nil => cases hindex
      | cons first rest =>
        cases hindex
        refine ⟨rest, ?_⟩
        rw [List.append_assoc]
        exact hrest

/-- The planner over another private input. -/
def withInput (planner : Planner ε) (privateInput : List Byte) : Planner ε :=
  { planner with privateInput := privateInput }

/-- A plan loop reads the private input from the next byte on only. -/
theorem planLoop_withInput {privateInput : List Byte}
    (hinput : privateInput.drop planner.inputNext = planner.privateInput.drop planner.inputNext)
    (remaining : ℕ) (existing : List PlannedWitness) :
    (planner.withInput privateInput).planLoop remaining existing =
      planner.planLoop remaining existing := by
  have hplan : ∀ request existing,
      (planner.withInput privateInput).plan request existing = planner.plan request existing := by
    intro request existing
    cases request with
    | rom | memoryRead | memoryWrite => rfl
    | inputByte =>
      unfold plan
      simp only [withInput, ← List.getElem?_drop, hinput]
  induction remaining generalizing existing with
  | zero =>
    unfold planLoop
    rfl
  | succ remaining ih =>
    unfold planLoop
    simp only [hplan, ih]
    rfl

end Planner

namespace TraceBuilder

variable {sha256 : List Byte → CommitmentRoot} {builder next : TraceBuilder} {row : TraceRow}
  {existing : List PlannedWitness} {input : List (BusWitness MerklePath)}

theorem accesses_of_materialize (hexact : builder.memory.Exact sha256)
    (h : builder.materialize sha256 existing = .ok input) :
    ∃ image, Accesses sha256 builder.rom builder.memory existing input image := by
  rw [materialize_eq hexact] at h
  cases hfrom : materializeFrom sha256 builder (some builder.memory) existing with
  | error error =>
    rw [hfrom] at h
    cases h
  | ok ended =>
    obtain ⟨found, fork⟩ := ended
    rw [hfrom] at h
    cases h
    obtain ⟨image, -, haccesses⟩ := accesses_of_materializeFrom hfrom
    exact ⟨image, haccesses⟩

/-- The witnesses give the planned input bytes. -/
theorem inputValues_of_accesses {image image' : MemoryImage}
    (haccesses : Accesses sha256 builder.rom image existing input image') :
    input.filterMap BusWitness.inputValue = existing.filterMap Planner.inputValue := by
  induction haccesses with
  | nil => rfl
  | cons hfirst _ ih =>
    cases hfirst with
    | rom | memoryRead | memoryWrite => exact ih
    | inputByte value => exact congrArg (value :: ·) ih

/-- The input log commits to the part of the private input that was consumed. -/
structure InputCommitted (sha256 : List Byte → CommitmentRoot) (builder : TraceBuilder) : Prop where
  le : builder.state.vm.inputNext ≤ builder.privateInput.length
  commit : LogAccumulator.commit sha256 .input
    (builder.privateInput.take builder.state.vm.inputNext) = .ok builder.state.inputLog

theorem Stepped.recorded (hstepped : Stepped sha256 builder row next existing input) :
    LogsRecorded sha256 builder.state next.state row.effects.busEvents := by
  rw [hstepped.state]
  exact .of_apply ((LoggedStep.logged_eq_apply _ _).trans hstepped.applied)

/-- A step consumes the next bytes of the private input. -/
theorem InputCommitted.step (hconsistent : builder.Consistent sha256)
    (hcommitted : InputCommitted sha256 builder)
    (hstepped : Stepped sha256 builder row next existing input) : InputCommitted sha256 next := by
  have hrecorded := hstepped.recorded
  obtain ⟨image, haccesses⟩ := accesses_of_materialize hconsistent.memory hstepped.materialized
  obtain ⟨rest, hrest⟩ := Planner.inputValues_of_asked hstepped.asked
  have hbytes : (row.effects.busEvents.filterMap BusEvent.inputEntry).map Prod.snd =
      existing.filterMap Planner.inputValue := by
    rw [hrecorded.takes, hstepped.used, inputValues_of_accesses haccesses]
  have hdrop : builder.privateInput.drop builder.state.vm.inputNext =
      (row.effects.busEvents.filterMap BusEvent.inputEntry).map Prod.snd ++ rest := by
    rw [hbytes]
    exact hrest.symm
  have hcount : next.state.vm.inputNext = builder.state.vm.inputNext +
      ((row.effects.busEvents.filterMap BusEvent.inputEntry).map Prod.snd).length := by
    rw [List.length_map]
    exact hrecorded.input.counts.1
  refine ⟨?_, ?_⟩
  · rw [hstepped.privateInput, hcount]
    have hlength := congrArg List.length hdrop
    rw [List.length_drop, List.length_append] at hlength
    have := hcommitted.le
    omega
  · rw [hstepped.privateInput, hcount, List.take_add, hdrop, List.take_left]
    exact hrecorded.input.commit hcommitted.commit

theorem Reachable.inputCommitted (hreachable : Reachable sha256 builder) :
    InputCommitted sha256 builder := by
  induction hreachable with
  | new hrom hmemory => exact ⟨Nat.zero_le _, rfl⟩
  | newDmgPostBootMbc3 hrom hmemory => exact ⟨Nat.zero_le _, rfl⟩
  | @newDmgPostBootMbc3Profile _ _ _ _ profile _ hrom hmemory hbuilder =>
    unfold TraceBuilder.newDmgPostBootMbc3Profile
      AuthenticatedState.dmgPostBootMbc3ProfileInitial at hbuilder
    by_cases hprofile : profile.isDmgPostBootMbc3 = true
    · rw [if_pos hprofile] at hbuilder
      cases hbuilder
      exact ⟨Nat.zero_le _, rfl⟩
    · rw [if_neg hprofile] at hbuilder
      cases hbuilder
  | resume hrom hmemory hbuilder =>
    obtain ⟨-, -, -, hle, hcommit, rfl⟩ := resume_eq_ok.mp hbuilder
    exact ⟨hle, hcommit⟩
  | step hbuilder ih =>
    rcases step_cases hbuilder.consistent with
      ⟨error, hrun, _⟩ | ⟨row, next, existing, input, hrun, hstepped, _⟩
    · rw [hrun]
      exact ih
    · rw [hrun]
      exact ih.step hbuilder.consistent hstepped

/-- The builder over another private input. -/
def withInput (builder : TraceBuilder) (privateInput : List Byte) : TraceBuilder :=
  { builder with privateInput := privateInput }

theorem Consistent.withInput (hconsistent : builder.Consistent sha256) (privateInput : List Byte) :
    (builder.withInput privateInput).Consistent sha256 :=
  ⟨hconsistent.rom, hconsistent.romRoot, hconsistent.memory, hconsistent.memoryRoot⟩

theorem materializeFrom_withInput (privateInput : List Byte) (fork : Option MemoryImage)
    (plan : List PlannedWitness) :
    materializeFrom sha256 (builder.withInput privateInput) fork plan =
      materializeFrom sha256 builder fork plan := by
  have hone : ∀ fork planned, materializeOne sha256 (builder.withInput privateInput) fork planned =
      materializeOne sha256 builder fork planned := by
    intro fork planned
    cases planned <;> rfl
  induction plan generalizing fork with
  | nil => rfl
  | cons planned plan ih =>
    rw [materializeFrom, materializeFrom, hone]
    simp only [ih]

theorem planner_withInput (privateInput : List Byte) :
    (builder.withInput privateInput).planner sha256 =
      (builder.planner sha256).withInput privateInput := by
  have hmaterialize : (builder.withInput privateInput).materialize sha256 =
      builder.materialize sha256 := by
    funext plan
    unfold materialize
    simp only [materializeFrom_withInput]
    rfl
  unfold planner Planner.withInput
  rw [hmaterialize]
  rfl

/-- A step depends on the bytes of the private input that were not consumed yet only. -/
theorem step_withInput (hconsistent : builder.Consistent sha256) {privateInput : List Byte}
    (hinput : privateInput.drop builder.state.vm.inputNext =
      builder.privateInput.drop builder.state.vm.inputNext) :
    outcome (TraceBuilder.step sha256) (builder.withInput privateInput) =
      ((outcome (TraceBuilder.step sha256) builder).1,
        (outcome (TraceBuilder.step sha256) builder).2.withInput privateInput) := by
  have hloop : ((builder.withInput privateInput).planner sha256).planLoop maxWitnessesPerStep [] =
      (builder.planner sha256).planLoop maxWitnessesPerStep [] := by
    rw [planner_withInput]
    exact Planner.planLoop_withInput hinput _ _
  cases hended : (builder.planner sha256).planLoop maxWitnessesPerStep [] with
  | error error =>
    rw [outcome_step, outcome_step, hloop, hended]
  | ok result =>
    obtain ⟨next, _, _, hrun, hstepped, hnext⟩ := step_of_planLoop hconsistent hended
    obtain ⟨next', _, _, hrun', hstepped', hnext'⟩ :=
      step_of_planLoop (hconsistent.withInput privateInput) (hloop.trans hended)
    have hbytes : next'.memory.checkpointBytes = next.memory.checkpointBytes := by
      rw [hstepped'.memory, hstepped.memory]
      rfl
    have hmemory : next'.memory = next.memory := by
      rw [hnext'.memory.tree, hbytes, ← hnext.memory.tree]
    have hequal : next' = next.withInput privateInput := by
      obtain ⟨rom, memory, privateInput', state⟩ := next'
      rw [TraceBuilder.mk.injEq]
      exact ⟨hstepped'.rom.trans hstepped.rom.symm, hmemory, hstepped'.privateInput,
        hstepped'.state.trans hstepped.state.symm⟩
    rw [hrun, hrun', hequal]
    rfl

variable (sha256) in
/-- The builder after some calls of `step`, whether they succeed or not. -/
def afterSteps : ℕ → TraceBuilder → TraceBuilder
  | 0, builder => builder
  | count + 1, builder => afterSteps count (outcome (TraceBuilder.step sha256) builder).2

/-- A step never goes back in the private input. -/
theorem inputNext_step (hconsistent : builder.Consistent sha256) :
    ∃ count, (outcome (TraceBuilder.step sha256) builder).2.state.vm.inputNext =
        builder.state.vm.inputNext + count ∧
      (outcome (TraceBuilder.step sha256) builder).2.privateInput = builder.privateInput := by
  rcases step_cases hconsistent with ⟨error, hrun, _⟩ | ⟨row, next, existing, input, hrun, hstepped, _⟩
  · rw [hrun]
    exact ⟨0, rfl, rfl⟩
  · rw [hrun]
    exact ⟨_, hstepped.recorded.input.counts.1, hstepped.privateInput⟩

/-- Builders that differ in consumed input only go on alike. -/
theorem afterSteps_withInput (hreachable : Reachable sha256 builder) {privateInput : List Byte}
    (hinput : privateInput.drop builder.state.vm.inputNext =
      builder.privateInput.drop builder.state.vm.inputNext) (count : ℕ) :
    afterSteps sha256 count (builder.withInput privateInput) =
      (afterSteps sha256 count builder).withInput privateInput := by
  induction count generalizing builder with
  | zero => rfl
  | succ count ih =>
    rw [afterSteps, afterSteps, step_withInput hreachable.consistent hinput]
    obtain ⟨more, hnext, hsame⟩ := inputNext_step hreachable.consistent
    refine ih (.step hreachable) ?_
    rw [hnext, hsame, ← List.drop_drop, ← List.drop_drop, hinput]

/-- A builder is where its input log says, and may be taken up again there: over the memory of its
checkpoint and the same private input it is itself; over a private input with the same bytes left it
goes through the same states, however many steps it takes. -/
structure Resumes (sha256 : List Byte → CommitmentRoot) (builder : TraceBuilder) : Prop where
  committed : InputCommitted sha256 builder
  same : builder.privateInput.length < 2 ^ 64 → ∃ memory,
    MemoryImage.fromCheckpointBytes sha256 builder.memory.checkpointBytes = .ok memory ∧
      resume sha256 builder.rom memory builder.privateInput builder.state = .ok builder
  follows : ∀ memory privateInput resumed,
    MemoryImage.fromCheckpointBytes sha256 builder.memory.checkpointBytes = .ok memory →
      resume sha256 builder.rom memory privateInput builder.state = .ok resumed →
      privateInput.drop builder.state.vm.inputNext =
        builder.privateInput.drop builder.state.vm.inputNext →
      ∀ count, (afterSteps sha256 count resumed).state = (afterSteps sha256 count builder).state

theorem Reachable.resumes (hreachable : Reachable sha256 builder) : Resumes sha256 builder := by
  have hconsistent := hreachable.consistent
  have hcommitted := hreachable.inputCommitted
  have hmemory : MemoryImage.fromCheckpointBytes sha256 builder.memory.checkpointBytes =
      .ok builder.memory := by
    rw [MemoryImage.fromCheckpointBytes_eq sha256 hconsistent.memory.length,
      ← hconsistent.memory.tree]
  refine ⟨hcommitted, fun hlength => ⟨builder.memory, hmemory, ?_⟩, ?_⟩
  · exact resume_eq_ok.mpr ⟨hconsistent.romRoot, hconsistent.memoryRoot, hlength, hcommitted.le,
      hcommitted.commit, rfl⟩
  · intro memory privateInput resumed himage hresume hinput count
    obtain rfl := Except.ok.inj (hmemory.symm.trans himage)
    obtain ⟨-, -, -, -, -, rfl⟩ := resume_eq_ok.mp hresume
    have hsteps := afterSteps_withInput hreachable hinput count
    exact (congrArg TraceBuilder.state hsteps :)

end TraceBuilder

section Records

variable (sha256 : List Byte → CommitmentRoot)

/-- A step whose accesses extend the logs is a step of the reference relation. Along a run of them
the logs are those of the start, extended by the bytes that the events consumed and produced under
consecutive indices, so committed logs stay commitments; and the bus transcript is extended over all
the events. Every builder that the constructors and any steps lead to resumes. -/
theorem logs_recorded :
    (∀ state input, LoggedStep.apply sha256 state input = StepRelation.apply sha256 state input) ∧
    (∀ before labels after, Runs (LoggedStep.Accepts sha256) before labels after →
      LogsRecorded sha256 before after (busEventsOf labels) ∧
      (∀ bytes, LogAccumulator.commit sha256 .input bytes = .ok before.inputLog →
        LogAccumulator.commit sha256 .input (bytes ++ inputBytesOf (busEventsOf labels)) =
          .ok after.inputLog) ∧
      ∀ bytes, LogAccumulator.commit sha256 .output bytes = .ok before.outputLog →
        LogAccumulator.commit sha256 .output (bytes ++ outputBytesOf (busEventsOf labels)) =
          .ok after.outputLog) ∧
    ∀ builder, TraceBuilder.Reachable sha256 builder → TraceBuilder.Resumes sha256 builder := by
  refine ⟨LoggedStep.logged_eq_apply, fun before labels after hrun => ?_,
    fun builder hreachable => hreachable.resumes⟩
  have hrecorded := LogsRecorded.of_runs hrun
  exact ⟨hrecorded, fun bytes => hrecorded.input.commit, fun bytes => hrecorded.output.commit⟩

theorem logs_recorded_pendingHalt :
    (∃ label after, Runs (LoggedStep.Accepts sha256) (TraceBuilder.pendingHaltState sha256) [label]
        after ∧
      LogsRecorded sha256 (TraceBuilder.pendingHaltState sha256) after label.2.busEvents ∧
      LogAccumulator.commit sha256 .input (inputBytesOf label.2.busEvents) = .ok after.inputLog) ∧
    TraceBuilder.Resumes sha256 (TraceBuilder.pendingHalt sha256) := by
  obtain ⟨hlogged, hruns, hbuilders⟩ := logs_recorded sha256
  obtain ⟨path, -, hverify⟩ := @TraceBuilder.pendingHalt_reads sha256
  obtain ⟨after, happly, -⟩ := TraceBuilder.pendingHalt_applies hverify rfl rfl
  have hrun : Runs (LoggedStep.Accepts sha256) (TraceBuilder.pendingHaltState sha256)
      [([.rom ⟨0, 0, 0x76, path⟩], TraceBuilder.pendingHaltEffects path)] after :=
    .single ((hlogged _ _).trans happly)
  obtain ⟨hrecorded, hinput, -⟩ := hruns _ _ _ hrun
  refine ⟨⟨_, after, hrun, ?_, ?_⟩, hbuilders _ TraceBuilder.pendingHalt_reachable⟩
  · rw [busEventsOf, List.flatMap_singleton] at hrecorded
    exact hrecorded
  · have hcommit := hinput [] rfl
    rw [busEventsOf, List.flatMap_singleton] at hcommit
    exact hcommit

end Records

end Zksm83
