import Zksm83.Trace.LoggedStep

/-!
# The logs of a run

Along a run of steps whose accesses extend the logs, the logs and the bus transcript are those of
the start extended over the events of the run, in order. Read `LogsRecorded.of_runs` first.
-/

namespace Zksm83

open Rejecting

/-- The output log of a state. -/
def AuthenticatedState.outputLog (state : AuthenticatedState) : LogAccumulator :=
  ⟨.output, state.vm.outputNext, state.roots.outputRoot⟩

/-- The events between two states are what the logs and the bus transcript gained. -/
structure LogsRecorded (sha256 : List Byte → CommitmentRoot) (before after : AuthenticatedState)
    (events : List (BusEvent MerklePath)) : Prop where
  takes : TakesInput events
  input : before.inputLog.Extends sha256 after.inputLog (events.filterMap BusEvent.inputEntry)
  output : before.outputLog.Extends sha256 after.outputLog (events.filterMap BusEvent.outputEntry)
  transcript : events.foldlM (fun (reached : BusTranscriptAccumulator) event =>
      reached.append sha256 event.transcriptEvent) before.roots.busTranscript =
    .ok after.roots.busTranscript

/-- An accepted step of the relation whose accesses extend the logs. -/
def LoggedStep.Accepts (sha256 : List Byte → CommitmentRoot) (before : AuthenticatedState)
    (label : StepLabel) (after : AuthenticatedState) : Prop :=
  LoggedStep.apply sha256 before label.1 = .ok (after, label.2)

/-- The input bytes that some events consumed. -/
def inputBytesOf (events : List (BusEvent MerklePath)) : List Byte :=
  (events.filterMap BusEvent.inputEntry).map Prod.snd

/-- The output bytes that some events produced. -/
def outputBytesOf (events : List (BusEvent MerklePath)) : List Byte :=
  (events.filterMap BusEvent.outputEntry).map Prod.snd

/-- The events of a run. -/
def busEventsOf (labels : List StepLabel) : List (BusEvent MerklePath) :=
  labels.flatMap fun label => label.2.busEvents

section Runs

variable {sha256 : List Byte → CommitmentRoot}

/-- A committed log, extended, is the commitment of the bytes and those entered after them. -/
theorem LogAccumulator.Extends.commit {kind : LogKind} {before after : LogAccumulator}
    {entries : List (ℕ × Byte)} {bytes : List Byte} (h : before.Extends sha256 after entries)
    (hcommit : LogAccumulator.commit sha256 kind bytes = .ok before) :
    LogAccumulator.commit sha256 kind (bytes ++ entries.map Prod.snd) = .ok after := by
  unfold LogAccumulator.commit at hcommit ⊢
  rw [List.foldlM_append, hcommit]
  exact h.log

namespace LogsRecorded

variable {before middle after : AuthenticatedState} {events more : List (BusEvent MerklePath)}

theorem nil (state : AuthenticatedState) : LogsRecorded sha256 state state [] :=
  ⟨.nil, .nil _, .nil _, rfl⟩

theorem append (hfirst : LogsRecorded sha256 before middle events)
    (hrest : LogsRecorded sha256 middle after more) :
    LogsRecorded sha256 before after (events ++ more) where
  takes := hfirst.takes.append hrest.takes
  input := by
    rw [List.filterMap_append]
    exact hfirst.input.append hrest.input
  output := by
    rw [List.filterMap_append]
    exact hfirst.output.append hrest.output
  transcript := by
    rw [List.foldlM_append, hfirst.transcript]
    exact hrest.transcript

/-- What one step enters into the logs and the transcript. -/
theorem of_apply {input : List (BusWitness MerklePath)} {effects : StepEffects MerklePath}
    (h : LoggedStep.apply sha256 before input = .ok (after, effects)) :
    LogsRecorded sha256 before after effects.busEvents := by
  obtain ⟨⟨⟨kind, instruction, branchTaken⟩, executor⟩, hended, h⟩ := Except.of_bind_eq_ok h
  obtain ⟨⟨⟨vm, roots⟩, found⟩, hconcluded, h⟩ := Except.of_bind_eq_ok h
  cases h
  obtain ⟨-, hcommit, rfl, rfl⟩ := Step.finish_ok hconcluded
  obtain ⟨htranscript, events, hevents, htakes, hinput, houtput⟩ :=
    LoggedStep.logs_chosen _ (settled_eq_ok.mp hended)
  obtain rfl : executor.bus.events = events := hevents
  obtain ⟨busTranscript, hbus, hcommit⟩ := Except.of_bind_eq_ok hcommit
  obtain ⟨isaTranscript, -, hcommit⟩ := Except.of_bind_eq_ok hcommit
  cases hcommit
  refine ⟨htakes, hinput, houtput, ?_⟩
  have hfold := Except.mapError_eq_ok.mp hbus
  rw [htranscript] at hfold
  exact hfold

/-- What a run enters into the logs and the transcript. -/
theorem of_runs {labels : List StepLabel}
    (hrun : Runs (LoggedStep.Accepts sha256) before labels after) :
    LogsRecorded sha256 before after (busEventsOf labels) := by
  induction hrun with
  | nil state => exact .nil state
  | cons hstep _ ih => exact (of_apply hstep).append ih

end LogsRecorded

end Runs

end Zksm83
