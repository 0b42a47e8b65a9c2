import Zksm83.Memory.Sha256
import Zksm83.Trace.TablePlans

/-!
# Every step of a builder converges

Builders start at an initial state or at a checkpoint and go on by steps. In every state that they
reach, a step ends with a row whose witnesses were all asked for, or with a rejection that changes
nothing and that the planner is not to blame for. Read `planning_converges` first.
-/

namespace Zksm83

open Rejecting

section Reachable

variable (sha256 : List Byte → CommitmentRoot)

/-- A builder that the constructors and any steps lead to. -/
inductive TraceBuilder.Reachable : TraceBuilder → Prop
  | new {program privateInput : List Byte} {rom : RomImage} {memory : MemoryImage}
      (hrom : RomImage.new sha256 program = .ok rom)
      (hmemory : MemoryImage.Reachable sha256 memory) :
      Reachable (TraceBuilder.new sha256 rom memory privateInput)
  | newDmgPostBootMbc3 {program privateInput : List Byte} {rom : RomImage} {memory : MemoryImage}
      (hrom : RomImage.new sha256 program = .ok rom)
      (hmemory : MemoryImage.Reachable sha256 memory) :
      Reachable (TraceBuilder.newDmgPostBootMbc3 sha256 rom memory privateInput)
  | newDmgPostBootMbc3Profile {program privateInput : List Byte} {rom : RomImage}
      {memory : MemoryImage} {profile : MachineProfile} {builder : TraceBuilder}
      (hrom : RomImage.new sha256 program = .ok rom)
      (hmemory : MemoryImage.Reachable sha256 memory)
      (hbuilder : TraceBuilder.newDmgPostBootMbc3Profile sha256 rom memory privateInput profile =
        .ok builder) : Reachable builder
  | resume {program privateInput : List Byte} {rom : RomImage} {memory : MemoryImage}
      {state : AuthenticatedState} {builder : TraceBuilder}
      (hrom : RomImage.new sha256 program = .ok rom)
      (hmemory : MemoryImage.Reachable sha256 memory)
      (hbuilder : TraceBuilder.resume sha256 rom memory privateInput state = .ok builder) :
      Reachable builder
  | step {builder : TraceBuilder} (hbuilder : Reachable builder) :
      Reachable (outcome (TraceBuilder.step sha256) builder).2

/-- A builder of the lookup relation that the constructors and any steps lead to. -/
inductive LookupTraceBuilder.Reachable : LookupTraceBuilder → Prop
  | newDmgPostBootMbc3Profile {rom memory privateInput : List Byte}
      {romRoot memoryRootAnchor : CommitmentRoot} {profile : MachineProfile}
      {builder : LookupTraceBuilder}
      (hbuilder : LookupTraceBuilder.newDmgPostBootMbc3Profile sha256 rom memory privateInput
        romRoot memoryRootAnchor profile = .ok builder) : Reachable builder
  | resumeDmgPostBootMbc3 {rom memory privateInput : List Byte} {state : AuthenticatedState}
      {builder : LookupTraceBuilder}
      (hbuilder : LookupTraceBuilder.resumeDmgPostBootMbc3 sha256 rom memory privateInput state =
        .ok builder) : Reachable builder
  | step {builder : LookupTraceBuilder} (hbuilder : Reachable builder) :
      Reachable (outcome (LookupTraceBuilder.step sha256) builder).2

namespace TraceBuilder

variable {sha256} {builder : TraceBuilder}

/-- A builder at the roots of its images is consistent. -/
theorem consistent_of_roots {program privateInput : List Byte} {rom : RomImage}
    {memory : MemoryImage} {state : AuthenticatedState}
    (hrom : RomImage.new sha256 program = .ok rom) (hmemory : MemoryImage.Reachable sha256 memory)
    (hromRoot : state.roots.romRoot = rom.root) (hmemoryRoot : state.roots.memoryRoot = memory.root) :
    Consistent sha256 ⟨rom, memory, privateInput, state⟩ := by
  obtain ⟨_, hlength, rfl⟩ := RomImage.new_eq_ok hrom
  exact ⟨⟨_, RomImage.exact_exactImage hlength⟩, hromRoot, hmemory.exact, hmemoryRoot⟩

/-- What a resumption checks. -/
theorem resume_eq_ok {rom : RomImage} {memory : MemoryImage} {privateInput : List Byte}
    {state : AuthenticatedState} : resume sha256 rom memory privateInput state = .ok builder ↔
      state.roots.romRoot = rom.root ∧ state.roots.memoryRoot = memory.root ∧
        privateInput.length < 2 ^ 64 ∧ state.vm.inputNext ≤ privateInput.length ∧
        LogAccumulator.commit sha256 .input (privateInput.take state.vm.inputNext) =
          .ok state.inputLog ∧
        builder = ⟨rom, memory, privateInput, state⟩ := by
  unfold resume
  simp only [bind, Except.bind, pure, Except.pure, throw, throwThe, MonadExceptOf.throw]
  split_ifs with hrom hmemory hlong hshort
  · exact ⟨fun h => (by cases h), fun h => absurd h.1 hrom⟩
  · exact ⟨fun h => (by cases h), fun h => absurd h.2.1 hmemory⟩
  · exact ⟨fun h => (by cases h), fun h => absurd h.2.2.1 (not_lt.mpr hlong)⟩
  · exact ⟨fun h => (by cases h), fun h => absurd h.2.2.2.1 (not_le.mpr hshort)⟩
  cases hcommit : LogAccumulator.commit sha256 .input (privateInput.take state.vm.inputNext) with
  | error error => exact ⟨fun h => (by cases h), fun h => (by cases h.2.2.2.2.1)⟩
  | ok committed =>
    simp only [Except.mapError, Except.ok.injEq]
    split_ifs with hlog
    · exact ⟨fun h => (by cases h), fun h => absurd h.2.2.2.2.1 hlog⟩
    · rw [Except.ok.injEq]
      exact ⟨fun h => ⟨not_not.mp hrom, not_not.mp hmemory, not_le.mp hlong, not_lt.mp hshort,
        not_not.mp hlog, h.symm⟩, fun h => h.2.2.2.2.2.symm⟩

theorem roots_of_resume {rom : RomImage} {memory : MemoryImage} {privateInput : List Byte}
    {state : AuthenticatedState} (h : resume sha256 rom memory privateInput state = .ok builder) :
    state.roots.romRoot = rom.root ∧ state.roots.memoryRoot = memory.root ∧
      builder = ⟨rom, memory, privateInput, state⟩ := by
  obtain ⟨hrom, hmemory, -, -, -, hbuilder⟩ := resume_eq_ok.mp h
  exact ⟨hrom, hmemory, hbuilder⟩

theorem Reachable.consistent (hreachable : Reachable sha256 builder) :
    builder.Consistent sha256 := by
  induction hreachable with
  | new hrom hmemory => exact consistent_of_roots hrom hmemory rfl rfl
  | newDmgPostBootMbc3 hrom hmemory => exact consistent_of_roots hrom hmemory rfl rfl
  | @newDmgPostBootMbc3Profile _ _ _ _ profile _ hrom hmemory hbuilder =>
    unfold TraceBuilder.newDmgPostBootMbc3Profile AuthenticatedState.dmgPostBootMbc3ProfileInitial at hbuilder
    by_cases hprofile : profile.isDmgPostBootMbc3 = true
    · rw [if_pos hprofile] at hbuilder
      cases hbuilder
      exact consistent_of_roots hrom hmemory rfl rfl
    · rw [if_neg hprofile] at hbuilder
      cases hbuilder
  | resume hrom hmemory hbuilder =>
    obtain ⟨hromRoot, hmemoryRoot, rfl⟩ := roots_of_resume hbuilder
    exact consistent_of_roots hrom hmemory hromRoot hmemoryRoot
  | step _ ih =>
    rcases step_cases ih with ⟨error, hrun, _⟩ | ⟨row, next, existing, input, hrun, _, hnext⟩
    · rw [hrun]
      exact ih
    · rw [hrun]
      exact hnext

end TraceBuilder

/-- Every step of a reachable builder ends: with a row of at most five witnesses, each planned for
what the relation asked for after the ones before and used by one event, and with the memory that
the events describe; or with an error that the planner is not to blame for, and with the builder as
it was. The same holds of the lookup builder. -/
theorem planning_converges :
    (∀ builder, TraceBuilder.Reachable sha256 builder →
      (∃ error, outcome (TraceBuilder.step sha256) builder = (.error error, builder) ∧
        error.plannerInternal = false) ∨
      ∃ row next existing input, outcome (TraceBuilder.step sha256) builder = (.ok row, next) ∧
        TraceBuilder.Stepped sha256 builder row next existing input) ∧
    ∀ builder, LookupTraceBuilder.Reachable sha256 builder →
      (∃ error, outcome (LookupTraceBuilder.step sha256) builder = (.error error, builder) ∧
        error.plannerInternal = false) ∨
      ∃ row next existing input, outcome (LookupTraceBuilder.step sha256) builder = (.ok row, next) ∧
        LookupTraceBuilder.Stepped sha256 builder row next existing input := by
  refine ⟨fun builder hreachable => ?_, fun builder _ => LookupTraceBuilder.step_cases builder⟩
  rcases TraceBuilder.step_cases hreachable.consistent with
    hfailed | ⟨row, next, existing, input, hrun, hstepped, _⟩
  · exact .inl hfailed
  · exact .inr ⟨row, next, existing, input, hrun, hstepped⟩

end Reachable

/-- Zeroed memory tables. -/
def zeroTable : List Byte := List.replicate (2 ^ memoryDepth) 0

theorem planning_converges_zeros :
    ((∃ error, outcome (TraceBuilder.step sha256) (TraceBuilder.new sha256
          (RomImage.exactImage sha256 [0]) (MemoryImage.exactImage sha256 zeroTable) []) =
        (.error error, TraceBuilder.new sha256 (RomImage.exactImage sha256 [0])
          (MemoryImage.exactImage sha256 zeroTable) []) ∧ error.plannerInternal = false) ∨
      ∃ row next existing input, outcome (TraceBuilder.step sha256) (TraceBuilder.new sha256
          (RomImage.exactImage sha256 [0]) (MemoryImage.exactImage sha256 zeroTable) []) =
          (.ok row, next) ∧
        TraceBuilder.Stepped sha256 (TraceBuilder.new sha256 (RomImage.exactImage sha256 [0])
          (MemoryImage.exactImage sha256 zeroTable) []) row next existing input) ∧
    ∃ builder, LookupTraceBuilder.newDmgPostBootMbc3 sha256 [0] zeroTable [] .zero .zero =
        .ok builder ∧
      ((∃ error, outcome (LookupTraceBuilder.step sha256) builder = (.error error, builder) ∧
          error.plannerInternal = false) ∨
        ∃ row next existing input, outcome (LookupTraceBuilder.step sha256) builder =
            (.ok row, next) ∧
          LookupTraceBuilder.Stepped sha256 builder row next existing input) := by
  have hlength : zeroTable.length = 2 ^ memoryDepth := List.length_replicate
  have hrom : RomImage.new sha256 [0] = .ok (RomImage.exactImage sha256 [0]) :=
    RomImage.new_eq (List.cons_ne_nil _ _) (by decide)
  have hmemory : MemoryImage.Reachable sha256 (MemoryImage.exactImage sha256 zeroTable) :=
    .built (.fromCheckpointBytes (MemoryImage.fromCheckpointBytes_eq sha256 hlength))
  have hlookup : LookupTraceBuilder.newDmgPostBootMbc3 sha256 [0] zeroTable [] .zero .zero =
      .ok ⟨LookupTraceBuilder.paddedRom [0], zeroTable, [],
        ⟨.dmgPostBootMbc3Initial .dmgPostBootMbc3V1, .initial sha256 .zero .zero⟩⟩ := by
    unfold LookupTraceBuilder.newDmgPostBootMbc3 LookupTraceBuilder.newDmgPostBootMbc3Profile
      LookupTraceBuilder.validateTables
    rw [if_neg (not_not_intro (show zeroTable.length = lookupMemoryBytes from hlength))]
    rfl
  exact ⟨(planning_converges sha256).1 _ (.new hrom hmemory), _, hlookup,
    (planning_converges sha256).2 _ (.newDmgPostBootMbc3Profile hlookup)⟩

end Zksm83
