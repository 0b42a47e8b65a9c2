import Zksm83.Core.BusRules
import Zksm83.Core.ExecRules
import Zksm83.Core.Step

/-!
# Accepted steps

What an accepted step did: it was a DMA byte, a machine event or an instruction, and the action of
each took the start of the step to the state that it reached. Runs of the machine are runs of
accepted steps, labelled with their effects.
-/

namespace Zksm83

open Rejecting

namespace Step

variable {π τ : Type} {before after : Executor (BusState π τ)}

@[simp] theorem accepts_modifyDevices (change : DmgDeviceState → DmgDeviceState) (value : Unit) :
    Accepts (modifyDevices change : StepAction π τ Unit) before value after ↔
      after = { before with
        bus := { before.bus with dmgDevices := change before.bus.dmgDevices } } := by
  simp [modifyDevices]

@[simp] theorem accepts_addCycles (increment : ℕ) (value : Unit) :
    Accepts (addCycles increment : StepAction π τ Unit) before value after ↔
      before.cpu.mCycles + increment < 2 ^ 64 ∧
        after = { before with
          cpu := { before.cpu with mCycles := before.cpu.mCycles + increment } } := by
  unfold addCycles
  simp only [accepts_bind, Exec.accepts_cpu]
  constructor
  · rintro ⟨_, _, ⟨rfl, rfl⟩, hrun⟩
    split at hrun
    · rename_i hbound
      exact ⟨hbound, (Exec.accepts_setCpu _ _).mp hrun⟩
    · exact absurd hrun (accepts_throw _ _ _ _)
  · rintro ⟨hbound, rfl⟩
    refine ⟨_, _, ⟨rfl, rfl⟩, ?_⟩
    rw [if_pos hbound]
    exact (Exec.accepts_setCpu _ _).mpr rfl

/-- The executor after the cycles of a step. -/
def advanced (executor : Executor (BusState π τ)) (increment : ℕ) (dmaActiveAtStart : Bool) :
    Executor (BusState π τ) where
  cpu := { executor.cpu with mCycles := executor.cpu.mCycles + increment }
  bus := { executor.bus with
    dmgDevices := (executor.bus.dmgDevices.advanceMCycles increment).scheduleDmaBytes increment
      dmaActiveAtStart }

@[simp] theorem advanced_profile (increment : ℕ) (dmaActiveAtStart : Bool) :
    (advanced before increment dmaActiveAtStart).bus.profile = before.bus.profile := rfl

@[simp] theorem advanced_events (increment : ℕ) (dmaActiveAtStart : Bool) :
    (advanced before increment dmaActiveAtStart).bus.events = before.bus.events := rfl

@[simp] theorem accepts_advance (increment : ℕ) (dmaActiveAtStart : Bool) (value : Unit) :
    Accepts (advance increment dmaActiveAtStart : StepAction π τ Unit) before value after ↔
      before.cpu.mCycles + increment < 2 ^ 64 ∧
        after = advanced before increment dmaActiveAtStart := by
  simp only [advance, accepts_bind, accepts_addCycles, accepts_modifyDevices]
  constructor
  · rintro ⟨_, _, ⟨hbound, rfl⟩, _, _, rfl, rfl⟩
    exact ⟨hbound, rfl⟩
  · rintro ⟨hbound, rfl⟩
    exact ⟨(), _, ⟨hbound, rfl⟩, (), _, rfl, rfl⟩

@[simp] theorem accepts_addMachineTiming (increment : ℕ) (value : Unit) :
    Accepts (addMachineTiming increment : StepAction π τ Unit) before value after ↔
      before.cpu.mCycles + increment < 2 ^ 64 ∧
        after = advanced before increment before.bus.dmgDevices.dmaActive := by
  simp only [addMachineTiming, accepts_bind, accepts_get, accepts_advance]
  constructor
  · rintro ⟨_, _, ⟨rfl, rfl⟩, hbound, rfl⟩
    exact ⟨hbound, rfl⟩
  · rintro ⟨hbound, rfl⟩
    exact ⟨_, _, ⟨rfl, rfl⟩, hbound, rfl⟩

@[simp] theorem accepts_haltIdle (value : Unit) :
    Accepts (haltIdle : StepAction π τ Unit) before value after ↔
      before.cpu.mCycles + before.bus.dmgDevices.haltIdleMCycles < 2 ^ 64 ∧
        after = advanced before before.bus.dmgDevices.haltIdleMCycles
          before.bus.dmgDevices.dmaActive := by
  simp only [haltIdle, accepts_bind, accepts_get, accepts_addMachineTiming]
  constructor
  · rintro ⟨_, _, ⟨rfl, rfl⟩, hbound, rfl⟩
    exact ⟨hbound, rfl⟩
  · rintro ⟨hbound, rfl⟩
    exact ⟨_, _, ⟨rfl, rfl⟩, hbound, rfl⟩

@[simp] theorem accepts_haltUntil (increment : ℕ) (value : Unit) :
    Accepts (haltUntil increment : StepAction π τ Unit) before value after ↔
      before.cpu.mCycles + increment < 2 ^ 64 ∧
        after = ⟨{ before.cpu with mCycles := before.cpu.mCycles + increment },
          { before.bus with
            dmgDevices := before.bus.dmgDevices.advanceQuietLong increment }⟩ := by
  simp only [haltUntil, accepts_bind, accepts_addCycles, accepts_modifyDevices]
  constructor
  · rintro ⟨_, _, ⟨hbound, rfl⟩, rfl⟩
    exact ⟨hbound, rfl⟩
  · rintro ⟨hbound, rfl⟩
    exact ⟨(), _, ⟨hbound, rfl⟩, rfl⟩

@[simp] theorem accepts_haltWake (value : Unit) :
    Accepts (haltWake : StepAction π τ Unit) before value after ↔
      after = { before with cpu := { before.cpu with runState := .running } } := by
  simp [haltWake]

@[simp] theorem accepts_applyDelayedIme (operation : Operation) (enableAfterStep : Bool)
    (value : Unit) :
    Accepts (applyDelayedIme operation enableAfterStep : StepAction π τ Unit) before value after ↔
      after = { before with
        cpu := { before.cpu with
          ime := if enableAfterStep = true ∧ operation ≠ .disableInterrupts then .enabled
            else before.cpu.ime } } := by
  unfold applyDelayedIme
  by_cases henable : enableAfterStep = true ∧ operation ≠ .disableInterrupts
  · rw [if_pos (by simpa using henable), if_pos henable]
    exact Exec.accepts_modifyCpu _ _
  · rw [if_neg (by simpa using henable), if_neg henable]
    rw [accepts_pure]
    exact and_iff_right rfl

variable {authentication : BusAuthentication π τ} {state final : VmState} {roots finalRoots : τ}
  {input : List (BusWitness π)} {effects : StepEffects π}

/-- The executor when an interrupt was acknowledged. -/
def acknowledged (executor : Executor (BusState π τ)) (interrupt : DmgInterrupt) :
    Executor (BusState π τ) where
  cpu := { executor.cpu with runState := .running, ime := .disabled }
  bus := { executor.bus with
    dmgDevices := executor.bus.dmgDevices.acknowledgeInterrupt interrupt }

/-- A dispatch acknowledges, pushes the program counter and goes on at the vector. -/
theorem accepts_dispatchInterrupt (interrupt : DmgInterrupt) (value : Unit) :
    Accepts (dispatchInterrupt authentication interrupt) before value after ↔
      ∃ pushed, Accepts (pushInterruptReturn authentication before.cpu.pc)
          (acknowledged before interrupt) () pushed ∧
        pushed.cpu.mCycles + 5 < 2 ^ 64 ∧
        after = advanced { pushed with cpu := { pushed.cpu with pc := interrupt.vector } } 5
          pushed.bus.dmgDevices.dmaActive := by
  simp only [dispatchInterrupt, accepts_bind, Exec.accepts_modifyCpu, accepts_modifyDevices,
    Exec.accepts_cpu, Exec.accepts_setPc, accepts_addMachineTiming]
  constructor
  · rintro ⟨_, _, rfl, _, _, rfl, _, _, ⟨rfl, rfl⟩, _, pushed, hpush, _, _, rfl, hbound, rfl⟩
    exact ⟨pushed, hpush, hbound, rfl⟩
  · rintro ⟨pushed, hpush, hbound, rfl⟩
    exact ⟨(), _, rfl, (), _, rfl, _, _, ⟨rfl, rfl⟩, (), pushed, hpush, (), _, rfl, hbound, rfl⟩

/-- The kind of step that a machine event takes. -/
def eventKind : DmgMachineEvent → StepKind
  | .interrupt interrupt => .interruptDispatch interrupt
  | .haltWake => .haltWake
  | .haltUntilVblank _ => .haltUntilVblank
  | .haltUntilSerial _ => .haltUntilSerial
  | .haltUntilTimer _ => .haltUntilTimer
  | .haltIdle => .haltIdle

/-- The action of a machine event. -/
def eventAction (authentication : BusAuthentication π τ) :
    DmgMachineEvent → StepAction π τ Unit
  | .interrupt interrupt => dispatchInterrupt authentication interrupt
  | .haltWake => haltWake
  | .haltUntilVblank increment | .haltUntilSerial increment | .haltUntilTimer increment =>
    haltUntil increment
  | .haltIdle => haltIdle

/-- An accepted step: which kind it was, and the executor that its action reached. -/
inductive Stepped (authentication : BusAuthentication π τ) (state : VmState) (roots : τ)
    (input : List (BusWitness π)) (effects : StepEffects π) : Executor (BusState π τ) → Prop
  | dmaByte {next : Executor (BusState π τ)} (hprofile : state.profile.isDmgPostBootMbc3 = true)
      (howed : state.dmgDevices.dmaOwed ≠ 0) (hkind : effects.kind = .dmaByte)
      (hrun : Accepts (Step.dmaByte authentication) (start state roots input) () next) :
      Stepped authentication state roots input effects next
  | event {next : Executor (BusState π τ)} (event : DmgMachineEvent)
      (hprofile : state.profile.isDmgPostBootMbc3 = true) (howed : state.dmgDevices.dmaOwed = 0)
      (hevent : classifyDmgMachineEvent state = .ok (some event))
      (hkind : effects.kind = eventKind event)
      (hrun : Accepts (eventAction authentication event) (start state roots input) () next) :
      Stepped authentication state roots input effects next
  | instruction {next : Executor (BusState π τ)}
      (htaken : takesInstruction state = true) (hkind : effects.kind = .instruction)
      (hrun : Accepts (instructionStep authentication state) (start state roots input)
        (effects.instruction, effects.branchTaken) next) :
      Stepped authentication state roots input effects next

/-- The end of an accepted step. -/
theorem finish_ok {kind : StepKind} {instruction : DecodedInstruction} {branchTaken : Bool}
    {executor : Executor (BusState π τ)}
    (h : finish authentication kind instruction branchTaken executor =
      .ok ((final, finalRoots), effects)) :
    executor.bus.witnesses = [] ∧
      authentication.commit executor.bus.roots executor.bus.events instruction = .ok finalRoots ∧
      final = reached executor ∧
      effects = ⟨kind, instruction, branchTaken, executor.bus.events⟩ := by
  unfold finish at h
  by_cases hwitnesses : executor.bus.witnesses.length = 0
  · simp only [hwitnesses, ne_eq, not_true_eq_false, if_false, bind, Except.bind, pure,
      Except.pure] at h
    cases hcommit : authentication.commit executor.bus.roots executor.bus.events instruction with
    | error error => simp [hcommit] at h
    | ok committed =>
      simp only [hcommit, Except.ok.injEq, Prod.mk.injEq] at h
      obtain ⟨⟨rfl, rfl⟩, rfl⟩ := h
      exact ⟨List.eq_nil_of_length_eq_zero hwitnesses, rfl, rfl, rfl⟩
  · simp [hwitnesses, bind, Except.bind, throw, throwThe, MonadExceptOf.throw] at h

theorem machineStep_ok {kind : StepKind} {marker : ℕ} {action : StepAction π τ Unit}
    {executor : Executor (BusState π τ)}
    (h : machineStep authentication kind marker action executor =
      .ok ((final, finalRoots), effects)) :
    ∃ next, Accepts action executor () next ∧ final = reached next ∧ effects.kind = kind ∧
      effects.busEvents = next.bus.events := by
  unfold machineStep at h
  split at h
  · cases h
  · rename_i next hrun
    split at h
    · obtain ⟨_, _, rfl, rfl⟩ := finish_ok h
      exact ⟨next, hrun, rfl, rfl, rfl⟩
    · cases h

theorem runMachineEvent_ok {event : DmgMachineEvent} {executor : Executor (BusState π τ)}
    (h : runMachineEvent authentication event executor = .ok ((final, finalRoots), effects)) :
    ∃ next, Accepts (eventAction authentication event) executor () next ∧ final = reached next ∧
      effects.kind = eventKind event ∧ effects.busEvents = next.bus.events := by
  unfold runMachineEvent at h
  cases event <;> exact machineStep_ok h

theorem runInstruction_ok {executor : Executor (BusState π τ)}
    (h : runInstruction authentication state executor = .ok ((final, finalRoots), effects)) :
    state.cpu.runState.canExecuteInstruction = true ∧ ∃ next,
      Accepts (instructionStep authentication state) executor
        (effects.instruction, effects.branchTaken) next ∧ final = reached next ∧
      effects.kind = .instruction ∧ effects.busEvents = next.bus.events := by
  unfold runInstruction at h
  split at h
  · rename_i hruns
    refine ⟨hruns, ?_⟩
    split at h
    · cases h
    · rename_i instruction branchTaken next hrun
      obtain ⟨_, _, rfl, rfl⟩ := finish_ok h
      exact ⟨next, hrun, rfl, rfl, rfl⟩
  · cases h

/-- An accepted step is a DMA byte, a machine event or an instruction. -/
theorem stepped_of_apply
    (h : apply authentication state roots input = .ok ((final, finalRoots), effects)) :
    ∃ next, Stepped authentication state roots input effects next ∧ final = reached next ∧
      effects.busEvents = next.bus.events := by
  unfold apply at h
  split at h
  · rename_i hprofile
    split at h
    · rename_i howed
      obtain ⟨next, hrun, hfinal, hkind, hevents⟩ := machineStep_ok h
      exact ⟨next, .dmaByte hprofile howed hkind hrun, hfinal, hevents⟩
    · rename_i howed
      rw [not_not] at howed
      split at h
      · cases h
      · rename_i event hevent
        obtain ⟨next, hrun, hfinal, hkind, hevents⟩ := runMachineEvent_ok h
        exact ⟨next, .event event hprofile howed hevent hkind hrun, hfinal, hevents⟩
      · rename_i hnone
        obtain ⟨hruns, next, hrun, hfinal, hkind, hevents⟩ := runInstruction_ok h
        refine ⟨next, .instruction ?_ hkind hrun, hfinal, hevents⟩
        simp [takesInstruction, hnone, howed, hruns]
  · rename_i hprofile
    obtain ⟨hruns, next, hrun, hfinal, hkind, hevents⟩ := runInstruction_ok h
    refine ⟨next, .instruction ?_ hkind hrun, hfinal, hevents⟩
    simp [takesInstruction, hprofile, hruns]

/-- An accepted step of the machine under some input. -/
def Accepted (authentication : BusAuthentication π τ) (before : VmState × τ)
    (effects : StepEffects π) (after : VmState × τ) : Prop :=
  ∃ input, apply authentication before.1 before.2 input = .ok (after, effects)

/-- The bus after an accepted instruction, before its cycles. -/
theorem instructionStep_ok {instruction : DecodedInstruction} {branchTaken : Bool}
    (hrun : Accepts (instructionStep authentication state) before (instruction, branchTaken)
      after) :
    ∃ executed, Accepts (Exec.fetchAndExecute (machineBus authentication)) before
        (instruction, branchTaken) executed ∧
      executed.cpu.mCycles + timing instruction branchTaken < 2 ^ 64 ∧
      after = ⟨{ executed.cpu with
        mCycles := executed.cpu.mCycles + timing instruction branchTaken
        ime := if state.cpu.ime = .enablePending ∧ instruction.operation ≠ .disableInterrupts
          then .enabled else executed.cpu.ime
        runState := runStateAfter state instruction.operation executed.cpu.runState },
        (advanced executed (timing instruction branchTaken) state.dmgDevices.dmaActive).bus⟩ := by
  simp only [instructionStep, accepts_bind] at hrun
  obtain ⟨⟨found, taken⟩, executed, hfetch, hrest⟩ := hrun
  simp only [accepts_applyDelayedIme, accepts_advance] at hrest
  obtain ⟨_, _, rfl, _, _, ⟨hbound, rfl⟩, hrest⟩ := hrest
  split at hrest
  · rename_i hbug
    simp only [accepts_bind, Exec.accepts_modifyCpu, accepts_pure] at hrest
    obtain ⟨_, _, rfl, hvalue, rfl⟩ := hrest
    obtain ⟨rfl, rfl⟩ := Prod.mk.injEq .. ▸ hvalue
    refine ⟨executed, hfetch, hbound, ?_⟩
    rw [runStateAfter, if_pos hbug]
    simp [advanced]
  · rename_i hbug
    obtain ⟨hvalue, rfl⟩ := (accepts_pure _ _ _ _).mp hrest
    obtain ⟨rfl, rfl⟩ := Prod.mk.injEq .. ▸ hvalue
    refine ⟨executed, hfetch, hbound, ?_⟩
    rw [runStateAfter, if_neg hbug]
    simp [advanced]

end Step

end Zksm83
