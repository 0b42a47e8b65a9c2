import Zksm83.Core.Reachable

/-!
# OAM DMA is exactly-once and in order

A write to FF46 starts a transfer. The bytes that the following steps owe are paid by DMA steps
before anything else happens, so that a transfer that no other write restarts copies the bytes 0 to
159 of its source page, each once and in order.
-/

namespace Zksm83

open Rejecting

variable {π τ : Type} {authentication : BusAuthentication π τ}

/-- The event of a write to FF46. -/
def BusEvent.startsDma : BusEvent π → Bool
  | .dmgMmioWrite 0xff46 _ _ => true
  | _ => false

namespace BusState

variable {before after : BusState π τ} {event : BusEvent π} {events : List (BusEvent π)}

/-- An access that does not write FF46 leaves the DMA registers alone. -/
theorem dmaState_accessed (haccess : Accessed before event after)
    (hquiet : event.startsDma = false) :
    after.dmgDevices.dmaState = before.dmgDevices.dmaState := by
  have hchange := haccess.devices
  generalize after.dmgDevices = final at hchange ⊢
  cases hchange with
  | kept => rfl
  | sampled index buttons value => exact DmgDeviceState.dmaState_sampleJoypad buttons
  | @written address visible value _ hwrite =>
    have hstate := DmgDeviceState.dmaState_writeMmio hwrite
    rw [if_neg] at hstate
    · exact hstate
    · rintro rfl
      exact Bool.false_ne_true hquiet.symm

/-- A write to FF46 starts a transfer at the written page. -/
theorem dmaState_started {visible source : ℕ}
    (haccess : Accessed before (.dmgMmioWrite 0xff46 visible source) after) :
    after.dmgDevices.dmaState = (source, 0, true, 0) := by
  have hchange := haccess.devices
  generalize after.dmgDevices = final at hchange ⊢
  cases hchange with
  | kept hquiet => exact absurd rfl (hquiet _ _ _)
  | written hwrite =>
    have hstate := DmgDeviceState.dmaState_writeMmio hwrite
    rw [if_pos rfl] at hstate
    exact hstate

theorem dmaState_runs (hrun : Runs Accessed before events after)
    (hquiet : ∀ event ∈ events, event.startsDma = false) :
    after.dmgDevices.dmaState = before.dmgDevices.dmaState := by
  induction hrun with
  | nil => rfl
  | cons hstep _ ih =>
    rw [ih (fun event hmem => hquiet event (List.mem_cons_of_mem _ hmem)),
      dmaState_accessed hstep (hquiet _ List.mem_cons_self)]

/-- While a transfer is active the registers are closed to the CPU. -/
theorem startsDma_of_active (hrun : Runs Accessed before events after)
    (hactive : before.dmgDevices.dmaActive = true) :
    ∀ event ∈ events, event.startsDma = false := by
  induction hrun with
  | nil => simp
  | @cons before middle after event events hstep htail ih =>
    intro listed hmem
    rcases List.mem_cons.mp hmem with rfl | hmem
    · by_contra hstarts
      rw [Bool.not_eq_false] at hstarts
      unfold BusEvent.startsDma at hstarts
      split at hstarts
      · exact Bool.false_ne_true ((hstep.registers rfl).2.symm.trans hactive)
      · cases hstarts
    · exact ih (dmaActive_accessed hstep hactive) listed hmem

/-- Among the accesses of a step at most one writes FF46: the transfer that it starts closes the
registers to the CPU. -/
theorem dmaState_runs_started {visible source : ℕ} (hrun : Runs Accessed before events after)
    (hwrite : .dmgMmioWrite 0xff46 visible source ∈ events) :
    before.profile.isDmgPostBootMbc3 = true ∧ before.dmgDevices.dmaActive = false ∧
      after.dmgDevices.dmaState = (source, 0, true, 0) := by
  induction hrun with
  | nil => cases hwrite
  | @cons before middle after event events hstep htail ih =>
    by_cases hlater : .dmgMmioWrite 0xff46 visible source ∈ events
    · obtain ⟨hprofile, hidle, hstate⟩ := ih hlater
      rw [hstep.profile_eq] at hprofile
      refine ⟨hprofile, ?_, hstate⟩
      by_contra hactive
      rw [Bool.not_eq_false] at hactive
      exact Bool.false_ne_true (hidle.symm.trans (dmaActive_accessed hstep hactive))
    · obtain rfl : .dmgMmioWrite 0xff46 visible source = event := by
        rcases List.mem_cons.mp hwrite with heq | hmem
        · exact heq
        · exact absurd hmem hlater
      obtain ⟨hprofile, hidle⟩ := hstep.registers rfl
      have hstarted := dmaState_started hstep
      refine ⟨hprofile, hidle, ?_⟩
      rw [← hstarted]
      refine dmaState_runs htail (startsDma_of_active htail ?_)
      rw [show middle.dmgDevices.dmaActive = middle.dmgDevices.dmaState.2.2.1 from rfl, hstarted]

end BusState

namespace Step

/-- The events of a step that copies the byte at `source` to `destination`. -/
inductive CopiesByte (source destination : ℕ) : List (BusEvent π) → Prop
  | rom {read : RomRead π} {write : MemoryWrite π} (hsource : read.address = source)
      (hdestination : write.address = destination)
      (hphysical : write.physicalAddress = destination) (hvalue : write.after = read.value) :
      CopiesByte source destination [.dmgDmaRomRead read, .dmgDmaWrite write]
  | memory {read : MemoryRead π} {write : MemoryWrite π} (hsource : read.address = source)
      (hdestination : write.address = destination)
      (hphysical : write.physicalAddress = destination) (hvalue : write.after = read.value) :
      CopiesByte source destination [.dmgDmaMemoryRead read, .dmgDmaWrite write]

/-- What an accepted step does to the DMA registers: it pays an owed byte, or it makes its accesses
and books the bytes of its cycles. -/
inductive DmaStep (before : VmState) (effects : StepEffects π) (after : VmState) : Prop
  | pays (hkind : effects.kind = .dmaByte) (howed : before.dmgDevices.dmaOwed ≠ 0)
      (hcopies : CopiesByte before.dmgDevices.dmaSourceAddress
        before.dmgDevices.dmaDestinationAddress effects.busEvents)
      (hstate : after.dmgDevices.dmaState = before.dmgDevices.completeDmaByte.dmaState)
  | books {τ : Type} {first executed : BusState π τ} {owed : ℕ} (hkind : effects.kind ≠ .dmaByte)
      (howed : before.profile.isDmgPostBootMbc3 = true → before.dmgDevices.dmaOwed = 0)
      (hprofile : first.profile = before.profile)
      (hfirst : first.dmgDevices.dmaState = before.dmgDevices.dmaState)
      (hruns : Runs Accessed first effects.busEvents executed)
      (hbooked : owed ≤ 160 - executed.dmgDevices.dmaIndex)
      (hstate : after.dmgDevices.dmaState = (executed.dmgDevices.dmaSourceHigh,
        executed.dmgDevices.dmaIndex, executed.dmgDevices.dmaActive, owed))

/-- The DMA registers after the cycles of a step. -/
theorem dmaState_advanced (executor : Executor (BusState π τ)) (increment : ℕ)
    (dmaActiveAtStart : Bool) :
    ∃ owed ≤ 160 - executor.bus.dmgDevices.dmaIndex,
      (advanced executor increment dmaActiveAtStart).bus.dmgDevices.dmaState =
        (executor.bus.dmgDevices.dmaSourceHigh, executor.bus.dmgDevices.dmaIndex,
          executor.bus.dmgDevices.dmaActive, owed) := by
  have hstate : (executor.bus.dmgDevices.advanceMCycles increment).dmaState = _ :=
    DmgDeviceState.dmaState_advanceMCycles increment
  simp only [DmgDeviceState.dmaState, Prod.mk.injEq] at hstate
  obtain ⟨hsource, hindex, hactive, _⟩ := hstate
  refine ⟨if dmaActiveAtStart then min increment (160 - executor.bus.dmgDevices.dmaIndex) else 0,
    ?_, ?_⟩
  · split_ifs
    · exact Nat.min_le_right _ _
    · exact Nat.zero_le _
  · simp only [advanced, DmgDeviceState.scheduleDmaBytes, DmgDeviceState.dmaState, hsource, hindex,
      hactive]

/-- A DMA byte reads its source and writes its destination. -/
theorem dmaStep_of_dmaByte {state : VmState} {roots : τ} {input : List (BusWitness π)}
    {next : Executor (BusState π τ)} {value : Unit}
    (hrun : Accepts (dmaByte authentication) (start state roots input) value next) :
    CopiesByte state.dmgDevices.dmaSourceAddress state.dmgDevices.dmaDestinationAddress
        next.bus.events ∧
      next.bus.dmgDevices = state.dmgDevices.completeDmaByte := by
  obtain ⟨after, hcopy, rfl⟩ := (Exec.accepts_onBus _ _).mp hrun
  obtain ⟨byte, middle, write, rest, written, hread, _, haddress, hphysical, hvalue, _, rfl⟩ :=
    BusState.dmaByte_of_accepts hcopy
  cases hread with
  | rom read left howner hrest hsource hmapped hverify =>
    have hbyte := hvalue.trans (Nat.mod_eq_of_lt read.value.isLt)
    exact ⟨.rom hsource haddress hphysical (Fin.ext hbyte), rfl⟩
  | memory read left hplace hrest hsource hverify =>
    have hbyte := hvalue.trans (Nat.mod_eq_of_lt read.value.isLt)
    exact ⟨.memory hsource haddress hphysical (Fin.ext hbyte), rfl⟩

/-- A machine event makes its accesses and books the bytes of its cycles. -/
theorem dmaStep_of_event {before after : VmState} {roots : τ} {input : List (BusWitness π)}
    {event : DmgMachineEvent} {effects : StepEffects π} {next : Executor (BusState π τ)}
    {value : Unit} (howed : before.dmgDevices.dmaOwed = 0) (hkind : effects.kind = eventKind event)
    (hrun : Accepts (eventAction authentication event) (start before roots input) value next)
    (hafter : after = reached next) (hevents : effects.busEvents = next.bus.events) :
    DmaStep before effects after := by
  have hnot : effects.kind ≠ .dmaByte := by
    rw [hkind]
    cases event <;> simp [eventKind]
  rw [hafter]
  -- Without accesses the executed state is the start of the step.
  have hquiet : next.bus.events = [] → ∀ owed ≤ 160 - before.dmgDevices.dmaIndex,
      (reached next).dmgDevices.dmaState = (before.dmgDevices.dmaSourceHigh,
        before.dmgDevices.dmaIndex, before.dmgDevices.dmaActive, owed) →
      DmaStep before effects (reached next) := by
    intro hnil owed hbooked hstate
    have hruns : Runs Accessed (start before roots input).bus effects.busEvents
        (start before roots input).bus := by
      rw [hevents, hnil]
      exact .nil _
    exact .books hnot (fun _ => howed) rfl rfl hruns hbooked hstate
  have hkept : before.dmgDevices.dmaState = (before.dmgDevices.dmaSourceHigh,
      before.dmgDevices.dmaIndex, before.dmgDevices.dmaActive, 0) := by
    rw [← howed]
    rfl
  cases event with
  | interrupt interrupt =>
    obtain ⟨pushed, hpush, _, rfl⟩ := (accepts_dispatchInterrupt _ _).mp hrun
    obtain ⟨events, hruns⟩ := runs_pushInterruptReturn hpush
    obtain ⟨owed, hbooked, hstate⟩ := dmaState_advanced
      { pushed with cpu := { pushed.cpu with pc := interrupt.vector } } 5
      pushed.bus.dmgDevices.dmaActive
    have hlisted : effects.busEvents = events := by
      rw [hevents, advanced_events]
      exact BusState.events_of_runs hruns
    rw [← hlisted] at hruns
    exact .books hnot (fun _ => howed) rfl rfl hruns hbooked hstate
  | haltWake =>
    obtain rfl := (accepts_haltWake _).mp hrun
    exact hquiet rfl 0 (Nat.zero_le _) hkept
  | haltUntilVblank increment | haltUntilSerial increment | haltUntilTimer increment =>
    obtain ⟨_, rfl⟩ := (accepts_haltUntil _ _).mp hrun
    refine hquiet rfl 0 (Nat.zero_le _) ?_
    rw [← hkept]
    exact DmgDeviceState.dmaState_advanceQuietLong _
  | haltIdle =>
    obtain ⟨_, rfl⟩ := (accepts_haltIdle _).mp hrun
    obtain ⟨owed, hbooked, hstate⟩ := dmaState_advanced (start before roots input)
      (start before roots input).bus.dmgDevices.haltIdleMCycles
      (start before roots input).bus.dmgDevices.dmaActive
    exact hquiet rfl owed hbooked hstate

/-- Every accepted step pays an owed byte, or makes its accesses and books bytes. -/
theorem dmaStep_of_accepted {before after : VmState × τ} {effects : StepEffects π}
    (hstep : Accepted authentication before effects after) :
    DmaStep before.1 effects after.1 := by
  obtain ⟨input, happly⟩ := hstep
  obtain ⟨next, hstepped, hfinal, hevents⟩ := stepped_of_apply happly
  cases hstepped with
  | dmaByte hprofile howed hkind hrun =>
    obtain ⟨hcopies, hdevices⟩ := dmaStep_of_dmaByte hrun
    refine .pays hkind howed (hevents ▸ hcopies) ?_
    rw [hfinal, ← hdevices]
    rfl
  | event event hprofile howed hevent hkind hrun =>
    exact dmaStep_of_event howed hkind hrun hfinal hevents
  | instruction htaken hkind hrun =>
    obtain ⟨executed, events, hruns, _, hbus⟩ := runs_instructionStep hrun
    obtain ⟨owed, hbooked, hstate⟩ := dmaState_advanced executed
      (timing effects.instruction effects.branchTaken) before.1.dmgDevices.dmaActive
    have hlisted : effects.busEvents = events := by
      rw [hevents, hbus, advanced_events]
      exact BusState.events_of_runs hruns
    rw [← hlisted] at hruns
    refine .books (by rw [hkind]; simp) ?_ rfl rfl hruns hbooked ?_
    · intro hprofile
      exact ((takesInstruction_iff hprofile).mp htaken).1
    · rw [hfinal, reached, hbus]
      exact hstate

/-- A step with the state that it starts from. -/
def Traced (authentication : BusAuthentication π τ) (before : VmState × τ)
    (label : VmState × StepEffects π) (after : VmState × τ) : Prop :=
  label.1 = before.1 ∧ Accepted authentication before label.2 after

/-- A step without a write to FF46. -/
def Quiet (effects : StepEffects π) : Prop := ∀ event ∈ effects.busEvents, event.startsDma = false

/-- The DMA registers after a DMA byte of an active transfer. -/
theorem dmaState_completeDmaByte {devices : DmgDeviceState} {source index owed : ℕ}
    (hstate : devices.dmaState = (source, index, true, owed)) (hindex : index ≠ 159) :
    devices.completeDmaByte.dmaState = (source, index + 1, true, owed - 1) := by
  simp only [DmgDeviceState.dmaState, Prod.mk.injEq] at hstate
  obtain ⟨rfl, rfl, hactive, rfl⟩ := hstate
  simp [DmgDeviceState.completeDmaByte, hindex, DmgDeviceState.dmaState, hactive]

/-- A quiet step of an idle DMA leaves it idle. -/
theorem idle_step {before after : VmState × τ} {effects : StepEffects π}
    (hstep : Accepted authentication before effects after) (hquiet : Quiet effects)
    (hidle : before.1.dmgDevices.dmaActive = false) : after.1.dmgDevices.dmaActive = false := by
  cases dmaStep_of_accepted hstep with
  | pays hkind howed hcopies hstate =>
    rw [show after.1.dmgDevices.dmaActive = after.1.dmgDevices.dmaState.2.2.1 from rfl, hstate]
    unfold DmgDeviceState.completeDmaByte
    split_ifs
    · rfl
    · exact hidle
  | @books _ first executed owed hkind howed hprofile hfirst hruns hbooked hstate =>
    have hexecuted := BusState.dmaState_runs hruns hquiet
    rw [hfirst] at hexecuted
    rw [show after.1.dmgDevices.dmaActive = after.1.dmgDevices.dmaState.2.2.1 from rfl, hstate]
    show executed.dmgDevices.dmaState.2.2.1 = false
    rw [hexecuted]
    exact hidle

theorem idle_run {before after : VmState × τ} {labels : List (VmState × StepEffects π)}
    (hrun : Runs (Traced authentication) before labels after)
    (hquiet : ∀ label ∈ labels, Quiet label.2)
    (hidle : before.1.dmgDevices.dmaActive = false) : after.1.dmgDevices.dmaActive = false := by
  induction hrun with
  | nil => exact hidle
  | cons hstep _ ih =>
    exact ih (fun label hmem => hquiet label (List.mem_cons_of_mem _ hmem))
      (idle_step hstep.2 (hquiet _ List.mem_cons_self) hidle)

/-- A transfer from the page `source` is active, has copied `index` bytes, and owes no more than are
left. -/
structure Copying (source index : ℕ) (state : VmState) : Prop where
  profile : state.profile.isDmgPostBootMbc3 = true
  state_eq : ∃ owed ≤ 160 - index, state.dmgDevices.dmaState = (source, index, true, owed)

/-- A quiet step of an active transfer copies its next byte, or copies nothing. -/
theorem copying_step {source index : ℕ} {before after : VmState × τ} {effects : StepEffects π}
    (hcopying : Copying source index before.1)
    (hstep : Accepted authentication before effects after) (hquiet : Quiet effects) :
    (effects.kind ≠ .dmaByte ∧ before.1.dmgDevices.dmaOwed = 0 ∧ Copying source index after.1) ∨
      (effects.kind = .dmaByte ∧ before.1.dmgDevices.dmaIndex = index ∧
        CopiesByte (source * 256 + index) (0xfe00 + index) effects.busEvents ∧
        if index = 159 then after.1.dmgDevices.dmaActive = false
        else Copying source (index + 1) after.1) := by
  obtain ⟨owed, hle, hbefore⟩ := hcopying.state_eq
  have hprofile : after.1.profile.isDmgPostBootMbc3 = true := by
    rw [profile_step hstep]
    exact hcopying.profile
  cases dmaStep_of_accepted hstep with
  | pays hkind howed hcopies hstate =>
    right
    have hfields := hbefore
    simp only [DmgDeviceState.dmaState, Prod.mk.injEq] at hfields
    obtain ⟨hsource, hindex, _, howes⟩ := hfields
    rw [DmgDeviceState.dmaSourceAddress, DmgDeviceState.dmaDestinationAddress, hsource,
      hindex] at hcopies
    refine ⟨hkind, hindex, hcopies, ?_⟩
    split_ifs with hlast
    · rw [show after.1.dmgDevices.dmaActive = after.1.dmgDevices.dmaState.2.2.1 from rfl, hstate]
      rw [DmgDeviceState.completeDmaByte, if_pos (hindex.trans hlast)]
      rfl
    · refine ⟨hprofile, owed - 1, by omega, ?_⟩
      rw [hstate]
      exact dmaState_completeDmaByte hbefore hlast
  | @books _ first executed booked hkind howed hsame hfirst hruns hbooked hstate =>
    left
    have hexecuted := BusState.dmaState_runs hruns hquiet
    rw [hfirst, hbefore] at hexecuted
    simp only [DmgDeviceState.dmaState, Prod.mk.injEq] at hexecuted
    obtain ⟨hsource, hindex, hactive, _⟩ := hexecuted
    rw [hindex] at hbooked
    refine ⟨hkind, howed hcopying.profile, hprofile, booked, hbooked, ?_⟩
    rw [hstate, hsource, hindex, hactive]

/-- The DMA steps of a run. -/
def dmaSteps (labels : List (VmState × StepEffects π)) : List (VmState × StepEffects π) :=
  labels.filter (fun label => label.2.kind = .dmaByte)

/-- Over a quiet run that leaves the transfer active, the DMA steps copy the next bytes in order. -/
theorem copying_run {source index : ℕ} {before after : VmState × τ}
    {labels : List (VmState × StepEffects π)}
    (hrun : Runs (Traced authentication) before labels after)
    (hquiet : ∀ label ∈ labels, Quiet label.2) (hcopying : Copying source index before.1)
    (hindex : index ≤ 159) (hactive : after.1.dmgDevices.dmaActive = true) :
    ∃ count, index + count ≤ 159 ∧ Copying source (index + count) after.1 ∧
      (dmaSteps labels).map (fun label => label.1.dmgDevices.dmaIndex) =
        List.range' index count ∧
      ∀ label ∈ dmaSteps labels, CopiesByte (source * 256 + label.1.dmgDevices.dmaIndex)
        (0xfe00 + label.1.dmgDevices.dmaIndex) label.2.busEvents := by
  induction hrun generalizing index with
  | nil => exact ⟨0, hindex, hcopying, rfl, by simp [dmaSteps]⟩
  | @cons before middle after label labels hstep htail ih =>
    obtain ⟨hstate, hstep⟩ := hstep
    have hrest : ∀ label ∈ labels, Quiet label.2 :=
      fun label hmem => hquiet label (List.mem_cons_of_mem _ hmem)
    rcases copying_step hcopying hstep (hquiet _ List.mem_cons_self) with
      ⟨hkind, _, hnext⟩ | ⟨hkind, hbefore, hcopies, hnext⟩
    · obtain ⟨count, hcount, hlast, hindices, hall⟩ := ih hrest hnext hindex hactive
      have hsteps : dmaSteps (label :: labels) = dmaSteps labels := by simp [dmaSteps, hkind]
      rw [hsteps]
      exact ⟨count, hcount, hlast, hindices, hall⟩
    · by_cases hlast : index = 159
      · rw [if_pos hlast] at hnext
        exact absurd (hactive.symm.trans (idle_run htail hrest hnext)) (by decide)
      · rw [if_neg hlast] at hnext
        obtain ⟨count, hcount, hend, hindices, hall⟩ := ih hrest hnext (by omega) hactive
        have hsteps : dmaSteps (label :: labels) = label :: dmaSteps labels := by
          simp [dmaSteps, hkind]
        have hplace : label.1.dmgDevices.dmaIndex = index := by rw [hstate, hbefore]
        refine ⟨count + 1, by omega, ?_, ?_, ?_⟩
        · rw [show index + (count + 1) = index + 1 + count by omega]
          exact hend
        · rw [hsteps, List.map_cons, hindices, hplace, List.range'_succ]
        · rw [hsteps]
          intro other hmem
          rcases List.mem_cons.mp hmem with rfl | hmem
          · rw [hplace]
            exact hcopies
          · exact hall other hmem

/-- The step that writes FF46 starts a transfer and is no DMA step. -/
theorem copying_start {before after : VmState × τ} {effects : StepEffects π}
    {visible source : ℕ} (hstep : Accepted authentication before effects after)
    (hwrite : .dmgMmioWrite 0xff46 visible source ∈ effects.busEvents) :
    effects.kind ≠ .dmaByte ∧ Copying source 0 after.1 := by
  cases dmaStep_of_accepted hstep with
  | pays hkind howed hcopies hstate =>
    generalize effects.busEvents = events at hcopies hwrite
    cases hcopies <;> simp at hwrite
  | @books _ first executed booked hkind howed hsame hfirst hruns hbooked hstate =>
    obtain ⟨hprofile, _, hexecuted⟩ := BusState.dmaState_runs_started hruns hwrite
    simp only [DmgDeviceState.dmaState, Prod.mk.injEq] at hexecuted
    obtain ⟨hsource, hindex, hactive, _⟩ := hexecuted
    rw [hindex] at hbooked
    refine ⟨hkind, ?_, booked, hbooked, ?_⟩
    · rw [profile_step hstep, ← hsame]
      exact hprofile
    · rw [hstate, hsource, hindex, hactive]

/-- OAM DMA is exactly-once and in order. -/
theorem dmaTransfer_exactly_once (authentication : BusAuthentication π τ)
    {before started ending final : VmState × τ} {first last : VmState × StepEffects π}
    {between : List (VmState × StepEffects π)} {visible source : ℕ}
    (hfirst : Traced authentication before first started)
    (hwrite : .dmgMmioWrite 0xff46 visible source ∈ first.2.busEvents)
    (hbetween : Runs (Traced authentication) started between ending)
    (hlast : Traced authentication ending last final)
    (hquiet : ∀ label ∈ between ++ [last], Quiet label.2)
    (hactive : ending.1.dmgDevices.dmaActive = true)
    (hdone : final.1.dmgDevices.dmaActive = false) :
    (dmaSteps (first :: between ++ [last])).map (fun label => label.1.dmgDevices.dmaIndex) =
        List.range 160 ∧
      (∀ label ∈ dmaSteps (first :: between ++ [last]),
        CopiesByte (source * 256 + label.1.dmgDevices.dmaIndex)
          (0xfe00 + label.1.dmgDevices.dmaIndex) label.2.busEvents) ∧
      ∀ (state after : VmState × τ) (effects : StepEffects π),
        state.1.profile.isDmgPostBootMbc3 = true → state.1.dmgDevices.dmaOwed ≠ 0 →
        Accepted authentication state effects after → effects.kind = .dmaByte := by
  obtain ⟨hkind, hcopying⟩ := copying_start hfirst.2 hwrite
  obtain ⟨count, hcount, hend, hindices, hall⟩ := copying_run hbetween
    (fun label hmem => hquiet label (List.mem_append_left _ hmem)) hcopying (by omega) hactive
  rw [Nat.zero_add] at hcount hend
  -- The last step ends the transfer, so it copies byte 159.
  rcases copying_step hend hlast.2 (hquiet last (by simp)) with
    ⟨_, _, hnext⟩ | ⟨hbyte, hbefore, hcopies, hnext⟩
  · obtain ⟨owed, _, hstate⟩ := hnext.state_eq
    have hstill : final.1.dmgDevices.dmaActive = true := by
      rw [show final.1.dmgDevices.dmaActive = final.1.dmgDevices.dmaState.2.2.1 from rfl, hstate]
    exact absurd (hstill.symm.trans hdone) (by decide)
  have hfinal : count = 159 := by
    by_contra hmore
    rw [if_neg hmore] at hnext
    obtain ⟨owed, _, hstate⟩ := hnext.state_eq
    have hstill : final.1.dmgDevices.dmaActive = true := by
      rw [show final.1.dmgDevices.dmaActive = final.1.dmgDevices.dmaState.2.2.1 from rfl, hstate]
    exact absurd (hstill.symm.trans hdone) (by decide)
  have hsteps : dmaSteps (first :: between ++ [last]) = dmaSteps between ++ [last] := by
    simp [dmaSteps, hkind, hbyte]
  have hplace : last.1.dmgDevices.dmaIndex = count := by rw [hlast.1, hbefore]
  refine ⟨?_, ?_, ?_⟩
  · rw [hsteps, List.map_append, hindices, List.map_cons, List.map_nil, hplace, hfinal]
    rfl
  · rw [hsteps]
    intro label hmem
    rcases List.mem_append.mp hmem with hmem | hmem
    · exact hall label hmem
    · rw [List.mem_singleton.mp hmem, hplace]
      exact hcopies
  · intro state after effects hprofile howed hstep
    cases dmaStep_of_accepted hstep with
    | pays hkind => exact hkind
    | books _ hnone => exact absurd (hnone hprofile) howed

section Replay

/-- The end of a step and its effects; a rejected step has no effects and stays. -/
def stepEnd (authentication : BusAuthentication π τ) (state : VmState × τ)
    (input : List (BusWitness π)) : (VmState × τ) × StepEffects π :=
  match apply authentication state.1 state.2 input with
  | .ok result => result
  | .error _ => (state, ⟨.dmaByte, decodeDefinedPrimary 0, false, []⟩)

/-- The labels and the end of the steps under a list of inputs. -/
def replay (authentication : BusAuthentication π τ) (state : VmState × τ) :
    List (List (BusWitness π)) → List (VmState × StepEffects π) × (VmState × τ)
  | [] => ([], state)
  | input :: inputs =>
    let next := stepEnd authentication state input
    let rest := replay authentication next.1 inputs
    ((state.1, next.2) :: rest.1, rest.2)

/-- Every step under the inputs is accepted. -/
def accepts (authentication : BusAuthentication π τ) (state : VmState × τ) :
    List (List (BusWitness π)) → Bool
  | [] => true
  | input :: inputs =>
    (apply authentication state.1 state.2 input).isOk &&
      accepts authentication (stepEnd authentication state input).1 inputs

theorem traced_stepEnd {state : VmState × τ} {input : List (BusWitness π)}
    (h : (apply authentication state.1 state.2 input).isOk = true) :
    Traced authentication state (state.1, (stepEnd authentication state input).2)
      (stepEnd authentication state input).1 := by
  refine ⟨rfl, input, ?_⟩
  unfold stepEnd
  cases happly : apply authentication state.1 state.2 input with
  | error error =>
    rw [happly] at h
    cases h
  | ok result => rfl

theorem runs_replay {state : VmState × τ} {inputs : List (List (BusWitness π))}
    (h : accepts authentication state inputs = true) :
    Runs (Traced authentication) state (replay authentication state inputs).1
      (replay authentication state inputs).2 := by
  induction inputs generalizing state with
  | nil => exact .nil state
  | cons input inputs ih =>
    rw [accepts, Bool.and_eq_true] at h
    exact .cons (traced_stepEnd h.1) (ih h.2)

instance (effects : StepEffects π) : Decidable (Quiet effects) :=
  inferInstanceAs (Decidable (∀ event ∈ effects.busEvents, event.startsDma = false))

/-- A CPU in high RAM that is about to start a transfer, with the LCD off. -/
def transferStart : VmState × Unit :=
  ({ VmState.dmgPostBootMbc3Initial .dmgPostBootMbc3V1 with
      cpu := { CpuState.dmgPostBootInitial with pc := 0xff80, registers := ⟨0, 0, 0, 0, 0, 0, 0⟩ }
      dmgDevices := { DmgDeviceState.dmgPostBoot with lcdControl := 0 } }, ())

/-- LDH (0x46), A. -/
def transferFirst : List (BusWitness Unit) :=
  [.memoryRead ⟨0xff80, 0xff80, 0xe0, ()⟩, .memoryRead ⟨0xff81, 0xff81, 0x46, ()⟩]

/-- Byte `index` of page 0. -/
def transferByte (index : ℕ) : List (BusWitness Unit) :=
  [.rom ⟨index, index, 0, ()⟩, .memoryWrite ⟨0xfe00 + index, 0xfe00 + index, 0, 0, ()⟩]

/-- HALT, then batches of idle cycles with the bytes that they owe, up to byte 158. -/
def transferBetween : List (List (BusWitness Unit)) :=
  [.memoryRead ⟨0xff82, 0xff82, 0x76, ()⟩] :: transferByte 0 ::
    (List.range 158).flatMap (fun index =>
      if index % 6 = 0 then [[], transferByte (index + 1)] else [transferByte (index + 1)])

theorem dmaTransfer_exactly_once_page : ∃ labels : List (VmState × StepEffects Unit),
    (dmaSteps labels).map (fun label => label.1.dmgDevices.dmaIndex) = List.range 160 := by
  let first := stepEnd BusAuthentication.lookup transferStart transferFirst
  let between := replay BusAuthentication.lookup first.1 transferBetween
  let last := stepEnd BusAuthentication.lookup between.2 (transferByte 159)
  have hfirst := @traced_stepEnd _ _ BusAuthentication.lookup transferStart transferFirst
    (by decide +kernel)
  have hbetween := @runs_replay _ _ BusAuthentication.lookup first.1 transferBetween
    (by decide +kernel)
  have hlast := @traced_stepEnd _ _ BusAuthentication.lookup between.2 (transferByte 159)
    (by decide +kernel)
  exact ⟨_, (dmaTransfer_exactly_once BusAuthentication.lookup hfirst
    (show BusEvent.dmgMmioWrite 0xff46 0 0 ∈ _ by decide +kernel) hbetween hlast
    (by decide +kernel)
    (by decide +kernel) (by decide +kernel)).1⟩

end Replay

end Step

end Zksm83
