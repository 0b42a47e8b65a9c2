import Zksm83.Core.DmaTransfer
import Zksm83.Core.Authentication
import Zksm83.Memory.Sha256

/-!
# The first step of an OAM DMA

A step that starts a transfer should owe no bytes for its own cycles. Instructions ask whether a
transfer was active before they execute; machine events ask after their accesses. The two agree
except for an interrupt dispatch that pushes the low byte of the return address onto FF46.
-/

namespace Zksm83

open Rejecting

variable {π τ : Type} {authentication : BusAuthentication π τ}

namespace BusState

variable {before after : BusState π τ}

/-- On a DMG machine a data write starts a transfer exactly if it writes FF46. -/
theorem dmaState_dataWrite {address written : ℕ}
    (hprofile : before.profile.isDmgPostBootMbc3 = true)
    (hrun : Accepts (writeData authentication address written) before () after) :
    after.dmgDevices.dmaState =
      if address = 0xff46 then (written, 0, true, 0) else before.dmgDevices.dmaState := by
  have howner : before.ownerOf 0xff46 = .dmgMmio := by
    rw [ownerOf, if_pos hprofile]
    rfl
  obtain ⟨-, hwrite⟩ := dataWrite_of_accepts hrun
  -- Only the write of a register changes the devices, and FF46 is a register.
  cases hwrite with
  | control hwindow =>
    rw [if_neg (by omega)]
    rfl
  | memory write rest roots hplace hrest haddress hvalue hverify =>
    rw [if_neg]
    · rfl
    · rintro rfl
      rw [memoryPlace, if_neg (by decide), howner, if_neg (by decide)] at hplace
      cases hplace
  | ignored hexternal hwindow =>
    rw [if_neg]
    · rfl
    · rintro rfl
      exact absurd hexternal (by decide)
  | output howned hbound =>
    rw [if_neg]
    · rfl
    · rintro rfl
      rw [howner] at howned
      cases howned
  | mmio visible devices howned hwrite => exact DmgDeviceState.dmaState_writeMmio hwrite

theorem profile_dataWrite {address written : ℕ}
    (hrun : Accepts (writeData authentication address written) before () after) :
    after.profile = before.profile := by
  obtain ⟨-, hwrite⟩ := dataWrite_of_accepts hrun
  cases hwrite <;> rfl

/-- While a transfer is active the CPU writes only to the high RAM. -/
theorem highRam_of_active {address written : ℕ}
    (hprofile : before.profile.isDmgPostBootMbc3 = true)
    (hactive : before.dmgDevices.dmaActive = true)
    (hrun : Accepts (writeData authentication address written) before () after) :
    0xff80 ≤ address ∧ address ≤ 0xfffe := by
  obtain ⟨hopen, -⟩ := dataWrite_of_accepts hrun
  have hdma : before.dmaOpen address = true := (Bool.and_eq_true _ _ ▸ hopen).1
  simpa [dmaOpen, hprofile, hactive] using hdma

end BusState

namespace Step

variable {before after : Executor (BusState π τ)}

/-- The low byte of a return address lies two below the stack pointer. -/
def lowReturnAddress (sp : ℕ) : ℕ := (sp + 65534) % 65536

/-- The push of a return address starts a transfer exactly if its low byte goes to FF46. The high
byte cannot go there: the transfer would close the bus to the low byte. -/
theorem dmaState_pushInterruptReturn {word : ℕ} {value : Unit}
    (hprofile : before.bus.profile.isDmgPostBootMbc3 = true)
    (hrun : Accepts (pushInterruptReturn authentication word) before value after) :
    after.bus.dmgDevices.dmaState =
      if lowReturnAddress before.cpu.sp = 0xff46 then (word % 256, 0, true, 0)
      else before.bus.dmgDevices.dmaState := by
  simp only [pushInterruptReturn, accepts_bind, Exec.accepts_cpu, Exec.accepts_writeData,
    Exec.accepts_modifyCpu] at hrun
  obtain ⟨_, before, ⟨rfl, rfl⟩, _, _, ⟨high, hhigh, rfl⟩, _, _, rfl, _, _, ⟨low, hlow, rfl⟩, rfl⟩ :=
    hrun
  have hfirst := BusState.dmaState_dataWrite hprofile hhigh
  have hprofile' : high.profile.isDmgPostBootMbc3 = true := by
    rw [BusState.profile_dataWrite hhigh]
    exact hprofile
  have hsecond := BusState.dmaState_dataWrite hprofile' hlow
  have haddress : ((before.cpu.sp + 65535) % 65536 + 65535) % 65536 =
      lowReturnAddress before.cpu.sp := by
    unfold lowReturnAddress
    omega
  have hother : (before.cpu.sp + 65535) % 65536 ≠ 0xff46 := by
    intro hregister
    rw [if_pos hregister] at hfirst
    have hactive : high.dmgDevices.dmaActive = true :=
      congrArg (fun dma : ℕ × ℕ × Bool × ℕ => dma.2.2.1) hfirst
    have hram := BusState.highRam_of_active hprofile' hactive hlow
    omega
  rw [if_neg hother] at hfirst
  rw [haddress, hfirst] at hsecond
  exact hsecond

/-- The bytes that a step owes. -/
theorem dmaOwed_advanced (executor : Executor (BusState π τ)) (increment : ℕ)
    (dmaActiveAtStart : Bool) :
    (advanced executor increment dmaActiveAtStart).bus.dmgDevices.dmaOwed =
      if dmaActiveAtStart then min increment (160 - executor.bus.dmgDevices.dmaIndex) else 0 := by
  have hindex : (executor.bus.dmgDevices.advanceMCycles increment).dmaIndex =
      executor.bus.dmgDevices.dmaIndex :=
    congrArg (fun dma : ℕ × ℕ × Bool × ℕ => dma.2.1)
      (@DmgDeviceState.dmaState_advanceMCycles executor.bus.dmgDevices increment)
  simp only [advanced, DmgDeviceState.scheduleDmaBytes, hindex]

/-- An interrupt is dispatched whose return address starts a transfer. -/
def DispatchStartsDma (state : VmState) : Prop :=
  state.profile.isDmgPostBootMbc3 = true ∧ state.dmgDevices.dmaOwed = 0 ∧
    (∃ interrupt, classifyDmgMachineEvent state = .ok (some (.interrupt interrupt))) ∧
      lowReturnAddress state.cpu.sp = 0xff46

/-- The bytes owed after a machine event that starts without a transfer. -/
theorem dmaOwed_of_event {state : VmState} {roots : τ} {input : List (BusWitness π)}
    {event : DmgMachineEvent} {next : Executor (BusState π τ)} {value : Unit}
    (hprofile : state.profile.isDmgPostBootMbc3 = true) (howed : state.dmgDevices.dmaOwed = 0)
    (hidle : state.dmgDevices.dmaActive = false)
    (hevent : classifyDmgMachineEvent state = .ok (some event))
    (hrun : Accepts (eventAction authentication event) (start state roots input) value next) :
    next.bus.dmgDevices.dmaOwed = 0 ↔ ¬ DispatchStartsDma state := by
  have hother : (∀ interrupt, event ≠ .interrupt interrupt) → ¬ DispatchStartsDma state := by
    rintro hnot ⟨-, -, ⟨interrupt, hinterrupt⟩, -⟩
    rw [hevent] at hinterrupt
    exact hnot interrupt (Option.some.inj (Except.ok.inj hinterrupt))
  cases event with
  | interrupt interrupt =>
    obtain ⟨pushed, hpush, -, rfl⟩ := (accepts_dispatchInterrupt _ _).mp hrun
    have hprofile' : (acknowledged (start state roots input) interrupt).bus.profile.isDmgPostBootMbc3 =
      true := hprofile
    have hstate := dmaState_pushInterruptReturn hprofile' hpush
    have hsp : (acknowledged (start state roots input) interrupt).cpu.sp = state.cpu.sp := rfl
    rw [hsp] at hstate
    rw [dmaOwed_advanced]
    by_cases hregister : lowReturnAddress state.cpu.sp = 0xff46
    · -- The transfer that the push started is charged with the dispatch.
      rw [if_pos hregister] at hstate
      have hactive : pushed.bus.dmgDevices.dmaActive = true :=
        congrArg (fun dma : ℕ × ℕ × Bool × ℕ => dma.2.2.1) hstate
      have hindex : pushed.bus.dmgDevices.dmaIndex = 0 :=
        congrArg (fun dma : ℕ × ℕ × Bool × ℕ => dma.2.1) hstate
      rw [if_pos hactive, hindex]
      exact iff_of_false (by decide)
        (not_not_intro ⟨hprofile, howed, ⟨interrupt, hevent⟩, hregister⟩)
    · rw [if_neg hregister] at hstate
      have hactive : pushed.bus.dmgDevices.dmaActive = false :=
        (congrArg (fun dma : ℕ × ℕ × Bool × ℕ => dma.2.2.1) hstate).trans hidle
      rw [hactive, if_neg Bool.false_ne_true]
      exact iff_of_true rfl (fun hstarts => hregister hstarts.2.2.2)
  | haltWake =>
    obtain rfl := (accepts_haltWake _).mp hrun
    exact iff_of_true howed (hother fun _ h => by cases h)
  | haltUntilVblank increment | haltUntilSerial increment | haltUntilTimer increment =>
    obtain ⟨-, rfl⟩ := (accepts_haltUntil _ _).mp hrun
    refine iff_of_true ?_ (hother fun _ h => by cases h)
    exact (congrArg (fun dma : ℕ × ℕ × Bool × ℕ => dma.2.2.2)
      (@DmgDeviceState.dmaState_advanceQuietLong state.dmgDevices increment)).trans howed
  | haltIdle =>
    obtain ⟨-, rfl⟩ := (accepts_haltIdle _).mp hrun
    refine iff_of_true ?_ (hother fun _ h => by cases h)
    have hactive : (start state roots input).bus.dmgDevices.dmaActive = false := hidle
    rw [dmaOwed_advanced, hactive, if_neg Bool.false_ne_true]

/-- What a step from a state without a transfer owes. A DMA byte pays one byte of a debt that was
there before; apart from that, only a dispatch that starts a transfer owes anything. -/
theorem dmaOwed_of_idle {before after : VmState × τ} {effects : StepEffects π}
    (hidle : before.1.dmgDevices.dmaActive = false)
    (hstep : Accepted authentication before effects after) :
    after.1.dmgDevices.dmaOwed = 0 ↔ ¬ DispatchStartsDma before.1 ∧
      (before.1.profile.isDmgPostBootMbc3 = true → before.1.dmgDevices.dmaOwed ≤ 1) := by
  obtain ⟨input, happly⟩ := hstep
  obtain ⟨next, hstepped, hfinal, -⟩ := stepped_of_apply happly
  have howedAfter : after.1.dmgDevices.dmaOwed = next.bus.dmgDevices.dmaOwed := by
    rw [hfinal]
    rfl
  rw [howedAfter]
  cases hstepped with
  | dmaByte hprofile howed hkind hrun =>
    have hnot : ¬ DispatchStartsDma before.1 := fun hstarts => howed hstarts.2.1
    have hpaid : next.bus.dmgDevices.dmaOwed = before.1.dmgDevices.dmaOwed - 1 := by
      rw [(dmaStep_of_dmaByte hrun).2, DmgDeviceState.completeDmaByte]
      split_ifs <;> rfl
    rw [hpaid]
    constructor
    · exact fun hzero => ⟨hnot, fun _ => by omega⟩
    · exact fun hbound => by
        have := hbound.2 hprofile
        omega
  | event event hprofile howed hevent hkind hrun =>
    rw [dmaOwed_of_event hprofile howed hidle hevent hrun]
    exact ⟨fun h => ⟨h, fun _ => by omega⟩, fun h => h.1⟩
  | instruction htaken hkind hrun =>
    obtain ⟨executed, -, -, -, hbus⟩ := runs_instructionStep hrun
    rw [hbus, dmaOwed_advanced, hidle, if_neg Bool.false_ne_true]
    refine iff_of_true rfl ⟨?_, ?_⟩
    · -- A dispatch takes the place of the instruction.
      rintro ⟨hprofile, -, ⟨interrupt, hinterrupt⟩, -⟩
      simp [takesInstruction, hprofile, hinterrupt] at htaken
    · intro hprofile
      rw [((takesInstruction_iff hprofile).mp htaken).1]
      exact Nat.zero_le 1

/-- A dispatch of VBlank with the stack at 0xff48. -/
def dispatchOntoDma : VmState :=
  { VmState.dmgPostBootMbc3Initial .dmgPostBootMbc3V1 with
    cpu := { CpuState.dmgPostBootInitial with sp := 0xff48, ime := .enabled }
    dmgDevices := { DmgDeviceState.dmgPostBoot with interruptEnable := 1 } }

theorem dmaOwed_of_idle_dispatch :
    (stepEnd BusAuthentication.lookup (dispatchOntoDma, ())
      ([] : List (BusWitness Unit))).1.1.dmgDevices.dmaOwed ≠ 0 := by
  have hstep := (@traced_stepEnd Unit Unit BusAuthentication.lookup (dispatchOntoDma, ()) []
    (by decide +kernel)).2
  intro howed
  have hnot := ((dmaOwed_of_idle (show dispatchOntoDma.dmgDevices.dmaActive = false from rfl)
    hstep).mp howed).1
  exact hnot ⟨rfl, rfl, ⟨.vblank, rfl⟩, rfl⟩

/-- The dispatch is charged to the transfer that it starts. -/
theorem dispatch_chargesTransfer : ¬∀ (state after : AuthenticatedState)
    (input : List (BusWitness MerklePath)) (effects : StepEffects MerklePath),
    state.vm.dmgDevices.dmaActive = false →
      StepRelation.apply sha256 state input = .ok (after, effects) →
        after.vm.dmgDevices.dmaOwed = 0 := by
  intro hclaim
  let state : AuthenticatedState := ⟨dispatchOntoDma, .zero, .zero, .zero, .zero, ⟨0, .zero⟩,
    ⟨0, .zero⟩⟩
  have howed : (StepRelation.apply sha256 state []).toOption.map
      (fun result => result.1.vm.dmgDevices.dmaOwed) = some 5 := by decide +kernel
  cases happly : StepRelation.apply sha256 state [] with
  | error error =>
    rw [happly] at howed
    cases howed
  | ok result =>
    rw [happly] at howed
    have hzero := hclaim state result.1 [] result.2 rfl happly
    exact absurd (hzero.symm.trans (Option.some.inj howed)) (by decide)

end Step

end Zksm83
