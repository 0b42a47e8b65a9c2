import Zksm83.Core.AccessEffects
import Zksm83.Core.DeviceInvariant

/-!
# Reachable states are well formed

Every run of accepted steps from the state after the boot ROM keeps the device invariant and a ROM
bank inside the cartridge. Each access keeps both, each clock advance of a step keeps the devices,
and a run is a sequence of steps.
-/

namespace Zksm83

open Rejecting

namespace Mbc3RomSize

/-- The logical length of the cartridge ROM. -/
def byteLength : Mbc3RomSize → ℕ
  | .rom256KiB => 256 * 1024
  | .rom1MiB => 1024 * 1024

/-- The largest switchable ROM bank. -/
def maxBank : Mbc3RomSize → ℕ
  | .rom256KiB => 0x0f
  | .rom1MiB => 0x3f

theorem bankMask_eq (size : Mbc3RomSize) : size.bankMask = size.maxBank := by cases size <;> rfl

end Mbc3RomSize

/-- The ROM bank is a switchable bank of the cartridge. -/
def Mbc3State.BankFits (mbc3 : Mbc3State) (profile : Mbc3CartridgeProfile) : Prop :=
  1 ≤ mbc3.romBank ∧ mbc3.romBank ≤ profile.romSize.maxBank

/-- A control write leaves a bank of the cartridge selected. -/
theorem Mbc3State.BankFits.applyControlWriteFor {mbc3 : Mbc3State} {profile : Mbc3CartridgeProfile}
    (h : mbc3.BankFits profile) (address value : ℕ) :
    (mbc3.applyControlWriteFor profile address value).BankFits profile := by
  have hmax : 1 ≤ profile.romSize.maxBank := by cases profile.romSize <;> decide
  have hmask : value &&& profile.romSize.bankMask ≤ profile.romSize.maxBank := by
    rw [Mbc3RomSize.bankMask_eq]
    exact Nat.and_le_right
  unfold Mbc3State.applyControlWriteFor
  split_ifs
  · exact h
  · show 1 ≤ (if _ then _ else _) ∧ (if _ then _ else _) ≤ _
    split_ifs
    · exact ⟨le_rfl, hmax⟩
    · rename_i hnonzero
      exact ⟨Nat.pos_of_ne_zero hnonzero, hmask⟩
  · exact h
  · exact h

/-- A mapped ROM address lies inside the ROM. -/
theorem Mbc3State.BankFits.mapRomFor_lt {mbc3 : Mbc3State} {profile : Mbc3CartridgeProfile}
    (h : mbc3.BankFits profile) {address : ℕ} (haddress : address ≤ 0x7fff) :
    mbc3.mapRomFor address < profile.romSize.byteLength := by
  have hlength : profile.romSize.byteLength = (profile.romSize.maxBank + 1) * 0x4000 := by
    cases profile.romSize <;> rfl
  have hbank := h.2
  unfold Mbc3State.mapRomFor
  split_ifs <;> omega

variable {π τ : Type} {authentication : BusAuthentication π τ}

/-- Devices and mapper are well formed for the profile. -/
structure BusState.WellFormed (bus : BusState π τ) : Prop where
  devices : bus.dmgDevices.WellFormed
  bank : bus.mbc3.BankFits bus.profile.mbc3CartridgeProfile

namespace BusState

variable {before after : BusState π τ}

theorem WellFormed.accessed {event : BusEvent π} (h : before.WellFormed)
    (haccess : Accessed before event after) : after.WellFormed := by
  refine ⟨?_, ?_⟩
  · have hchange := haccess.devices
    generalize after.dmgDevices = final at hchange ⊢
    cases hchange with
    | kept => exact h.devices
    | sampled index buttons value => exact h.devices.sampleJoypad buttons
    | written hwrite => exact h.devices.writeMmio hwrite
  · rw [haccess.profile_eq]
    have hchange := haccess.mapper
    generalize after.mbc3 = final at hchange ⊢
    cases hchange with
    | kept => exact h.bank
    | written address value => exact h.bank.applyControlWriteFor address value

/-- No access ends a DMA transfer. -/
theorem dmaActive_accessed {event : BusEvent π} (haccess : Accessed before event after)
    (hactive : before.dmgDevices.dmaActive = true) : after.dmgDevices.dmaActive = true := by
  have hkept : ∀ {devices : DmgDeviceState}, devices.dmaState = before.dmgDevices.dmaState →
      devices.dmaActive = true := by
    intro devices hstate
    rw [show devices.dmaActive = devices.dmaState.2.2.1 from rfl, hstate]
    exact hactive
  have hchange := haccess.devices
  generalize after.dmgDevices = final at hchange ⊢
  cases hchange with
  | kept => exact hactive
  | sampled index buttons value => exact hkept (DmgDeviceState.dmaState_sampleJoypad buttons)
  | @written address visible value _ hwrite =>
    have hstate := DmgDeviceState.dmaState_writeMmio hwrite
    by_cases hstart : address = 0xff46
    · rw [if_pos hstart] at hstate
      rw [show final.dmaActive = final.dmaState.2.2.1 from rfl, hstate]
    · rw [if_neg hstart] at hstate
      exact hkept hstate

end BusState

namespace Step

/-- Every instruction takes at most six M-cycles. -/
theorem timing_le {instruction : DecodedInstruction} {immediates : List ℕ}
    (h : Exec.IsDecoded instruction immediates) (branchTaken : Bool) :
    timing instruction branchTaken ≤ 6 := by
  have hcycles : instruction.baseMCycles ≤ 6 ∧ instruction.takenMCycles.getD 0 ≤ 6 :=
    h.of_bytes (fun decoded => decoded.baseMCycles ≤ 6 ∧ decoded.takenMCycles.getD 0 ≤ 6)
      (by decide +kernel) (by decide +kernel)
  unfold timing
  cases htaken : instruction.takenMCycles with
  | none => split_ifs <;> exact hcycles.1
  | some cycles =>
    rw [htaken] at hcycles
    split_ifs
    · exact hcycles.2
    · exact hcycles.1

variable {state final : VmState} {roots : τ} {input : List (BusWitness π)}
  {effects : StepEffects π} {executor next : Executor (BusState π τ)}

/-- The cycles of a step keep the invariant. -/
theorem wellFormed_advanced (h : executor.bus.WellFormed) {increment : ℕ} (hshort : increment ≤ 63)
    {dmaActiveAtStart : Bool}
    (hactive : dmaActiveAtStart = true → executor.bus.dmgDevices.dmaActive = true) :
    (advanced executor increment dmaActiveAtStart).bus.WellFormed := by
  refine ⟨(h.devices.advanceMCycles hshort).scheduleDmaBytes increment ?_, h.bank⟩
  intro hstart
  have hstate : (executor.bus.dmgDevices.advanceMCycles increment).dmaState = _ :=
    DmgDeviceState.dmaState_advanceMCycles increment
  rw [show ∀ devices : DmgDeviceState, devices.dmaActive = devices.dmaState.2.2.1 from fun _ => rfl,
    hstate]
  exact hactive hstart

/-- Accesses keep the invariant and an active transfer. -/
theorem wellFormed_runs {before after : BusState π τ} {events : List (BusEvent π)}
    (hrun : Runs Accessed before events after) (h : before.WellFormed) :
    after.WellFormed ∧
      (before.dmgDevices.dmaActive = true → after.dmgDevices.dmaActive = true) := by
  induction hrun with
  | nil => exact ⟨h, id⟩
  | cons hstep _ ih =>
    obtain ⟨hformed, hactive⟩ := ih (h.accessed hstep)
    exact ⟨hformed, fun hstart => hactive (BusState.dmaActive_accessed hstep hstart)⟩

theorem wellFormed_dispatchInterrupt {interrupt : DmgInterrupt} {value : Unit}
    (h : executor.bus.WellFormed)
    (hrun : Accepts (dispatchInterrupt authentication interrupt) executor value next) :
    next.bus.WellFormed := by
  obtain ⟨pushed, hpush, _, rfl⟩ := (accepts_dispatchInterrupt _ _).mp hrun
  obtain ⟨events, hruns⟩ := runs_pushInterruptReturn hpush
  have hacknowledged : (acknowledged executor interrupt).bus.WellFormed :=
    ⟨h.devices.acknowledgeInterrupt interrupt, h.bank⟩
  exact wellFormed_advanced (wellFormed_runs hruns hacknowledged).1 (by decide) id

/-- The action of a machine event keeps the invariant. -/
theorem wellFormed_eventAction {event : DmgMachineEvent} {value : Unit}
    (h : executor.bus.WellFormed)
    (hrun : Accepts (eventAction authentication event) executor value next) :
    next.bus.WellFormed := by
  cases event with
  | interrupt interrupt => exact wellFormed_dispatchInterrupt h hrun
  | haltWake =>
    rw [(accepts_haltWake _).mp hrun]
    exact h
  | haltUntilVblank increment | haltUntilSerial increment | haltUntilTimer increment =>
    obtain ⟨_, rfl⟩ := (accepts_haltUntil _ _).mp hrun
    exact ⟨h.devices.advanceQuietLong increment, h.bank⟩
  | haltIdle =>
    obtain ⟨_, rfl⟩ := (accepts_haltIdle _).mp hrun
    have hshort := executor.bus.dmgDevices.haltIdleMCycles_le
    exact wellFormed_advanced h (by omega) id

/-- A DMA byte that is owed keeps the invariant. -/
theorem wellFormed_dmaByte {value : Unit} (h : executor.bus.WellFormed)
    (howed : executor.bus.dmgDevices.dmaOwed ≠ 0)
    (hrun : Accepts (dmaByte authentication) executor value next) : next.bus.WellFormed := by
  obtain ⟨after, hcopy, rfl⟩ := (Exec.accepts_onBus _ _).mp hrun
  obtain ⟨byte, middle, write, rest, roots, hread, _, _, _, _, _, rfl⟩ :=
    BusState.dmaByte_of_accepts hcopy
  cases hread with
  | rom | memory => exact ⟨h.devices.completeDmaByte howed, h.bank⟩

theorem wellFormed_instructionStep {instruction : DecodedInstruction} {branchTaken : Bool}
    (h : executor.bus.WellFormed)
    (hdevices : state.dmgDevices.dmaActive = executor.bus.dmgDevices.dmaActive)
    (hrun : Accepts (instructionStep authentication state) executor (instruction, branchTaken)
      next) : next.bus.WellFormed := by
  obtain ⟨executed, events, hruns, ⟨immediates, hdecoded⟩, hbus⟩ := runs_instructionStep hrun
  obtain ⟨hformed, hactive⟩ := wellFormed_runs hruns h
  have hshort := timing_le hdecoded branchTaken
  rw [hbus]
  refine wellFormed_advanced hformed (by omega) ?_
  rw [hdevices]
  exact hactive

/-- The state of the machine without its CPU is well formed. -/
structure MachineFits (state : VmState) : Prop where
  devices : state.dmgDevices.WellFormed
  bank : state.mbc3.BankFits state.profile.mbc3CartridgeProfile

/-- An accepted step keeps the invariant. -/
theorem machineFits_step {before after : VmState × τ} {effects : StepEffects π}
    (h : MachineFits before.1) (hstep : Accepted authentication before effects after) :
    MachineFits after.1 := by
  obtain ⟨input, happly⟩ := hstep
  obtain ⟨next, hstepped, hfinal, _⟩ := stepped_of_apply happly
  have hstart : (start before.1 before.2 input).bus.WellFormed := ⟨h.devices, h.bank⟩
  have hnext : next.bus.WellFormed := by
    cases hstepped with
    | dmaByte hprofile howed hkind hrun => exact wellFormed_dmaByte hstart howed hrun
    | event event hprofile howed hevent hkind hrun => exact wellFormed_eventAction hstart hrun
    | instruction htaken hkind hrun => exact wellFormed_instructionStep hstart rfl hrun
  rw [hfinal]
  exact ⟨hnext.devices, hnext.bank⟩

/-- What every reachable state of a DMG machine satisfies. -/
structure WellFormed (state : VmState) : Prop where
  flags : state.cpu.flags.byte % 16 = 0
  interruptRequest : state.dmgDevices.interruptRequest ≤ 0x1f
  interruptEnable : state.dmgDevices.interruptEnable ≤ 0x1f
  ppuLine : state.dmgDevices.ppuLine ≤ 153
  ppuDot : state.dmgDevices.ppuDot ≤ 455 ∧ state.dmgDevices.ppuDot % 4 = 0
  lcdOff : state.dmgDevices.lcdEnabled = false →
    state.dmgDevices.ppuLine = 0 ∧ state.dmgDevices.ppuDot = 0
  timer : state.dmgDevices.timer.reloadPhase ≤ 5 ∧ state.dmgDevices.timer.control ≤ 7
  serial : state.dmgDevices.serialCyclesRemaining % 4 = 0 ∧
    state.dmgDevices.serialCyclesRemaining ≤ 4096
  serialActive : state.dmgDevices.serialCyclesRemaining ≠ 0 ↔
    state.dmgDevices.serialControl &&& 0x81 = 0x81
  dmaIndex : state.dmgDevices.dmaActive = true → state.dmgDevices.dmaIndex ≤ 159
  dmaActive : 0 < state.dmgDevices.dmaOwed → state.dmgDevices.dmaActive = true
  dmaOwed : state.dmgDevices.dmaIndex ≤ 160 ∧
    state.dmgDevices.dmaOwed ≤ 160 - state.dmgDevices.dmaIndex
  romBank : 1 ≤ state.mbc3.romBank ∧
    state.mbc3.romBank ≤ state.profile.mbc3CartridgeProfile.romSize.maxBank
  romAddress : ∀ address ≤ 0x7fff,
    state.mbc3.mapRomFor address < state.profile.mbc3CartridgeProfile.romSize.byteLength

theorem MachineFits.wellFormed {state : VmState} (h : MachineFits state) : WellFormed state where
  flags := by
    unfold Flags.byte
    omega
  interruptRequest := h.devices.request_le
  interruptEnable := h.devices.enable_le
  ppuLine := h.devices.ppu.line_le
  ppuDot := ⟨h.devices.ppu.dot_le, Nat.mod_eq_zero_of_dvd h.devices.ppu.aligned⟩
  lcdOff := h.devices.ppu.off
  timer := ⟨h.devices.timer.reloadPhase_le, h.devices.timer.control_le⟩
  serial := ⟨Nat.mod_eq_zero_of_dvd h.devices.serial.aligned, h.devices.serial.remaining_le⟩
  serialActive := h.devices.serial.remaining_iff
  dmaIndex := h.devices.dma.index_le
  dmaActive := h.devices.dma.active_of_owed
  dmaOwed := by
    have hle := h.devices.dma.owed_le
    omega
  romBank := h.bank
  romAddress := fun address haddress => h.bank.mapRomFor_lt haddress

/-- Every run of accepted steps from the state after the boot ROM keeps the invariant and its
profile. -/
theorem machineFits_run {profile : MachineProfile} {labels : List (StepEffects π)}
    {after : VmState × τ}
    (hrun : Runs (Accepted authentication) (.dmgPostBootMbc3Initial profile, roots) labels after) :
    MachineFits after.1 ∧ after.1.profile = profile := by
  have hinitial : MachineFits (.dmgPostBootMbc3Initial profile) := by
    refine ⟨DmgDeviceState.wellFormed_dmgPostBoot, le_rfl, ?_⟩
    cases profile <;> decide
  refine hrun.invariant (fun state => MachineFits state.1 ∧ state.1.profile = profile) ?_
    ⟨hinitial, rfl⟩
  intro state label next h hstep
  exact ⟨machineFits_step h.1 hstep, (profile_step hstep).trans h.2⟩

/-- Reachable states are well formed. -/
theorem reachable_wellFormed (authentication : BusAuthentication π τ) (profile : MachineProfile)
    (roots : τ) (labels : List (StepEffects π)) (after : VmState × τ)
    (hrun : Runs (Accepted authentication) (.dmgPostBootMbc3Initial profile, roots) labels after) :
    WellFormed after.1 ∧ after.1.profile = profile :=
  ⟨(machineFits_run hrun).1.wellFormed, (machineFits_run hrun).2⟩

/-- The witness of a NOP at the entry point of the cartridge. -/
def nopAtEntry : List (BusWitness Unit) := [.rom ⟨0x0100, 0x0100, 0, ()⟩]

theorem reachable_wellFormed_nop : ∃ effects after,
    Runs (Accepted BusAuthentication.lookup) (.dmgPostBootMbc3Initial .dmgPostBootMbc3V1, ())
      [effects] after ∧
    WellFormed after.1 ∧ after.1.profile = .dmgPostBootMbc3V1 := by
  have hok : (apply BusAuthentication.lookup (.dmgPostBootMbc3Initial .dmgPostBootMbc3V1) ()
      nopAtEntry).isOk = true := by decide +kernel
  cases happly : apply BusAuthentication.lookup (.dmgPostBootMbc3Initial .dmgPostBootMbc3V1) ()
      nopAtEntry with
  | error error =>
    rw [happly] at hok
    cases hok
  | ok result =>
    obtain ⟨after, effects⟩ := result
    have hstep : Accepted BusAuthentication.lookup
        (.dmgPostBootMbc3Initial .dmgPostBootMbc3V1, ()) effects after := ⟨nopAtEntry, happly⟩
    exact ⟨effects, after, .single hstep, reachable_wellFormed _ _ _ _ _ (.single hstep)⟩

end Step

end Zksm83
