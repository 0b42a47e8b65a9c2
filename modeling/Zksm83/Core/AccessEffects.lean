import Zksm83.Core.StepRules

/-!
# The effect of an access on the machine

An accepted access of the machine bus lists one event of its role, leaves the profile alone, changes
the mapper only as a control write, and changes the devices only as a register write or as a sample
of the joypad. Steps are sequences of such accesses, so that invariants are checked once for each of
these changes.
-/

namespace Zksm83

open Rejecting

variable {π τ : Type}

/-- The role of the CPU access that lists an event; the events of a DMA byte have none. -/
def BusEvent.role : BusEvent π → Option BusRole
  | .opcodeFetch _ | .memoryOpcodeFetch _ => some .opcodeFetch
  | .immediateRead _ | .memoryImmediateRead _ => some .immediateRead
  | .romRead _ | .memoryRead _ | .mbc3OpenBusRead _ _ | .inputRead _ _ | .dmgMmioRead _ _
  | .dmgJoypadRead _ _ _ _ => some .dataRead
  | .memoryWrite _ | .mbc3ControlWrite _ _ | .mbc3IgnoredWrite _ _ | .outputWrite _ _
  | .dmgMmioWrite _ _ _ => some .dataWrite
  | .dmgDmaRomRead _ | .dmgDmaMemoryRead _ | .dmgDmaWrite _ => none

/-- What an access that lists `event` can do to the mapper. -/
inductive MapperChange (profile : Mbc3CartridgeProfile) (before : Mbc3State) :
    BusEvent π → Mbc3State → Prop
  | kept (event : BusEvent π) : MapperChange profile before event before
  | written (address value : ℕ) : MapperChange profile before (.mbc3ControlWrite address value)
      (before.applyControlWriteFor profile address value)

/-- What an access that lists `event` can do to the devices. -/
inductive DeviceChange (before : DmgDeviceState) : BusEvent π → DmgDeviceState → Prop
  | kept {event : BusEvent π}
      (hquiet : ∀ address visible value, event ≠ .dmgMmioWrite address visible value) :
      DeviceChange before event before
  | sampled (index buttons value : ℕ) :
      DeviceChange before (.dmgJoypadRead index before.joypadButtons buttons value)
        (before.sampleJoypad buttons).2
  | written {address visible value : ℕ} {after : DmgDeviceState}
      (hwrite : before.writeMmio address value = some (visible, after)) :
      DeviceChange before (.dmgMmioWrite address visible value) after

/-- An access and what it did. -/
structure Accessed (before : BusState π τ) (event : BusEvent π) (after : BusState π τ) : Prop where
  profile_eq : after.profile = before.profile
  events_eq : after.events = before.events ++ [event]
  mapper : MapperChange before.profile.mbc3CartridgeProfile before.mbc3 event after.mbc3
  devices : DeviceChange before.dmgDevices event after.dmgDevices
  registers : ∀ {address visible value}, event = .dmgMmioWrite address visible value →
    before.profile.isDmgPostBootMbc3 = true ∧ before.dmgDevices.dmaActive = false

namespace BusState

variable {authentication : BusAuthentication π τ} {before after : BusState π τ}

/-- An access that only lists its event. -/
theorem accessed_of_quiet {event : BusEvent π} (hprofile : after.profile = before.profile)
    (hevents : after.events = before.events ++ [event]) (hmbc3 : after.mbc3 = before.mbc3)
    (hdevices : after.dmgDevices = before.dmgDevices)
    (hquiet : ∀ address visible value, event ≠ .dmgMmioWrite address visible value) :
    Accessed before event after := by
  refine ⟨hprofile, hevents, ?_, ?_, fun hwrite => absurd hwrite (hquiet _ _ _)⟩
  · rw [hmbc3]
    exact .kept event
  · rw [hdevices]
    exact .kept hquiet

/-- Register writes happen on a DMG machine and while no transfer is active. -/
theorem registers_of_open {address : ℕ} (hopen : before.cpuOpen address = true)
    (howner : before.ownerOf address = .dmgMmio) :
    before.profile.isDmgPostBootMbc3 = true ∧ before.dmgDevices.dmaActive = false := by
  unfold ownerOf at howner
  by_cases hprofile : before.profile.isDmgPostBootMbc3 = true
  · refine ⟨hprofile, ?_⟩
    rw [if_pos hprofile] at howner
    have hregister : ¬ (0xff80 ≤ address ∧ address ≤ 0xfffe) := by
      rintro ⟨hlow, hhigh⟩
      unfold dmgOwner at howner
      split_ifs at howner
      all_goals omega
    have hdma : before.dmaOpen address = true := (Bool.and_eq_true _ _ ▸ hopen).1
    by_contra hactive
    rw [Bool.not_eq_false] at hactive
    simp [dmaOpen, hprofile, hactive] at hdma
    exact hregister hdma
  · rw [if_neg hprofile] at howner
    unfold Zksm83.owner at howner
    split_ifs at howner

theorem accessed_of_dataRead {address value : ℕ}
    (h : DataRead authentication before address value after) :
    ∃ event, Accessed before event after ∧ event.role = some .dataRead := by
  cases h with
  | rom | memory | openBus | input | mmio =>
    exact ⟨_, accessed_of_quiet rfl rfl rfl rfl (fun _ _ _ h => by cases h), rfl⟩
  | joypad buttons rest hprofile haddress hrest hbound =>
    exact ⟨_, ⟨rfl, rfl, .kept _, .sampled _ _ _, fun h => by cases h⟩, rfl⟩

theorem accessed_of_dataWrite {address written : ℕ} (hopen : before.cpuOpen address = true)
    (h : DataWrite authentication before address written after) :
    ∃ event, Accessed before event after ∧ event.role = some .dataWrite := by
  cases h with
  | memory | ignored | output =>
    exact ⟨_, accessed_of_quiet rfl rfl rfl rfl (fun _ _ _ h => by cases h), rfl⟩
  | control hwindow =>
    exact ⟨_, ⟨rfl, rfl, .written _ _, .kept (fun _ _ _ h => by cases h), fun h => by cases h⟩, rfl⟩
  | mmio visible devices howner hwrite =>
    exact ⟨_, ⟨rfl, rfl, .kept _, .written hwrite, fun _ => registers_of_open hopen howner⟩, rfl⟩

theorem accessed_of_fetched {address value : ℕ} {role : BusRole}
    (h : Fetched authentication before address role value after) :
    ∃ event, Accessed before event after ∧ event.role = some role := by
  cases h with
  | rom read rest event hevent =>
    refine ⟨event, accessed_of_quiet rfl rfl rfl rfl ?_, ?_⟩ <;> cases role <;> cases hevent
    all_goals first | rfl | exact fun _ _ _ h => by cases h
  | memory read rest event hevent =>
    refine ⟨event, accessed_of_quiet rfl rfl rfl rfl ?_, ?_⟩ <;> cases role <;> cases hevent
    all_goals first | rfl | exact fun _ _ _ h => by cases h

/-- An access of the machine bus lists one event of its role. -/
theorem accessed_of_performs {access : Access}
    (h : (machineBus authentication).Performs before access after) :
    ∃ event, Accessed before event after ∧ event.role = some access.role := by
  cases h with
  | fetch hfetch => exact accessed_of_fetched ((accepts_fetchInstruction _ _ _).mp hfetch).2
  | read hread => exact accessed_of_dataRead (dataRead_of_accepts hread).2
  | write hwrite =>
    obtain ⟨hopen, hdone⟩ := dataWrite_of_accepts hwrite
    exact accessed_of_dataWrite hopen hdone

theorem fetchesBytes_machineBus (authentication : BusAuthentication π τ) :
    (machineBus authentication).FetchesBytes := by
  intro address role before after value hfetch
  obtain ⟨_, hfetched⟩ := (accepts_fetchInstruction _ _ _).mp hfetch
  cases hfetched with
  | rom read => exact read.value.isLt
  | memory read => exact read.value.isLt

/-- A sequence of accesses lists one event for each, of the roles of the accesses. -/
theorem accessed_of_runs {accesses : List Access}
    (h : Runs (machineBus authentication).Performs before accesses after) :
    ∃ events, Runs Accessed before events after ∧
      events.map BusEvent.role = accesses.map (fun access => some access.role) := by
  induction h with
  | nil state => exact ⟨[], .nil state, rfl⟩
  | cons hstep _ ih =>
    obtain ⟨event, haccess, hrole⟩ := accessed_of_performs hstep
    obtain ⟨events, hruns, hroles⟩ := ih
    exact ⟨event :: events, .cons haccess hruns, by rw [List.map_cons, List.map_cons, hrole, hroles]⟩

/-- The events of a sequence of accesses are listed in order. -/
theorem events_of_runs {events : List (BusEvent π)} (h : Runs Accessed before events after) :
    after.events = before.events ++ events := by
  induction h with
  | nil => rw [List.append_nil]
  | cons hstep _ ih => rw [ih, hstep.events_eq, List.append_assoc, List.singleton_append]

theorem profile_of_runs {events : List (BusEvent π)} (h : Runs Accessed before events after) :
    after.profile = before.profile := by
  induction h with
  | nil => rfl
  | cons hstep _ ih => rw [ih, hstep.profile_eq]

end BusState

namespace Step

variable {authentication : BusAuthentication π τ} {state : VmState}
  {before after : Executor (BusState π τ)}

/-- The push of an interrupt dispatch is two data writes. -/
theorem runs_pushInterruptReturn {word : ℕ} {value : Unit}
    (hrun : Accepts (pushInterruptReturn authentication word) before value after) :
    ∃ events, Runs Accessed before.bus events after.bus := by
  have hpush : Accepts (Exec.pushWord (machineBus authentication) word) before value after := hrun
  obtain ⟨events, hruns, _⟩ := BusState.accessed_of_runs (Exec.performs_pushWord hpush)
  exact ⟨events, hruns⟩

/-- The accesses of an accepted instruction step, and its bus after them. -/
theorem runs_instructionStep {instruction : DecodedInstruction} {branchTaken : Bool}
    (hrun : Accepts (instructionStep authentication state) before (instruction, branchTaken)
      after) :
    ∃ (executed : Executor (BusState π τ)) (events : List (BusEvent π)),
      Runs Accessed before.bus events executed.bus ∧
      (∃ immediates, Exec.IsDecoded instruction immediates) ∧
      after.bus = (advanced executed (timing instruction branchTaken)
        state.dmgDevices.dmaActive).bus := by
  obtain ⟨executed, hfetch, _, rfl⟩ := instructionStep_ok hrun
  obtain ⟨immediates, middle, hdecoded, _, hfirst, hrest⟩ :=
    Exec.performs_fetchAndExecute (BusState.fetchesBytes_machineBus authentication) hfetch
  obtain ⟨events, hruns, _⟩ := BusState.accessed_of_runs (hfirst.append hrest)
  exact ⟨executed, events, hruns, ⟨immediates, hdecoded⟩, rfl⟩

/-- An accepted step keeps the profile. -/
theorem profile_stepped {roots : τ} {input : List (BusWitness π)} {effects : StepEffects π}
    {next : Executor (BusState π τ)}
    (hstepped : Stepped authentication state roots input effects next) :
    next.bus.profile = state.profile := by
  cases hstepped with
  | dmaByte hprofile howed hkind hrun =>
    obtain ⟨after, hcopy, rfl⟩ := (Exec.accepts_onBus _ _).mp hrun
    obtain ⟨byte, middle, write, rest, roots, hread, _, _, _, _, _, rfl⟩ :=
      BusState.dmaByte_of_accepts hcopy
    cases hread with
    | rom | memory => rfl
  | event event hprofile howed hevent hkind hrun =>
    cases event with
    | interrupt interrupt =>
      obtain ⟨pushed, hpush, _, rfl⟩ := (accepts_dispatchInterrupt _ _).mp hrun
      obtain ⟨events, hruns⟩ := runs_pushInterruptReturn hpush
      rw [advanced_profile]
      exact BusState.profile_of_runs hruns
    | haltWake =>
      obtain rfl := (accepts_haltWake _).mp hrun
      rfl
    | haltUntilVblank increment | haltUntilSerial increment | haltUntilTimer increment =>
      obtain ⟨_, rfl⟩ := (accepts_haltUntil _ _).mp hrun
      rfl
    | haltIdle =>
      obtain ⟨_, rfl⟩ := (accepts_haltIdle _).mp hrun
      rfl
  | instruction htaken hkind hrun =>
    obtain ⟨executed, events, hruns, _, hbus⟩ := runs_instructionStep hrun
    rw [hbus, advanced_profile]
    exact BusState.profile_of_runs hruns

theorem profile_step {before after : VmState × τ} {effects : StepEffects π}
    (hstep : Accepted authentication before effects after) :
    after.1.profile = before.1.profile := by
  obtain ⟨input, happly⟩ := hstep
  obtain ⟨next, hstepped, hfinal, _⟩ := stepped_of_apply happly
  rw [hfinal]
  exact profile_stepped hstepped

end Step

end Zksm83
