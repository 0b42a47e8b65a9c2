import Zksm83.Core.AccessEffects
import Zksm83.Core.StepLogic

/-!
# The witnesses of a step are those of its events

Every access that takes a witness lists an event that carries it. So the witnesses that the listed
events carry, followed by those that are left, never change, and an accepted step was given exactly
the witnesses of its events, in their order.
-/

namespace Zksm83

open Rejecting

variable {π τ : Type}

/-- An input byte among the witnesses. -/
def inputWitness (value : ℕ) : Option (BusWitness π) :=
  if h : value < 256 then some (.inputByte ⟨value, h⟩) else none

/-- The witness that the access of an event took. -/
def BusEvent.witness : BusEvent π → Option (BusWitness π)
  | .opcodeFetch read | .immediateRead read | .romRead read | .dmgDmaRomRead read =>
    some (.rom read)
  | .memoryOpcodeFetch read | .memoryImmediateRead read | .memoryRead read
  | .dmgDmaMemoryRead read => some (.memoryRead read)
  | .memoryWrite write | .dmgDmaWrite write => some (.memoryWrite write)
  | .inputRead _ value => inputWitness value
  | .dmgJoypadRead _ _ buttons _ => inputWitness buttons
  | .mbc3ControlWrite _ _ | .mbc3OpenBusRead _ _ | .mbc3IgnoredWrite _ _ | .outputWrite _ _
  | .dmgMmioRead _ _ | .dmgMmioWrite _ _ _ => none

@[simp] theorem inputWitness_byte (byte : Byte) :
    (inputWitness byte : Option (BusWitness π)) = some (.inputByte byte) :=
  dif_pos byte.isLt

namespace BusState

variable {authentication : BusAuthentication π τ} {before after : BusState π τ}

/-- The witnesses of the listed events, and those that are left. -/
def supply (state : BusState π τ) : List (BusWitness π) :=
  state.events.filterMap BusEvent.witness ++ state.witnesses

/-- An access that took the witness of its event. -/
theorem supply_listed {witness : BusWitness π} {rest : List (BusWitness π)} {event : BusEvent π}
    (hrest : before.witnesses = witness :: rest) (hevent : event.witness = some witness) :
    (before.listed rest event).supply = before.supply := by
  simp [supply, listed, hrest, hevent]

/-- An access that took no witness. -/
theorem supply_kept {event : BusEvent π} (hevent : event.witness = none) :
    (before.listed before.witnesses event).supply = before.supply := by
  simp [supply, listed, hevent]

theorem supply_fetched {address value : ℕ} {role : BusRole}
    (h : Fetched authentication before address role value after) :
    after.supply = before.supply := by
  cases h with
  | rom read rest event hevent howner hrest =>
    refine supply_listed hrest ?_
    cases role <;> cases hevent <;> rfl
  | memory read rest event hevent howner hrest =>
    refine supply_listed hrest ?_
    cases role <;> cases hevent <;> rfl

theorem supply_dataRead {address value : ℕ}
    (h : DataRead authentication before address value after) :
    after.supply = before.supply := by
  cases h with
  | rom read rest hexternal howner hrest => exact supply_listed hrest rfl
  | memory read rest hplace hrest => exact supply_listed hrest rfl
  | openBus => exact supply_kept rfl
  | input byte rest howner hrest => exact supply_listed hrest (inputWitness_byte byte)
  | mmio => exact supply_kept rfl
  | joypad buttons rest hprofile haddress hrest =>
    exact supply_listed hrest (inputWitness_byte buttons)

theorem supply_dataWrite {address written : ℕ}
    (h : DataWrite authentication before address written after) :
    after.supply = before.supply := by
  cases h with
  | memory write rest roots hplace hrest => exact supply_listed hrest rfl
  | control => exact supply_kept rfl
  | ignored => exact supply_kept rfl
  | output => exact supply_kept rfl
  | mmio => exact supply_kept rfl

theorem supply_dmaByte {value : Unit}
    (hrun : Accepts (copyDmaByte authentication) before value after) :
    after.supply = before.supply := by
  obtain ⟨byte, middle, write, rest, roots, hread, hrest, _, _, _, _, rfl⟩ :=
    dmaByte_of_accepts hrun
  have hmiddle : middle.supply = before.supply := by
    cases hread with
    | rom read left howner hleft => exact supply_listed hleft rfl
    | memory read left hplace hleft => exact supply_listed hleft rfl
  rw [← hmiddle]
  exact supply_listed hrest rfl

theorem supply_performs {access : Access}
    (h : (machineBus authentication).Performs before access after) :
    after.supply = before.supply := by
  cases h with
  | fetch hfetch => exact supply_fetched ((accepts_fetchInstruction _ _ _).mp hfetch).2
  | read hread => exact supply_dataRead (dataRead_of_accepts hread).2
  | write hwrite => exact supply_dataWrite (dataWrite_of_accepts hwrite).2

theorem supply_runs {accesses : List Access}
    (h : Runs (machineBus authentication).Performs before accesses after) :
    after.supply = before.supply :=
  h.invariant (fun state => state.supply = before.supply)
    (fun hstate hstep => (supply_performs hstep).trans hstate) rfl

end BusState

namespace Step

variable {authentication : BusAuthentication π τ} {state : VmState}
  {before after : Executor (BusState π τ)}

theorem supply_advanced (increment : ℕ) (dmaActiveAtStart : Bool) :
    (advanced before increment dmaActiveAtStart).bus.supply = before.bus.supply := rfl

theorem supply_instructionStep {instruction : DecodedInstruction} {branchTaken : Bool}
    (hrun : Accepts (instructionStep authentication state) before (instruction, branchTaken)
      after) :
    after.bus.supply = before.bus.supply := by
  obtain ⟨executed, hfetch, _, rfl⟩ := instructionStep_ok hrun
  obtain ⟨immediates, middle, _, _, hfirst, hrest⟩ :=
    Exec.performs_fetchAndExecute (BusState.fetchesBytes_machineBus authentication) hfetch
  have hruns := BusState.supply_runs (hfirst.append hrest)
  exact (supply_advanced _ _).trans hruns

theorem supply_eventAction {event : DmgMachineEvent} {value : Unit}
    (hrun : Accepts (eventAction authentication event) before value after) :
    after.bus.supply = before.bus.supply := by
  cases event with
  | interrupt interrupt =>
    obtain ⟨pushed, hpush, _, rfl⟩ := (accepts_dispatchInterrupt _ _).mp hrun
    have hword : Accepts (Exec.pushWord (machineBus authentication) before.cpu.pc)
        (acknowledged before interrupt) () pushed := hpush
    have hruns := BusState.supply_runs (Exec.performs_pushWord hword)
    exact (supply_advanced _ _).trans hruns
  | haltWake =>
    obtain rfl := (accepts_haltWake _).mp hrun
    rfl
  | haltUntilVblank increment | haltUntilSerial increment | haltUntilTimer increment =>
    obtain ⟨_, rfl⟩ := (accepts_haltUntil _ _).mp hrun
    rfl
  | haltIdle =>
    obtain ⟨_, rfl⟩ := (accepts_haltIdle _).mp hrun
    rfl

theorem supply_marked {kind : StepKind} {marker : ℕ} {action : StepAction π τ Unit}
    {outcome : Outcome}
    (haction : Keeps (fun before after => after.bus.supply = before.bus.supply) action)
    (hrun : Accepts (marked kind marker action) before outcome after) :
    after.bus.supply = before.bus.supply := by
  obtain ⟨_, middle, hmiddle, hrest⟩ := (accepts_bind _ _ _ _ _).mp hrun
  rw [← haction hmiddle]
  cases hmarker : decodePrimary marker with
  | none =>
    rw [hmarker] at hrest
    exact absurd hrest (accepts_throw _ _ _ _)
  | some instruction =>
    rw [hmarker] at hrest
    obtain ⟨_, rfl⟩ := (accepts_pure _ _ _ _).mp hrest
    rfl

theorem supply_instructionAction {outcome : Outcome}
    (hrun : Accepts (instructionAction authentication state) before outcome after) :
    after.bus.supply = before.bus.supply := by
  unfold instructionAction at hrun
  split at hrun
  · obtain ⟨⟨instruction, branchTaken⟩, middle, hmiddle, hrest⟩ := (accepts_bind _ _ _ _ _).mp hrun
    obtain ⟨_, rfl⟩ := (accepts_pure _ _ _ _).mp hrest
    exact supply_instructionStep hmiddle
  · exact absurd hrun (accepts_throw _ _ _ _)

theorem supply_chosen {outcome : Outcome}
    (hrun : Accepts (chosen authentication state) before outcome after) :
    after.bus.supply = before.bus.supply := by
  unfold chosen at hrun
  split at hrun
  · split at hrun
    · refine supply_marked (fun first value second hbyte => ?_) hrun
      obtain ⟨bus, hcopy, rfl⟩ := (Exec.accepts_onBus _ _).mp hbyte
      exact BusState.supply_dmaByte hcopy
    · split at hrun
      · exact absurd hrun (accepts_throw _ _ _ _)
      · exact supply_marked (fun _ _ _ hevent => supply_eventAction hevent) hrun
      · exact supply_instructionAction hrun
  · exact supply_instructionAction hrun

/-- What an accepted step did, and that no witness was left when it committed. -/
theorem apply_eq_ok {roots : τ} {input : List (BusWitness π)} {final : VmState × τ}
    {effects : StepEffects π}
    (h : apply authentication state roots input = .ok (final, effects)) :
    ∃ next, Accepts (chosen authentication state) (start state roots input)
        (effects.kind, effects.instruction, effects.branchTaken) next ∧
      next.bus.witnesses = [] ∧ effects.busEvents = next.bus.events ∧
      authentication.commit next.bus.roots effects.busEvents effects.instruction = .ok final.2 ∧
      final.1 = reached next := by
  rw [apply_eq] at h
  cases hended : settled (outcome (chosen authentication state) (start state roots input)) with
  | error error =>
    rw [hended] at h
    cases h
  | ok ended =>
    rw [hended] at h
    obtain ⟨⟨kind, instruction, branchTaken⟩, next⟩ := ended
    obtain ⟨hwitnesses, hcommit, hfinal, rfl⟩ := finish_ok h
    exact ⟨next, settled_eq_ok.mp hended, hwitnesses, rfl, hcommit, hfinal⟩

/-- An accepted step was given the witnesses of its events. -/
theorem witnesses_of_apply {roots : τ} {input : List (BusWitness π)} {final : VmState × τ}
    {effects : StepEffects π}
    (h : apply authentication state roots input = .ok (final, effects)) :
    effects.busEvents.filterMap BusEvent.witness = input := by
  obtain ⟨next, hchosen, hwitnesses, hevents, _, _⟩ := apply_eq_ok h
  have hsupply := supply_chosen hchosen
  rw [BusState.supply, hwitnesses, List.append_nil, ← hevents] at hsupply
  exact hsupply

end Step

end Zksm83
