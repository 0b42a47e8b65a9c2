import Zksm83.Core.WitnessOrder
import Zksm83.Library.Failure
import Zksm83.Trace.LoggedBus

/-!
# What a step enters into the logs

A step whose accesses extend the logs enters the byte of every input and output event, in the order
of the events and under consecutive indices. So the logs after the step are the logs before it,
extended over the events, and the two reference relations agree.
-/

namespace Zksm83

open Rejecting BusState

/-- The index and the byte that an event took from the private input. -/
def BusEvent.inputEntry {π : Type} : BusEvent π → Option (ℕ × Byte)
  | .inputRead index value => some (index, Fin.ofNat 256 value)
  | .dmgJoypadRead index _ buttons _ => some (index, Fin.ofNat 256 buttons)
  | _ => none

/-- The index and the byte that an event put out. -/
def BusEvent.outputEntry {π : Type} : BusEvent π → Option (ℕ × Byte)
  | .outputWrite index value => some (index, Fin.ofNat 256 value)
  | _ => none

/-- The input byte that a witness gives. -/
def BusWitness.inputValue {π : Type} : BusWitness π → Option Byte
  | .inputByte value => some value
  | .rom _ | .memoryRead _ | .memoryWrite _ => none

/-- The input bytes that events took, as their witnesses gave them. -/
def TakesInput {π : Type} (events : List (BusEvent π)) : Prop :=
  (events.filterMap BusEvent.inputEntry).map Prod.snd =
    (events.filterMap BusEvent.witness).filterMap BusWitness.inputValue

namespace TakesInput

variable {π : Type} {events more : List (BusEvent π)} {event : BusEvent π}

theorem nil : TakesInput ([] : List (BusEvent π)) := rfl

theorem append (hfirst : TakesInput events) (hrest : TakesInput more) :
    TakesInput (events ++ more) := by
  unfold TakesInput at hfirst hrest ⊢
  rw [List.filterMap_append, List.map_append, hfirst, hrest, List.filterMap_append,
    List.filterMap_append]

/-- An event without an input byte has no witness with one. -/
theorem of_quiet (hnoInput : event.inputEntry = none) : TakesInput [event] := by
  cases event <;> first | rfl | cases hnoInput

theorem of_input {index : ℕ} {value : Byte} (hentry : event.inputEntry = some (index, value))
    (hwitness : event.witness = some (.inputByte value)) : TakesInput [event] := by
  unfold TakesInput
  rw [List.filterMap_cons_some hentry, List.filterMap_cons_some hwitness]
  rfl

end TakesInput

/-- One log goes on to another over some entries: their indices are consecutive, and appending their
bytes leads from the first log to the second. -/
structure LogAccumulator.Extends (sha256 : List Byte → CommitmentRoot)
    (before after : LogAccumulator) (entries : List (ℕ × Byte)) : Prop where
  indices : entries.map Prod.fst = List.range' before.nextIndex entries.length
  log : (entries.map Prod.snd).foldlM (LogAccumulator.append sha256) before = .ok after

namespace LogAccumulator

variable {sha256 : List Byte → CommitmentRoot} {before middle after : LogAccumulator}
  {entries more : List (ℕ × Byte)} {value : Byte}

theorem append_eq_ok (h : before.append sha256 value = .ok after) :
    after = ⟨before.kind, before.nextIndex + 1, appendLog sha256 before.kind.elementDomain
      before.root before.nextIndex value⟩ := by
  unfold append at h
  split_ifs at h
  exact (Except.ok.inj h).symm

namespace Extends

theorem nil (log : LogAccumulator) : Extends sha256 log log [] := ⟨rfl, rfl⟩

theorem single (h : before.append sha256 value = .ok after) :
    Extends sha256 before after [(before.nextIndex, value)] :=
  ⟨rfl, Except.bind_eq_ok.mpr ⟨after, h, rfl⟩⟩

/-- The index counts the entries, and the kind stays. -/
theorem counts (h : Extends sha256 before after entries) :
    after.nextIndex = before.nextIndex + entries.length ∧ after.kind = before.kind := by
  obtain ⟨-, h⟩ := h
  induction entries generalizing before with
  | nil =>
    cases h
    exact ⟨rfl, rfl⟩
  | cons entry entries ih =>
    obtain ⟨next, hnext, h⟩ := Except.of_bind_eq_ok h
    obtain ⟨hindex, hkind⟩ := ih h
    rw [append_eq_ok hnext] at hindex hkind
    dsimp only at hindex hkind
    rw [List.length_cons]
    exact ⟨by omega, hkind⟩

theorem append (hfirst : Extends sha256 before middle entries)
    (hrest : Extends sha256 middle after more) : Extends sha256 before after (entries ++ more) where
  indices := by
    rw [List.map_append, hfirst.indices, hrest.indices, hfirst.counts.1, List.length_append,
      List.range'_append_1]
  log := by
    rw [List.map_append, List.foldlM_append, hfirst.log]
    exact hrest.log

/-- The root of the extended log. -/
theorem root_eq (h : Extends sha256 before after entries) :
    after.root = entries.foldl (fun root entry =>
      appendLog sha256 before.kind.elementDomain root entry.1 entry.2) before.root := by
  obtain ⟨hindices, h⟩ := h
  induction entries generalizing before with
  | nil =>
    cases h
    rfl
  | cons entry entries ih =>
    obtain ⟨next, hnext, h⟩ := Except.of_bind_eq_ok h
    obtain rfl := append_eq_ok hnext
    rw [List.map_cons, List.length_cons, List.range'_succ, List.cons.injEq] at hindices
    rw [ih hindices.2 h, List.foldl_cons, hindices.1]

end Extends

end LogAccumulator

namespace LoggedBus

variable (sha256 : List Byte → CommitmentRoot)

/-- The accesses between two states of the bus entered their bytes into the logs, and left the
transcript to the end of the step. -/
def Logged (before after : MerkleBus) : Prop :=
  after.roots.busTranscript = before.roots.busTranscript ∧ ∃ events, after.events = before.events ++ events ∧
    TakesInput events ∧
    (inputLog before).Extends sha256 (inputLog after) (events.filterMap BusEvent.inputEntry) ∧
    (outputLog before).Extends sha256 (outputLog after) (events.filterMap BusEvent.outputEntry)

variable {sha256}

theorem Logged.trans {first second third : MerkleBus} (hfirst : Logged sha256 first second)
    (hrest : Logged sha256 second third) : Logged sha256 first third := by
  obtain ⟨htranscript, events, hevents, htakes, hinput, houtput⟩ := hfirst
  obtain ⟨htranscript', more, hmore, htakes', hinput', houtput'⟩ := hrest
  refine ⟨htranscript'.trans htranscript, events ++ more, ?_, htakes.append htakes', ?_, ?_⟩
  · rw [hmore, hevents, List.append_assoc]
  · rw [List.filterMap_append]
    exact hinput.append hinput'
  · rw [List.filterMap_append]
    exact houtput.append houtput'

/-- A change that touches neither the logs nor the events. -/
theorem Logged.of_same {before after : MerkleBus}
    (htranscript : after.roots.busTranscript = before.roots.busTranscript)
    (hevents : after.events = before.events)
    (hinput : inputLog after = inputLog before) (houtput : outputLog after = outputLog before) :
    Logged sha256 before after := by
  refine ⟨htranscript, [], by rw [hevents, List.append_nil], .nil, ?_, ?_⟩
  · rw [hinput]
    exact .nil _
  · rw [houtput]
    exact .nil _

theorem Logged.refl (state : MerkleBus) : Logged sha256 state state := .of_same rfl rfl rfl rfl

/-- An event without a byte of a log. -/
theorem Logged.of_quiet {before after : MerkleBus} {event : BusEvent MerklePath}
    (htranscript : after.roots.busTranscript = before.roots.busTranscript)
    (hevents : after.events = before.events ++ [event])
    (hinput : inputLog after = inputLog before) (houtput : outputLog after = outputLog before)
    (hnoInput : event.inputEntry = none) (hnoOutput : event.outputEntry = none) :
    Logged sha256 before after := by
  refine ⟨htranscript, [event], hevents, .of_quiet hnoInput, ?_, ?_⟩
  · rw [hinput, List.filterMap_cons_none hnoInput]
    exact .nil _
  · rw [houtput, List.filterMap_cons_none hnoOutput]
    exact .nil _

theorem logged_bind {α β : Type} {action : BusAction MerklePath AuthenticationRoots α}
    {continuation : α → BusAction MerklePath AuthenticationRoots β}
    (hfirst : Keeps (Logged sha256) action)
    (hrest : ∀ value, Keeps (Logged sha256) (continuation value)) :
    Keeps (Logged sha256) (action >>= continuation) :=
  Keeps.bind (fun h h' => h.trans h') hfirst hrest

theorem logged_get {α : Type} {continuation : MerkleBus → BusAction MerklePath AuthenticationRoots α}
    (hrest : ∀ state, Keeps (Logged sha256) (continuation state)) :
    Keeps (Logged sha256) (get >>= continuation) := by
  refine logged_bind ?_ hrest
  intro before value after hrun
  obtain ⟨-, rfl⟩ := (accepts_get _ _ _).mp hrun
  exact .refl _

theorem logged_fetchInstruction (address : ℕ) (role : BusRole) :
    Keeps (Logged sha256) (fetchInstruction (.merkle sha256) address role) := by
  intro before value after hrun
  obtain ⟨-, hfetched⟩ := (accepts_fetchInstruction _ _ _).mp hrun
  cases hfetched with
  | rom read rest event hevent =>
    cases role <;> cases hevent <;> exact .of_quiet rfl rfl rfl rfl rfl rfl
  | memory read rest event hevent =>
    cases role <;> cases hevent <;> exact .of_quiet rfl rfl rfl rfl rfl rfl

theorem logged_fetch (address : ℕ) (role : BusRole) :
    Keeps (Logged sha256) (fetch (.merkle sha256) address role) := by
  intro before value after hrun
  obtain ⟨read, rest, event, hevent, -, -, -, -, -, rfl⟩ := (accepts_fetch _ _ _).mp hrun
  cases role <;> cases hevent <;> exact .of_quiet rfl rfl rfl rfl rfl rfl

theorem logged_readMemory (address physicalAddress : ℕ) :
    Keeps (Logged sha256) (readMemory (.merkle sha256) address physicalAddress) := by
  intro before value after hrun
  obtain ⟨read, rest, -, -, -, -, -, rfl⟩ := (accepts_readMemory _ _ _).mp hrun
  exact .of_quiet rfl rfl rfl rfl rfl rfl

theorem logged_writeMemory (address physicalAddress written : ℕ) :
    Keeps (Logged sha256) (writeMemory (.merkle sha256) address physicalAddress written) := by
  intro before value after hrun
  obtain ⟨write, rest, roots, -, -, -, -, hverify, rfl⟩ := (accepts_writeMemory _ _ _ _).mp hrun
  obtain ⟨memoryRoot, -, hroots⟩ := Except.of_bind_eq_ok hverify
  cases hroots
  exact .of_quiet rfl rfl rfl rfl rfl rfl

theorem logged_readDmgMmio (address : ℕ) : Keeps (Logged sha256) (readDmgMmio address) := by
  intro before value after hrun
  obtain ⟨-, rfl⟩ := (accepts_readDmgMmio _ _).mp hrun
  exact .of_quiet rfl rfl rfl rfl rfl rfl

theorem logged_writeDmgMmio (address written : ℕ) :
    Keeps (Logged sha256) (writeDmgMmio address written) := by
  intro before value after hrun
  obtain ⟨visible, devices, -, rfl⟩ := (accepts_writeDmgMmio _ _ _).mp hrun
  exact .of_quiet rfl rfl rfl rfl rfl rfl

theorem logged_pushEvent {event : BusEvent MerklePath} (hnoInput : event.inputEntry = none)
    (hnoOutput : event.outputEntry = none) : Keeps (Logged sha256) (pushEvent event) := by
  intro before value after hrun
  obtain rfl := (accepts_pushEvent _ _).mp hrun
  exact .of_quiet rfl rfl rfl rfl hnoInput hnoOutput

theorem logged_readExternal (address : ℕ) :
    Keeps (Logged sha256) (readExternal (.merkle sha256) address) := by
  refine logged_get fun state => ?_
  split
  · exact logged_readMemory _ _
  · exact .throw _
  · exact logged_bind (logged_pushEvent rfl rfl) fun _ => .pure (fun state => .refl state) _

theorem logged_writeExternal (address written : ℕ) :
    Keeps (Logged sha256) (writeExternal (.merkle sha256) address written) := by
  refine logged_get fun state => ?_
  split
  · exact logged_writeMemory _ _ _
  · exact .throw _
  · exact logged_pushEvent rfl rfl

/-- An extended log. -/
theorem accepts_extend {log extended : LogAccumulator} {value : Byte} {before after : MerkleBus} :
    Accepts (log.extend sha256 value) before extended after ↔
      log.append sha256 value = .ok extended ∧ after = before := by
  unfold LogAccumulator.extend
  rw [accepts_lift, Except.mapError_eq_ok]

/-- An input byte, entered under the index of its event. -/
theorem Logged.of_input {before after : MerkleBus} {event : BusEvent MerklePath} {value : Byte}
    (htranscript : after.roots.busTranscript = before.roots.busTranscript)
    (hevents : after.events = before.events ++ [event])
    (hlog : (inputLog before).append sha256 value = .ok (inputLog after))
    (houtput : outputLog after = outputLog before)
    (hentry : event.inputEntry = some (before.inputNext, value))
    (hwitness : event.witness = some (.inputByte value))
    (hnoOutput : event.outputEntry = none) : Logged sha256 before after := by
  refine ⟨htranscript, [event], hevents, .of_input hentry hwitness, ?_, ?_⟩
  · rw [List.filterMap_cons_some hentry]
    exact .single hlog
  · rw [houtput, List.filterMap_cons_none hnoOutput]
    exact .nil _

/-- A log of the bus after its byte was appended. -/
theorem inputLog_of_append {before : MerkleBus} {extended : LogAccumulator} {value : Byte}
    (h : (inputLog before).append sha256 value = .ok extended) :
    extended = ⟨.input, extended.nextIndex, extended.root⟩ := by
  rw [LogAccumulator.append_eq_ok h]
  rfl

theorem outputLog_of_append {before : MerkleBus} {extended : LogAccumulator} {value : Byte}
    (h : (outputLog before).append sha256 value = .ok extended) :
    extended = ⟨.output, extended.nextIndex, extended.root⟩ := by
  rw [LogAccumulator.append_eq_ok h]
  rfl

theorem logged_readInput : Keeps (Logged sha256) (readInput sha256) := by
  intro before value after hrun
  simp only [readInput, accepts_bind, accepts_next] at hrun
  obtain ⟨witness, _, ⟨rest, hwitnesses, hkind, rfl⟩, hrun⟩ := hrun
  cases witness with
  | inputByte byte =>
    simp only [accepts_bind, accepts_get, accepts_extend, setInputLog, accepts_modify,
      accepts_pushEvent, accepts_pure] at hrun
    obtain ⟨_, _, ⟨rfl, rfl⟩, extended, _, ⟨hlog, rfl⟩, _, _, rfl, _, _, rfl, rfl, rfl⟩ := hrun
    refine .of_input rfl rfl (hlog.trans (congrArg _ (inputLog_of_append hlog))) rfl ?_ (inputWitness_byte _) rfl
    rw [BusEvent.inputEntry, Fin.ofNat_val_eq_self]
    rfl
  | rom _ | memoryRead _ | memoryWrite _ => exact absurd hrun (accepts_throw _ _ _ _)

theorem logged_readDmgJoypad : Keeps (Logged sha256) (readDmgJoypad sha256) := by
  intro before value after hrun
  simp only [readDmgJoypad, accepts_bind, accepts_next] at hrun
  obtain ⟨witness, _, ⟨rest, hwitnesses, hkind, rfl⟩, hrun⟩ := hrun
  cases witness with
  | inputByte buttons =>
    simp only [accepts_bind, accepts_get, accepts_extend, setInputLog, accepts_modify,
      accepts_pushEvent, accepts_pure] at hrun
    obtain ⟨_, _, ⟨rfl, rfl⟩, extended, _, ⟨hlog, rfl⟩, _, _, rfl, _, _, rfl, _, _, rfl, rfl,
      rfl⟩ := hrun
    refine .of_input rfl rfl (hlog.trans (congrArg _ (inputLog_of_append hlog))) rfl ?_ (inputWitness_byte _) rfl
    rw [BusEvent.inputEntry, Fin.ofNat_val_eq_self]
    rfl
  | rom _ | memoryRead _ | memoryWrite _ => exact absurd hrun (accepts_throw _ _ _ _)

theorem logged_writeOutput (written : ℕ) : Keeps (Logged sha256) (writeOutput sha256 written) := by
  intro before value after hrun
  simp only [writeOutput, accepts_bind, accepts_get, accepts_extend, setOutputLog, accepts_modify,
    accepts_pushEvent] at hrun
  obtain ⟨_, _, ⟨rfl, rfl⟩, extended, _, ⟨hlog, rfl⟩, _, _, rfl, rfl⟩ := hrun
  refine ⟨rfl, [_], rfl, .of_quiet rfl, .nil _, ?_⟩
  exact .single (hlog.trans (congrArg _ (outputLog_of_append hlog)))

/-- The checks of an access change nothing. -/
theorem logged_checked {α : Type} (address : ℕ) {action : BusAction MerklePath AuthenticationRoots α}
    (haction : Keeps (Logged sha256) action) :
    Keeps (Logged sha256)
      (do requireCpuDmaAccess address; requireCpuPpuAccess address; action) := by
  refine logged_bind ?_ fun _ => logged_bind ?_ fun _ => haction
  · intro before value after hrun
    obtain ⟨-, rfl⟩ := (accepts_requireCpuDmaAccess _ _).mp hrun
    exact .refl _
  · intro before value after hrun
    obtain ⟨-, rfl⟩ := (accepts_requireCpuPpuAccess _ _).mp hrun
    exact .refl _

theorem logged_readData (address : ℕ) : Keeps (Logged sha256) (readData sha256 address) := by
  refine logged_checked address (logged_get fun state => ?_)
  split
  · exact logged_readDmgJoypad
  split
  · exact logged_readExternal address
  cases state.ownerOf address with
  | rom => exact logged_fetch address .dataRead
  | memory => exact logged_readMemory address address
  | input => exact logged_readInput
  | dmgMmio => exact logged_readDmgMmio address
  | output | dmgEcho | unowned => exact .throw _

theorem logged_writeData (address written : ℕ) :
    Keeps (Logged sha256) (writeData sha256 address written) := by
  refine logged_checked address ?_
  split
  · intro before value after hrun
    obtain rfl := (accepts_writeControl _ _ _).mp hrun
    exact .of_quiet rfl rfl rfl rfl rfl rfl
  split
  · exact logged_writeExternal address written
  refine logged_get fun state => ?_
  cases state.ownerOf address with
  | memory => exact logged_writeMemory address address written
  | output => exact logged_writeOutput written
  | dmgMmio => exact logged_writeDmgMmio address written
  | rom | input | dmgEcho | unowned => exact .throw _

theorem logged_copyDmaByte : Keeps (Logged sha256) (copyDmaByte (.merkle sha256)) := by
  intro before value after hrun
  obtain ⟨byte, middle, write, rest, roots, hread, -, -, -, -, hverify, rfl⟩ :=
    dmaByte_of_accepts hrun
  obtain ⟨memoryRoot, -, hroots⟩ := Except.of_bind_eq_ok hverify
  cases hroots
  have hmiddle : Logged sha256 before middle := by
    cases hread with
    | rom | memory => exact .of_quiet rfl rfl rfl rfl rfl rfl
  exact hmiddle.trans (.of_quiet rfl rfl rfl rfl rfl rfl)

/-- A sequence of accesses enters its bytes into the logs. -/
theorem logged_runs {accesses : List Access} {before after : MerkleBus}
    (h : Runs (bus sha256).Performs before accesses after) : Logged sha256 before after := by
  refine h.invariant (fun state => Logged sha256 before state) ?_ (.refl before)
  intro state access next hstate hstep
  cases hstep with
  | fetch hfetch => exact hstate.trans (logged_fetchInstruction _ _ hfetch)
  | read hread => exact hstate.trans (logged_readData _ hread)
  | write hwrite => exact hstate.trans (logged_writeData _ _ hwrite)

theorem fetchesBytes_bus : (bus sha256).FetchesBytes :=
  fetchesBytes_machineBus (.merkle sha256)

end LoggedBus

end Zksm83
