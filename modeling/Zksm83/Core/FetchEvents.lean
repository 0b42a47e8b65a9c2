import Zksm83.Core.Authentication
import Zksm83.Core.IsaSimulation

/-!
# Where an instruction was fetched

The events of an accepted instruction step list its accesses one by one, and the event of a fetch
tells whether the byte came from ROM or from mutable memory: the two meet at address 8000. So an
instruction that starts in ROM and reaches mutable memory does so right behind the boundary, and one
that lies in ROM falls through to the boundary at most.
-/

namespace Zksm83

open Rejecting

variable {π τ : Type}

/-- The event of an instruction byte from mutable memory. -/
def BusEvent.isMutableFetch : BusEvent π → Bool
  | .memoryOpcodeFetch _ | .memoryImmediateRead _ => true
  | _ => false

/-- The role of an access that fetches an instruction byte. -/
def BusRole.IsFetch (role : BusRole) : Prop := role = .opcodeFetch ∨ role = .immediateRead

/-- The event that lists an access. -/
structure Lists (access : Access) (event : BusEvent π) : Prop where
  role_eq : event.role = some access.role
  mutable_iff : access.role.IsFetch → (event.isMutableFetch = true ↔ 0x8000 ≤ access.address)
  address_eq : event.isMutableFetch = true → event.transcriptEvent.address = access.address

theorem BusEvent.role_of_isMutableFetch {event : BusEvent π} (h : event.isMutableFetch = true) :
    ∃ role, role.IsFetch ∧ event.role = some role := by
  cases event with
  | memoryOpcodeFetch read => exact ⟨.opcodeFetch, Or.inl rfl, rfl⟩
  | memoryImmediateRead read => exact ⟨.immediateRead, Or.inr rfl, rfl⟩
  | _ => cases h

theorem Lists.isFetch {access : Access} {event : BusEvent π} (h : Lists access event)
    (hmutable : event.isMutableFetch = true) : access.role.IsFetch := by
  obtain ⟨role, hfetch, hrole⟩ := BusEvent.role_of_isMutableFetch hmutable
  rw [h.role_eq] at hrole
  cases hrole
  exact hfetch

/-- The event of a data access is no fetch. -/
theorem lists_of_data {access : Access} {event : BusEvent π} (hrole : event.role = some access.role)
    (hdata : ¬ access.role.IsFetch) : Lists access event := by
  have hnone : event.isMutableFetch ≠ true := by
    intro hmutable
    obtain ⟨role, hfetch, hother⟩ := BusEvent.role_of_isMutableFetch hmutable
    rw [hrole] at hother
    cases hother
    exact hdata hfetch
  exact ⟨hrole, fun hfetch => absurd hfetch hdata, fun hmutable => absurd hmutable hnone⟩

/-- Every listed event belongs to an access. -/
theorem exists_access {accesses : List Access} {events : List (BusEvent π)}
    (h : List.Forall₂ Lists accesses events) {event : BusEvent π} (hevent : event ∈ events) :
    ∃ access ∈ accesses, Lists access event := by
  induction h with
  | nil => cases hevent
  | cons hlists _ ih =>
    rcases List.mem_cons.mp hevent with rfl | hrest
    · exact ⟨_, List.mem_cons_self .., hlists⟩
    · obtain ⟨access, haccess, hlisted⟩ := ih hrest
      exact ⟨access, List.mem_cons_of_mem _ haccess, hlisted⟩

/-- Every access has a listed event. -/
theorem exists_event {accesses : List Access} {events : List (BusEvent π)}
    (h : List.Forall₂ Lists accesses events) {access : Access} (haccess : access ∈ accesses) :
    ∃ event ∈ events, Lists access event := by
  induction h with
  | nil => cases haccess
  | cons hlists _ ih =>
    rcases List.mem_cons.mp haccess with rfl | hrest
    · exact ⟨_, List.mem_cons_self .., hlists⟩
    · obtain ⟨event, hevent, hlisted⟩ := ih hrest
      exact ⟨event, List.mem_cons_of_mem _ hevent, hlisted⟩

namespace BusState

variable {authentication : BusAuthentication π τ} {before after : BusState π τ}

/-- ROM lies below address 8000 under every profile. -/
theorem lt_of_ownerOf_rom {address : ℕ} (howner : before.ownerOf address = .rom) :
    address < 0x8000 := by
  unfold ownerOf dmgOwner Zksm83.owner at howner
  by_contra hhigh
  split_ifs at howner <;> omega

theorem le_of_ownerOf_memory {address : ℕ} (howner : before.ownerOf address = .memory) :
    0x8000 ≤ address := by
  unfold ownerOf dmgOwner Zksm83.owner at howner
  by_contra hlow
  split_ifs at howner <;> omega

theorem lists_of_fetched {address value : ℕ} {role : BusRole}
    (h : Fetched authentication before address role value after) :
    ∃ event, after.events = before.events ++ [event] ∧ Lists ⟨role, address⟩ event := by
  cases h with
  | rom read rest event hevent howner hrest haddress =>
    have hlow := lt_of_ownerOf_rom howner
    refine ⟨event, rfl, ?_⟩
    cases role <;> cases hevent
    all_goals refine ⟨rfl, fun _ => iff_of_false ?_ (by simpa using hlow), fun h => ?_⟩
    all_goals first | exact Bool.false_ne_true | cases h
  | memory read rest event hevent howner hrest haddress =>
    have hhigh := le_of_ownerOf_memory howner
    refine ⟨event, rfl, ?_⟩
    cases role <;> cases hevent
    all_goals exact ⟨rfl, fun _ => iff_of_true rfl hhigh, fun _ => haddress⟩

/-- An access of the machine bus lists one event. -/
theorem lists_of_performs {access : Access}
    (h : (machineBus authentication).Performs before access after) :
    ∃ event, after.events = before.events ++ [event] ∧ Lists access event := by
  cases h with
  | fetch hfetch => exact lists_of_fetched ((accepts_fetchInstruction _ _ _).mp hfetch).2
  | read hread =>
    obtain ⟨event, haccess, hrole⟩ := accessed_of_dataRead (dataRead_of_accepts hread).2
    exact ⟨event, haccess.events_eq, lists_of_data hrole (by rintro (h | h) <;> cases h)⟩
  | write hwrite =>
    obtain ⟨hopen, hdone⟩ := dataWrite_of_accepts hwrite
    obtain ⟨event, haccess, hrole⟩ := accessed_of_dataWrite hopen hdone
    exact ⟨event, haccess.events_eq, lists_of_data hrole (by rintro (h | h) <;> cases h)⟩

theorem lists_of_runs {accesses : List Access}
    (h : Runs (machineBus authentication).Performs before accesses after) :
    ∃ events, after.events = before.events ++ events ∧ List.Forall₂ Lists accesses events := by
  induction h with
  | nil state => exact ⟨[], (List.append_nil _).symm, .nil⟩
  | cons hstep _ ih =>
    obtain ⟨event, hevent, hlists⟩ := lists_of_performs hstep
    obtain ⟨events, hevents, hall⟩ := ih
    refine ⟨event :: events, ?_, .cons hlists hall⟩
    rw [hevents, hevent, List.append_assoc, List.singleton_append]

end BusState

namespace Exec

theorem role_of_mem_fetchAccesses {cpu : CpuState} {instruction : DecodedInstruction}
    {access : Access} (hmem : access ∈ fetchAccesses cpu instruction) : access.role.IsFetch := by
  have hrole := List.mem_map_of_mem (f := Access.role) hmem
  rw [roles_fetchAccesses, List.mem_append, List.mem_replicate, List.mem_replicate] at hrole
  exact hrole.imp And.right And.right

/-- Immediates are fetched from the program counter on. -/
theorem address_of_mem_immediateAccesses {pc count : ℕ} {access : Access}
    (hmem : access ∈ immediateAccesses pc count) : access.address < pc + count := by
  induction count generalizing pc with
  | zero => cases hmem
  | succ count ih =>
    rcases List.mem_cons.mp hmem with rfl | hrest
    · show pc < _
      omega
    · have hnext : (pc + 1) % 65536 ≤ pc + 1 := Nat.mod_le _ _
      have hlt := ih hrest
      omega

/-- Where all immediates lie in ROM, the program counter ends at most at the boundary. -/
theorem advancedPc_le {pc count : ℕ} (hpc : pc ≤ 0x8000)
    (hrom : ∀ access ∈ immediateAccesses pc count, access.address < 0x8000) :
    advancedPc pc count ≤ 0x8000 := by
  induction count generalizing pc with
  | zero => exact hpc
  | succ count ih =>
    have hfirst : pc < 0x8000 := hrom _ (List.mem_cons_self ..)
    have hnext : (pc + 1) % 65536 = pc + 1 := Nat.mod_eq_of_lt (by omega)
    refine ih (by omega) ?_
    intro access haccess
    exact hrom access (List.mem_cons_of_mem _ haccess)

variable {cpu : CpuState} {instruction : DecodedInstruction} {immediates : List ℕ}

theorem nextFetch_le (cpu : CpuState) : nextFetch cpu ≤ cpu.pc + 1 := by
  unfold nextFetch
  split_ifs
  · omega
  · exact Nat.mod_le _ _

theorem byteLen_le (hdecoded : IsDecoded instruction immediates) : instruction.byteLen ≤ 3 :=
  hdecoded.of_bytes (fun decoded => decoded.byteLen ≤ 3) (by decide +kernel) (by decide +kernel)

theorem byteLen_of_cb (hdecoded : IsDecoded instruction immediates) {opcode : ℕ}
    (hencoding : instruction.encoding = .cb opcode) : instruction.byteLen = 2 := by
  cases hdecoded with
  | primary hbyte hopcode hdecode hlength =>
    unfold decodePrimary at hdecode
    split at hdecode
    · cases hdecode
    · cases hdecode
      cases hencoding
  | cb hbyte => rfl

/-- An instruction has its bytes at the program counter and at the two addresses behind it. -/
theorem address_of_mem_fetchAccesses (hdecoded : IsDecoded instruction immediates)
    {access : Access} (hmem : access ∈ fetchAccesses cpu instruction) :
    access.address ≤ cpu.pc + 2 := by
  have hnext := nextFetch_le cpu
  have hlength := byteLen_le hdecoded
  rcases List.mem_cons.mp hmem with rfl | hrest
  · exact Nat.le_add_right _ _
  cases hencoding : instruction.encoding with
  | primary opcode =>
    rw [hencoding] at hrest
    have hlt := address_of_mem_immediateAccesses hrest
    omega
  | cb opcode =>
    rw [hencoding] at hrest
    rw [List.mem_singleton.mp hrest]
    show nextFetch cpu ≤ _
    omega

/-- An instruction whose bytes lie in ROM falls through to the boundary at most. -/
theorem fetchedCpu_pc_le (hdecoded : IsDecoded instruction immediates)
    (hrom : ∀ access ∈ fetchAccesses cpu instruction, access.address < 0x8000) :
    (fetchedCpu cpu instruction).pc ≤ 0x8000 := by
  have hfirst : cpu.pc < 0x8000 := hrom _ (List.mem_cons_self ..)
  have hnext := nextFetch_le cpu
  show advancedPc (nextFetch cpu) (instruction.byteLen - 1) ≤ 0x8000
  cases hencoding : instruction.encoding with
  | primary opcode =>
    refine advancedPc_le (by omega) ?_
    intro access haccess
    refine hrom access (List.mem_cons_of_mem _ ?_)
    rw [hencoding]
    exact haccess
  | cb opcode =>
    have hsecond : nextFetch cpu < 0x8000 := by
      refine hrom ⟨.opcodeFetch, nextFetch cpu⟩ (List.mem_cons_of_mem _ ?_)
      rw [hencoding]
      exact List.mem_singleton.mpr rfl
    rw [byteLen_of_cb hdecoded hencoding]
    show (nextFetch cpu + 1) % 65536 ≤ 0x8000
    omega

end Exec

namespace Step

open IsaTable

variable {authentication : BusAuthentication π τ} {before after : VmState × τ}
  {effects : StepEffects π}

/-- The events of an accepted instruction step list its fetches and then data accesses, and the
program counter moves past the fetches unless the operation sets it. -/
theorem lists_of_instruction (hstep : Accepted authentication before effects after)
    (hkind : effects.kind = .instruction) :
    ∃ immediates fetches rest, Exec.IsDecoded effects.instruction immediates ∧
      effects.busEvents = fetches ++ rest ∧
      List.Forall₂ Lists (Exec.fetchAccesses before.1.cpu effects.instruction) fetches ∧
      (∀ event ∈ rest, event.isMutableFetch = false) ∧
      (pcRule effects.instruction.operation = 0 →
        after.1.cpu.pc = (Exec.fetchedCpu before.1.cpu effects.instruction).pc) := by
  obtain ⟨input, happly⟩ := hstep
  obtain ⟨next, hstepped, hfinal, hevents⟩ := stepped_of_apply happly
  cases hstepped with
  | dmaByte hprofile howed hdma hrun =>
    rw [hkind] at hdma
    cases hdma
  | event event hprofile howed hevent hother hrun =>
    rw [hkind] at hother
    cases event <;> cases hother
  | instruction htaken hsame hrun =>
    obtain ⟨executed, hfetch, _, hnext⟩ := instructionStep_ok hrun
    obtain ⟨immediates, middle, hdecoded, hexecute, hfirst, hrest⟩ :=
      Exec.performs_fetchAndExecute (BusState.fetchesBytes_machineBus authentication) hfetch
    obtain ⟨fetches, hfetches, hlists⟩ := BusState.lists_of_runs hfirst
    obtain ⟨rest, hdata, hrestLists⟩ := BusState.lists_of_runs hrest
    refine ⟨immediates, fetches, rest, hdecoded, ?_, hlists, ?_, ?_⟩
    · rw [hevents, hnext]
      show executed.bus.events = _
      rw [hdata, hfetches]
      rfl
    · -- The accesses of the operation are data accesses.
      have hload : effects.instruction.operation ≠ .load8 .indirectHl .indirectHl :=
        hdecoded.of_bytes (fun decoded => decoded.operation ≠ .load8 .indirectHl .indirectHl)
          (by decide +kernel) (by decide +kernel)
      have hroles := @Exec.roles_operationAccesses _ immediates effects.branchTaken
        (Exec.fetchedCpu (start before.1 before.2 input).cpu effects.instruction) hload
        (fun condition hcondition => (Exec.branch_eq_takes hcondition hexecute :))
      intro event hevent
      obtain ⟨access, haccess, hlisted⟩ := exists_access hrestLists hevent
      have hrole : access.role = .dataRead ∨ access.role = .dataWrite := by
        have hmem := List.mem_map_of_mem (f := Access.role) haccess
        rw [hroles, List.mem_append, List.mem_replicate, List.mem_replicate] at hmem
        exact hmem.imp And.right And.right
      by_contra hmutable
      rw [Bool.not_eq_false] at hmutable
      rcases hlisted.isFetch hmutable with hfetched | hfetched <;>
        rcases hrole with hrole | hrole <;> rw [hrole] at hfetched <;> cases hfetched
    · intro hrule
      have hframe := Exec.frames_execute _ _ _ hexecute
      have hpc := hframe .pc
        (by simp [Exec.executeWrites, hrule, Exec.counter_notMem_operationWrites])
      rw [hfinal, show (reached next).cpu = next.cpu from rfl, hnext]
      exact hpc.symm

/-- An accepted instruction that fetches nothing from mutable memory and does not set the program
counter ends at the boundary at most. -/
theorem pc_le_of_rom (hstep : Accepted authentication before effects after)
    (hkind : effects.kind = .instruction)
    (hrom : ∀ event ∈ effects.busEvents, event.isMutableFetch = false)
    (hrule : pcRule effects.instruction.operation = 0) : after.1.cpu.pc ≤ 0x8000 := by
  obtain ⟨immediates, fetches, rest, hdecoded, hevents, hlists, _, hpc⟩ :=
    lists_of_instruction hstep hkind
  rw [hpc hrule]
  refine Exec.fetchedCpu_pc_le hdecoded ?_
  intro access haccess
  obtain ⟨event, hevent, hlisted⟩ := exists_event hlists haccess
  have hnone := hrom event (by rw [hevents]; exact List.mem_append_left _ hevent)
  by_contra hhigh
  rw [(hlisted.mutable_iff (Exec.role_of_mem_fetchAccesses haccess)).mpr (Nat.le_of_not_lt hhigh)] at hnone
  cases hnone

/-- An accepted instruction that starts at the boundary at most and fetches from mutable memory
does so in the first three bytes behind the boundary. -/
theorem address_of_mutableFetch (hstep : Accepted authentication before effects after)
    (hkind : effects.kind = .instruction) (hpc : before.1.cpu.pc ≤ 0x8000)
    {event : BusEvent π} (hevent : event ∈ effects.busEvents)
    (hmutable : event.isMutableFetch = true) :
    0x8000 ≤ event.transcriptEvent.address ∧ event.transcriptEvent.address ≤ 0x8002 := by
  obtain ⟨immediates, fetches, rest, hdecoded, hevents, hlists, hdata, _⟩ :=
    lists_of_instruction hstep hkind
  rw [hevents, List.mem_append] at hevent
  rcases hevent with hfetched | hother
  · obtain ⟨access, haccess, hlisted⟩ := exists_access hlists hfetched
    have hle := Exec.address_of_mem_fetchAccesses hdecoded haccess
    have hhigh := (hlisted.mutable_iff (hlisted.isFetch hmutable)).mp hmutable
    rw [hlisted.address_eq hmutable]
    omega
  · rw [hdata event hother] at hmutable
    cases hmutable

end Step

end Zksm83
