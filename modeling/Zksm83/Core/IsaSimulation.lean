import Zksm83.Core.IsaFrame

/-!
# The ISA table simulates execution

The flags of an accepted operation follow the declared effect, its accesses have the declared roles,
and the step takes the declared time. Together with the frame this is the row of the fixed table,
read as a statement about accepted instruction steps.
-/

namespace Zksm83

open Rejecting

namespace Exec

open IsaTable

variable {σ : Type} {bus : CpuBus σ} {before after : Executor σ} {operation : Operation}
  {immediates : List ℕ} {branch : Bool}

/-- A component other than the flags, the program counter and the cycle counter. -/
def IsPlain (component : StateComponent) : Prop := component ∉ [.f, .pc, .mCycles]

instance : DecidablePred IsPlain := fun component =>
  inferInstanceAs (Decidable (component ∉ [.f, .pc, .mCycles]))

theorem isPlain_of_mem_registerMask (register : Register16) :
    ∀ component ∈ registerMask register, IsPlain component := by
  cases register <;> decide

theorem isPlain_of_mem_operandWrite (operand : Operand8) :
    ∀ component ∈ operandWrite operand, IsPlain component := by
  rcases operand with register | _ | _
  · cases register <;> decide
  · decide
  · decide

theorem isPlain_of_mem_transferWrite (direction : TransferDirection) :
    ∀ component ∈ transferWrite direction, IsPlain component := by
  cases direction <;> decide

/-- Apart from POP AF, which lists the flags, operations list plain components. -/
theorem isPlain_of_mem_operationWrites (hpop : operation ≠ .pop .af) :
    ∀ component ∈ operationWrites operation, IsPlain component := by
  have hsingle : ∀ {other}, IsPlain other → ∀ component ∈ [other], IsPlain component := by
    intro other hother component hmem
    rw [List.mem_singleton.mp hmem]
    exact hother
  cases operation with
  | stop | halt | «return» _ | call _ | returnFromInterrupt | push _ | restart _
  | rotateAccumulator _ | decimalAdjust | complementAccumulator | disableInterrupts
  | enableInterrupts => exact hsingle (by decide)
  | load16Immediate _ | increment16 _ | decrement16 _ => exact isPlain_of_mem_registerMask _
  | addHl _ | loadHlSpOffset => exact isPlain_of_mem_registerMask .hl
  | addSpOffset | loadSpHl => exact isPlain_of_mem_registerMask .sp
  | loadAccumulatorIndirect address direction =>
    have happend : ∀ component ∈ transferWrite direction ++ registerMask .hl,
        IsPlain component := by
      intro component hmem
      rcases List.mem_append.mp hmem with htransfer | hregister
      · exact isPlain_of_mem_transferWrite _ _ htransfer
      · exact isPlain_of_mem_registerMask _ _ hregister
    cases address with
    | hlIncrement | hlDecrement => exact happend
    | bc | de => exact isPlain_of_mem_transferWrite _
  | increment8 _ | decrement8 _ | load8Immediate _ | load8 _ _ =>
    exact isPlain_of_mem_operandWrite _
  | alu8 operation _ =>
    cases operation with
    | compare => exact fun _ hmem => absurd hmem List.not_mem_nil
    | _ => exact hsingle (by decide)
  | highImmediateLoad _ | highCLoad _ | absoluteAccumulatorLoad _ =>
    exact isPlain_of_mem_transferWrite _
  | pop register =>
    cases register with
    | af => exact absurd rfl hpop
    | bc | de | hl => decide
  | cb operation _ =>
    cases operation with
    | testBit _ => exact fun _ hmem => absurd hmem List.not_mem_nil
    | _ => exact isPlain_of_mem_operandWrite _
  | nop | storeSpAbsolute | relativeJump _ | jump _ | jumpHl | setCarry | complementCarry
  | prefixCb => exact fun _ hmem => absurd hmem List.not_mem_nil

theorem f_notMem_operationWrites (heffect : flagEffect operation = preserveFlags) :
    .f ∉ operationWrites operation := by
  intro hmem
  have hpop : operation ≠ .pop .af := by
    rintro rfl
    exact absurd heffect (by decide)
  exact isPlain_of_mem_operationWrites hpop _ hmem (by decide)

/-- No operation lists the program counter or the cycle counter. -/
theorem counter_notMem_operationWrites (operation : Operation) {component : StateComponent}
    (hcounter : component ∈ [.pc, .mCycles]) : component ∉ operationWrites operation := by
  intro hmem
  by_cases hpop : operation = .pop .af
  · rw [hpop] at hmem
    revert hmem
    cases component <;> revert hcounter <;> decide
  · exact isPlain_of_mem_operationWrites hpop _ hmem (List.mem_cons_of_mem _ hcounter)

/-- The flags after an accepted operation follow the declared effect. -/
theorem follows_execute (hrun : Accepts (execute bus operation immediates) before branch after) :
    (flagEffect operation).Follows before.cpu.flags after.cpu.flags := by
  by_cases heffect : flagEffect operation = preserveFlags
  · have hsame : before.cpu.flags = after.cpu.flags := by
      refine frames_execute bus operation immediates hrun .f ?_
      simp [executeWrites, heffect, f_notMem_operationWrites heffect]
    rw [heffect, hsame]
    exact ⟨rfl, rfl, rfl, rfl⟩
  cases operation with
  | increment8 target | decrement8 target =>
    simp only [execute, accepts_bind, accepts_cpu, accepts_setFlags, accepts_pure] at hrun
    obtain ⟨_, _, hread, _, _, ⟨rfl, rfl⟩, _, _, _, _, _, rfl, rfl, rfl⟩ := hrun
    rw [(performs_readOperand hread).1]
    exact ⟨trivial, rfl, trivial, rfl⟩
  | addHl source =>
    simp only [execute, accepts_bind, accepts_cpu, accepts_modifyCpu, accepts_pure] at hrun
    obtain ⟨_, _, ⟨rfl, rfl⟩, _, _, rfl, rfl, rfl⟩ := hrun
    exact ⟨rfl, rfl, trivial, trivial⟩
  | addSpOffset | loadHlSpOffset =>
    simp only [execute, accepts_bind, accepts_cpu, accepts_immediateByte, accepts_modifyCpu,
      accepts_pure] at hrun
    obtain ⟨_, _, ⟨rfl, rfl⟩, _, _, ⟨_, rfl⟩, _, _, rfl, rfl, rfl⟩ := hrun
    exact ⟨rfl, rfl, trivial, trivial⟩
  | rotateAccumulator rotate =>
    simp only [execute, accepts_bind, accepts_cpu] at hrun
    obtain ⟨_, _, ⟨rfl, rfl⟩, hrest⟩ := hrun
    split at hrest
    · rename_i result hresult
      simp only [accepts_bind, accepts_modifyCpu, accepts_pure] at hrest
      obtain ⟨_, _, rfl, rfl, rfl⟩ := hrest
      unfold Alu.rotateShift at hresult
      split at hresult <;> cases hresult
      all_goals exact ⟨rfl, rfl, rfl, trivial⟩
    · exact absurd hrest (accepts_throw _ _ _ _)
  | decimalAdjust =>
    simp only [execute, accepts_bind, accepts_cpu, accepts_modifyCpu, accepts_pure] at hrun
    obtain ⟨_, _, ⟨rfl, rfl⟩, _, _, rfl, rfl, rfl⟩ := hrun
    exact ⟨trivial, rfl, rfl, trivial⟩
  | complementAccumulator =>
    simp only [execute, accepts_bind, accepts_modifyCpu, accepts_pure] at hrun
    obtain ⟨_, _, rfl, rfl, rfl⟩ := hrun
    exact ⟨rfl, rfl, rfl, rfl⟩
  | setCarry =>
    simp only [execute, accepts_bind, accepts_modifyCpu, accepts_pure] at hrun
    obtain ⟨_, _, rfl, rfl, rfl⟩ := hrun
    exact ⟨rfl, rfl, rfl, rfl⟩
  | complementCarry =>
    simp only [execute, accepts_bind, accepts_modifyCpu, accepts_pure] at hrun
    obtain ⟨_, _, rfl, rfl, rfl⟩ := hrun
    exact ⟨rfl, rfl, rfl, trivial⟩
  | alu8 operation source =>
    simp only [execute, accepts_bind, accepts_cpu] at hrun
    obtain ⟨operand, _, _, _, read, ⟨rfl, rfl⟩, hrest⟩ := hrun
    have hflags : after.cpu.flags =
        (Alu.applyAlu operation read.cpu.registers.a operand read.cpu.flags).flags := by
      by_cases hcompare : operation = .compare
      all_goals
        simp [hcompare] at hrest
        simp [hcompare, hrest.1]
    rw [hflags]
    cases operation <;> exact ⟨trivial, rfl, by trivial, by trivial⟩
  | cb operation target =>
    cases operation with
    | testBit bit =>
      simp only [execute, accepts_bind, accepts_cpu, accepts_setFlags, accepts_pure] at hrun
      obtain ⟨_, _, hread, _, _, ⟨rfl, rfl⟩, _, _, rfl, rfl, rfl⟩ := hrun
      rw [(performs_readOperand hread).1]
      exact ⟨trivial, rfl, rfl, rfl⟩
    | resetBit bit | setBit bit => exact absurd rfl heffect
    | _ =>
      simp only [execute, Alu.rotateShift, accepts_bind, accepts_cpu, accepts_setFlags,
        accepts_pure] at hrun
      obtain ⟨_, _, hread, _, _, ⟨rfl, rfl⟩, _, _, hwrite, _, _, rfl, rfl, rfl⟩ := hrun
      exact ⟨trivial, rfl, rfl, trivial⟩
  | pop register =>
    cases register with
    | af => exact ⟨trivial, trivial, trivial, trivial⟩
    | bc | de | hl => exact absurd rfl heffect
  | _ => exact absurd rfl heffect

/-- The branch of a return or a call is its condition. -/
theorem branch_eq_takes {condition : Option Condition}
    (hoperation : operation = .return condition ∨ operation = .call condition)
    (hrun : Accepts (execute bus operation immediates) before branch after) :
    branch = before.cpu.takes condition := by
  rcases hoperation with rfl | rfl
  all_goals
    simp only [execute, accepts_bind, accepts_taken] at hrun
    obtain ⟨_, _, ⟨rfl, rfl⟩, hrest⟩ := hrun
    split at hrest
  · simp only [accepts_bind, accepts_setPc, accepts_pure] at hrest
    obtain ⟨_, _, _, _, _, rfl, rfl, rfl⟩ := hrest
    rfl
  · exact ((accepts_pure _ _ _ _).mp hrest).1
  · simp only [accepts_bind, accepts_cpu, accepts_immediateWord, accepts_setPc,
      accepts_pure] at hrest
    obtain ⟨_, _, _, _, _, _, _, _, _, _, _, _, rfl, _⟩ := hrest
    rfl
  · exact ((accepts_pure _ _ _ _).mp hrest).1

/-- Data reads of an operation, with those of a taken branch. -/
def dataReads (operation : Operation) (branch : Bool) : ℕ :=
  (dataBus operation).1 + if branch then (dataBus operation).2.2.1 else 0

/-- Data writes of an operation, with those of a taken branch. -/
def dataWrites (operation : Operation) (branch : Bool) : ℕ :=
  (dataBus operation).2.1 + if branch then (dataBus operation).2.2.2 else 0

/-- The accesses of an operation are its declared reads and then its declared writes. -/
theorem roles_operationAccesses (cpu : CpuState)
    (hload : operation ≠ .load8 .indirectHl .indirectHl)
    (hbranch : ∀ condition, operation = .return condition ∨ operation = .call condition →
      branch = cpu.takes condition) :
    (operationAccesses cpu immediates operation).map Access.role =
      List.replicate (dataReads operation branch) .dataRead ++
        List.replicate (dataWrites operation branch) .dataWrite := by
  cases operation with
  | loadAccumulatorIndirect _ direction | highImmediateLoad direction | highCLoad direction
  | absoluteAccumulatorLoad direction =>
    cases direction <;> cases branch <;> rfl
  | load8Immediate target | increment8 target | decrement8 target | alu8 _ target =>
    cases target <;> cases branch <;> rfl
  | load8 destination source =>
    cases destination <;> cases source <;> first
      | exact absurd rfl hload
      | (cases branch <;> rfl)
  | cb operation target => cases operation <;> cases target <;> cases branch <;> rfl
  | «return» condition | call condition =>
    rw [operationAccesses, ← hbranch condition (by simp)]
    cases condition with
    | none =>
      rw [hbranch none (by simp)]
      rfl
    | some condition => cases branch <;> rfl
  | _ => cases branch <;> rfl

theorem roles_immediateAccesses (pc count : ℕ) :
    (immediateAccesses pc count).map Access.role = List.replicate count .immediateRead := by
  induction count generalizing pc with
  | zero => rfl
  | succ count ih => rw [immediateAccesses, List.map_cons, ih, List.replicate_succ]

/-- The accesses of a fetch are the declared opcode bytes and then the declared immediate bytes. -/
theorem roles_fetchAccesses (cpu : CpuState) (instruction : DecodedInstruction) :
    (fetchAccesses cpu instruction).map Access.role =
      List.replicate (busPattern instruction).opcodeFetches .opcodeFetch ++
        List.replicate (busPattern instruction).immediateReads .immediateRead := by
  unfold fetchAccesses busPattern
  cases instruction.encoding with
  | primary opcode =>
    rw [List.map_cons, roles_immediateAccesses]
    rfl
  | cb opcode => rfl

end Exec

namespace Step

open IsaTable

variable {π τ : Type} {authentication : BusAuthentication π τ}

/-- The number of events of a role. -/
def roleCount (role : BusRole) (events : List (BusEvent π)) : ℕ :=
  (events.map BusEvent.role).count (some role)

/-- The roles of the accesses of an instruction, in order. -/
def rolePattern (instruction : DecodedInstruction) (branchTaken : Bool) : List BusRole :=
  List.replicate (busPattern instruction).opcodeFetches .opcodeFetch ++
    List.replicate (busPattern instruction).immediateReads .immediateRead ++
    (List.replicate (Exec.dataReads instruction.operation branchTaken) .dataRead ++
      List.replicate (Exec.dataWrites instruction.operation branchTaken) .dataWrite)

/-- The accesses of an accepted instruction step are those of its bus pattern. -/
theorem roles_instructionStep {state : VmState} {before after : Executor (BusState π τ)}
    {instruction : DecodedInstruction} {branchTaken : Bool}
    (hrun : Accepts (instructionStep authentication state) before (instruction, branchTaken)
      after) :
    ∃ events : List (BusEvent π), after.bus.events = before.bus.events ++ events ∧
      events.map BusEvent.role = (rolePattern instruction branchTaken).map some := by
  obtain ⟨executed, hfetch, _, rfl⟩ := instructionStep_ok hrun
  obtain ⟨immediates, middle, hdecoded, hexecute, hfirst, hrest⟩ :=
    Exec.performs_fetchAndExecute (BusState.fetchesBytes_machineBus authentication) hfetch
  obtain ⟨events, hruns, hroles⟩ := BusState.accessed_of_runs (hfirst.append hrest)
  refine ⟨events, (BusState.events_of_runs hruns :), ?_⟩
  have hload : instruction.operation ≠ .load8 .indirectHl .indirectHl :=
    hdecoded.of_bytes (fun decoded => decoded.operation ≠ .load8 .indirectHl .indirectHl)
      (by decide +kernel) (by decide +kernel)
  have hbranch : ∀ condition, instruction.operation = .return condition ∨
      instruction.operation = .call condition →
      branchTaken = (Exec.fetchedCpu before.cpu instruction).takes condition :=
    fun condition hcondition => (Exec.branch_eq_takes hcondition hexecute :)
  have hoperation := @Exec.roles_operationAccesses _ immediates _ _ hload hbranch
  rw [hroles, rolePattern, ← Exec.roles_fetchAccesses before.cpu, ← hoperation,
    ← List.map_append, List.map_map]
  rfl

theorem roleCount_of_roles {events : List (BusEvent π)} {roles : List BusRole}
    (hroles : events.map BusEvent.role = roles.map some) (role : BusRole) :
    roleCount role events = roles.count role := by
  rw [roleCount, hroles, List.count_map_of_injective _ some (Option.some_injective _)]

/-- An accepted instruction step does what the row of its instruction says. -/
structure FollowsTable (instruction : DecodedInstruction) (branchTaken : Bool)
    (before after : CpuState) (events : List (BusEvent π)) : Prop where
  frame : ∀ component ∉ stateWrites instruction.operation, component.Same before after
  flags : (flagEffect instruction.operation).Follows before.flags after.flags
  opcodeFetches : roleCount .opcodeFetch events = (busPattern instruction).opcodeFetches
  immediateReads : roleCount .immediateRead events = (busPattern instruction).immediateReads
  dataReads : roleCount .dataRead events = (busPattern instruction).dataReads +
    if branchTaken then (busPattern instruction).takenDataReads else 0
  dataWrites : roleCount .dataWrite events = (busPattern instruction).dataWrites +
    if branchTaken then (busPattern instruction).takenDataWrites else 0
  mCycles : after.mCycles = before.mCycles +
    if branchTaken then instruction.takenMCycles.getD instruction.baseMCycles
    else instruction.baseMCycles
  sequential : pcRule instruction.operation = 0 →
    after.pc = (before.pc + instruction.byteLen) % 65536

/-- What an operation itself writes, its row declares, except for the master enable. -/
theorem mem_stateWrites {operation : Operation} {component : StateComponent}
    (hmem : component ∈ Exec.executeWrites operation) : component ∈ stateWrites operation := by
  unfold Exec.executeWrites at hmem
  unfold stateWrites
  grind

/-- The fetch of a running CPU moves only the program counter, past the bytes of the
instruction. -/
theorem fetchedCpu_running {cpu : CpuState} (hrunning : cpu.runState = .running)
    {instruction : DecodedInstruction} {immediates : List ℕ}
    (hdecoded : Exec.IsDecoded instruction immediates) :
    Exec.fetchedCpu cpu instruction =
      { cpu with pc := (cpu.pc + instruction.byteLen) % 65536 } := by
  have hlength : 1 ≤ instruction.byteLen :=
    hdecoded.of_bytes (fun decoded => 1 ≤ decoded.byteLen) (by decide +kernel) (by decide +kernel)
  have hnext : Exec.nextFetch cpu = (cpu.pc + 1) % 65536 := by simp [Exec.nextFetch, hrunning]
  have hpc : Exec.advancedPc (Exec.nextFetch cpu) (instruction.byteLen - 1) =
      (cpu.pc + instruction.byteLen) % 65536 := by
    rw [hnext, Exec.advancedPc_mod]
    congr 1
    omega
  unfold Exec.fetchedCpu Exec.afterFirstOpcode
  rw [hpc]
  simp [hrunning]

/-- Every accepted instruction step of a running CPU follows the ISA table. -/
theorem instruction_followsTable (authentication : BusAuthentication π τ)
    (before after : VmState × τ) (effects : StepEffects π)
    (hstep : Accepted authentication before effects after) (hkind : effects.kind = .instruction)
    (hrunning : before.1.cpu.runState = .running) :
    FollowsTable effects.instruction effects.branchTaken before.1.cpu after.1.cpu
      effects.busEvents := by
  obtain ⟨input, happly⟩ := hstep
  obtain ⟨next, hstepped, hfinal, hevents⟩ := stepped_of_apply happly
  cases hstepped with
  | dmaByte hprofile howed hdma hrun => rw [hkind] at hdma; cases hdma
  | event event hprofile howed hevent hother hrun =>
    rw [hkind] at hother
    cases event <;> cases hother
  | instruction htaken hsame hrun =>
    obtain ⟨events, hlisted, hroles⟩ := roles_instructionStep hrun
    have hbus : effects.busEvents = events := hevents.trans hlisted
    obtain ⟨executed, hfetch, _, hnext⟩ := instructionStep_ok hrun
    obtain ⟨immediates, middle, hdecoded, hexecute, _, _⟩ :=
      Exec.performs_fetchAndExecute (BusState.fetchesBytes_machineBus authentication) hfetch
    have hframe := Exec.frames_execute _ _ _ hexecute
    have hfollows := Exec.follows_execute hexecute
    rw [show (start before.1 before.2 input).cpu = before.1.cpu from rfl,
      fetchedCpu_running hrunning hdecoded] at hframe hfollows
    rw [hfinal, show (reached next).cpu = next.cpu from rfl, hnext]
    have hcount : ∀ role, roleCount role effects.busEvents =
        (rolePattern effects.instruction effects.branchTaken).count role := by
      rw [hbus]
      exact roleCount_of_roles hroles
    simp only [rolePattern, List.count_append, List.count_replicate, Exec.dataReads,
      Exec.dataWrites] at hcount
    refine ⟨?_, hfollows, (hcount .opcodeFetch).trans (by simp),
      (hcount .immediateRead).trans (by simp), ?_, ?_, ?_, ?_⟩
    · intro component hmem
      have hsame := hframe component (fun hin => hmem (mem_stateWrites hin))
      cases component with
      | pc | ime | mCycles => exact absurd (by simp [stateWrites]) hmem
      | runState =>
        have hhalt : effects.instruction.operation ≠ .halt := by
          intro heq
          rw [heq] at hmem
          exact hmem (by decide)
        refine hsame.trans ?_
        simp [StateComponent.Same, runStateAfter, hhalt]
      | _ => exact hsame
    · exact (hcount .dataRead).trans (by simp [busPattern])
    · exact (hcount .dataWrite).trans (by simp [busPattern])
    · have hcycles : before.1.cpu.mCycles = executed.cpu.mCycles := by
        refine hframe .mCycles ?_
        simp [Exec.executeWrites, Exec.counter_notMem_operationWrites]
      rw [hcycles]
      rfl
    · intro hrule
      have hpc := hframe .pc
        (by simp [Exec.executeWrites, hrule, Exec.counter_notMem_operationWrites])
      exact hpc.symm

/-- The witnesses of `CALL 0x0150` at the entry point of the cartridge. -/
def callAtEntry : List (BusWitness Unit) :=
  [.rom ⟨0x0100, 0x0100, 0xcd, ()⟩, .rom ⟨0x0101, 0x0101, 0x50, ()⟩,
    .rom ⟨0x0102, 0x0102, 0x01, ()⟩, .memoryWrite ⟨0xfffd, 0xfffd, 0, 0x01, ()⟩,
    .memoryWrite ⟨0xfffc, 0xfffc, 0, 0x03, ()⟩]

theorem instruction_followsTable_call : ∃ after effects,
    Accepted BusAuthentication.lookup (.dmgPostBootMbc3Initial .dmgPostBootMbc3V1, ()) effects
      after ∧
    effects.kind = .instruction ∧
    FollowsTable effects.instruction effects.branchTaken
      (VmState.dmgPostBootMbc3Initial .dmgPostBootMbc3V1).cpu after.1.cpu effects.busEvents := by
  have hok : (apply BusAuthentication.lookup (.dmgPostBootMbc3Initial .dmgPostBootMbc3V1) ()
      callAtEntry).toOption.map (fun result => result.2.kind) = some .instruction := by
    decide +kernel
  cases happly : apply BusAuthentication.lookup (.dmgPostBootMbc3Initial .dmgPostBootMbc3V1) ()
      callAtEntry with
  | error error =>
    rw [happly] at hok
    cases hok
  | ok result =>
    obtain ⟨after, effects⟩ := result
    rw [happly] at hok
    have hkind : effects.kind = .instruction := Option.some.inj hok
    have hstep : Accepted BusAuthentication.lookup
        (.dmgPostBootMbc3Initial .dmgPostBootMbc3V1, ()) effects after := ⟨callAtEntry, happly⟩
    exact ⟨after, effects, hstep, hkind, instruction_followsTable _ _ _ _ hstep hkind rfl⟩

end Step

end Zksm83
