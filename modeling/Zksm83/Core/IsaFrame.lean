import Zksm83.Core.AccessEffects
import Zksm83.Isa.Table

/-!
# What the ISA table says about a step

The fixed table declares for each instruction which CPU components it writes, what it does to each
flag, how many accesses of each role it makes, how long it takes and how it moves the program
counter. An accepted instruction step of a running CPU does what its row says. The frame of an
operation is proved with one rule for each action that it is made of.
-/

namespace Zksm83

open Rejecting

namespace IsaTable

open StateComponent

/-- Two CPU states have the same value in a component. -/
def StateComponent.Same (first second : CpuState) : StateComponent → Prop
  | a => first.registers.a = second.registers.a
  | b => first.registers.b = second.registers.b
  | c => first.registers.c = second.registers.c
  | d => first.registers.d = second.registers.d
  | e => first.registers.e = second.registers.e
  | h => first.registers.h = second.registers.h
  | l => first.registers.l = second.registers.l
  | f => first.flags = second.flags
  | pc => first.pc = second.pc
  | sp => first.sp = second.sp
  | ime => first.ime = second.ime
  | runState => first.runState = second.runState
  | mCycles => first.mCycles = second.mCycles

theorem StateComponent.Same.trans {component : StateComponent} {first second third : CpuState}
    (hfirst : component.Same first second) (hsecond : component.Same second third) :
    component.Same first third := by
  cases component <;> exact Eq.trans hfirst hsecond

theorem StateComponent.Same.symm {component : StateComponent} {first second : CpuState}
    (h : component.Same first second) : component.Same second first := by
  cases component <;> exact Eq.symm h

theorem StateComponent.Same.refl (component : StateComponent) (cpu : CpuState) :
    component.Same cpu cpu := by
  cases component <;> rfl

/-- A flag after an instruction follows its declared action. -/
def FlagAction.Follows (before after : Bool) : FlagAction → Prop
  | .preserve => after = before
  | .clear => after = false
  | .set => after = true
  | .derived => True

/-- The flags after an instruction follow its declared effect. -/
structure FlagEffect.Follows (before after : Flags) (effect : FlagEffect) : Prop where
  zero : effect.zero.Follows before.zero after.zero
  subtract : effect.subtract.Follows before.subtract after.subtract
  halfCarry : effect.halfCarry.Follows before.halfCarry after.halfCarry
  carry : effect.carry.Follows before.carry after.carry

/-- Components outside of `written` are unchanged. -/
def Unchanged (written : List StateComponent) (before after : CpuState) : Prop :=
  ∀ component ∉ written, component.Same before after

namespace Unchanged

variable {written : List StateComponent} {first second third cpu : CpuState}

theorem refl (written : List StateComponent) (cpu : CpuState) : Unchanged written cpu cpu :=
  fun component _ => .refl component cpu

theorem trans (hfirst : Unchanged written first second) (hsecond : Unchanged written second third) :
    Unchanged written first third :=
  fun component hmem => (hfirst component hmem).trans (hsecond component hmem)

theorem setRegister8 {register : Register8} (hwritten : registerComponent register ∈ written)
    (value : ℕ) : Unchanged written cpu (cpu.setRegister8 register value) := by
  intro component hmem
  have hne : component ≠ registerComponent register := fun heq => hmem (heq ▸ hwritten)
  cases register <;> cases component <;> first | rfl | exact absurd rfl hne

theorem setRegister16 {register : Register16}
    (hwritten : ∀ component ∈ registerMask register, component ∈ written) (value : ℕ) :
    Unchanged written cpu (cpu.setRegister16 register value) := by
  intro component hmem
  have hne : component ∉ registerMask register := fun hin => hmem (hwritten component hin)
  cases register <;> cases component <;> first | rfl | exact absurd (by decide) hne

theorem setFlags (hwritten : f ∈ written) (flags : Flags) :
    Unchanged written cpu { cpu with flags := flags } := by
  intro component hmem
  cases component <;> first | rfl | exact absurd hwritten hmem

theorem setStackRegister {register : StackRegister16}
    (hwritten : ∀ component ∈ stackRegisterMask register, component ∈ written) (value : ℕ) :
    Unchanged written cpu (cpu.setStackRegister register value) := by
  cases register with
  | bc => exact @setRegister16 written cpu .bc hwritten value
  | de => exact @setRegister16 written cpu .de hwritten value
  | hl => exact @setRegister16 written cpu .hl hwritten value
  | af =>
    have haccumulator : Unchanged written cpu (cpu.setRegister8 .a (value / 256)) :=
      setRegister8 (hwritten a (by decide)) _
    exact haccumulator.trans (setFlags (hwritten f (by decide)) _)

theorem setSp (hwritten : sp ∈ written) (value : ℕ) :
    Unchanged written cpu { cpu with sp := value } := by
  intro component hmem
  cases component <;> first | rfl | exact absurd hwritten hmem

theorem setPc (hwritten : pc ∈ written) (value : ℕ) :
    Unchanged written cpu { cpu with pc := value } := by
  intro component hmem
  cases component <;> first | rfl | exact absurd hwritten hmem

theorem setIme (hwritten : ime ∈ written) (value : ImeState) :
    Unchanged written cpu { cpu with ime := value } := by
  intro component hmem
  cases component <;> first | rfl | exact absurd hwritten hmem

theorem setRunState (hwritten : runState ∈ written) (value : RunState) :
    Unchanged written cpu { cpu with runState := value } := by
  intro component hmem
  cases component <;> first | rfl | exact absurd hwritten hmem

theorem setMCycles (hwritten : mCycles ∈ written) (value : ℕ) :
    Unchanged written cpu { cpu with mCycles := value } := by
  intro component hmem
  cases component <;> first | rfl | exact absurd hwritten hmem

theorem updateHlAfterIndirect {address : IndirectAddress}
    (hwritten : ∀ component ∈ registerMask .hl, address ≠ .bc → address ≠ .de →
      component ∈ written) :
    Unchanged written cpu (cpu.updateHlAfterIndirect address) := by
  cases address with
  | bc => exact refl written cpu
  | de => exact refl written cpu
  | hlIncrement =>
    exact setRegister16 (fun component hin => hwritten component hin (by decide) (by decide)) _
  | hlDecrement =>
    exact setRegister16 (fun component hin => hwritten component hin (by decide) (by decide)) _

end Unchanged

end IsaTable

namespace Exec

open IsaTable

variable {σ α β : Type}

/-- An accepted run changes no component outside of `written`. -/
def Frames (written : List StateComponent) (action : Exec σ α) : Prop :=
  Keeps (fun before after : Executor σ => Unchanged written before.cpu after.cpu) action

namespace Frames

variable {written : List StateComponent} {bus : CpuBus σ}

theorem pure (value : α) : Frames written (Pure.pure value : Exec σ α) :=
  Keeps.pure (fun executor => .refl written executor.cpu) value

theorem throw (error : StepError) : Frames written (MonadExcept.throw error : Exec σ α) :=
  Keeps.throw error

theorem bind {action : Exec σ α} {continuation : α → Exec σ β} (hfirst : Frames written action)
    (hrest : ∀ value, Frames written (continuation value)) :
    Frames written (action >>= continuation) :=
  Keeps.bind (fun hleft hright => hleft.trans hright) hfirst hrest

theorem cpu : Frames written (Exec.cpu : Exec σ CpuState) := by
  intro before value after hrun
  obtain ⟨_, rfl⟩ := (accepts_cpu _).mp hrun
  exact .refl _ _

theorem onBus (access : σ → Except StepError α × σ) : Frames written (Exec.onBus access) := by
  intro before value after hrun
  obtain ⟨_, _, rfl⟩ := (accepts_onBus _ _).mp hrun
  exact .refl _ _

theorem modifyCpu {change : CpuState → CpuState}
    (hchange : ∀ cpu, Unchanged written cpu (change cpu)) :
    Frames written (Exec.modifyCpu change : Exec σ Unit) := by
  intro before value after hrun
  rw [(accepts_modifyCpu _ _).mp hrun]
  exact hchange before.cpu

theorem readData (address : ℕ) : Frames written (Exec.readData bus address) := onBus _

theorem writeData (address value : ℕ) : Frames written (Exec.writeData bus address value) := onBus _

theorem setPc (hwritten : .pc ∈ written) (target : ℕ) :
    Frames written (Exec.setPc target : Exec σ Unit) :=
  modifyCpu (fun _ => .setPc hwritten target)

theorem setFlags (hwritten : .f ∈ written) (flags : Flags) :
    Frames written (Exec.setFlags flags : Exec σ Unit) :=
  modifyCpu (fun _ => .setFlags hwritten flags)

theorem immediateByte (immediates : List ℕ) :
    Frames written (Exec.immediateByte immediates : Exec σ ℕ) := by
  cases immediates with
  | nil => exact throw _
  | cons byte rest => exact pure _

theorem immediateWord (immediates : List ℕ) :
    Frames written (Exec.immediateWord immediates : Exec σ ℕ) := by
  match immediates with
  | [] => exact throw _
  | [_] => exact throw _
  | low :: high :: rest => exact pure _

theorem taken (condition : Option Condition) :
    Frames written (Exec.taken condition : Exec σ Bool) := by
  cases condition with
  | none => exact pure _
  | some condition => exact cpu.bind (fun _ => pure _)

theorem readOperand (operand : Operand8) (immediates : List ℕ) :
    Frames written (Exec.readOperand bus operand immediates) := by
  intro before value after hrun
  show Unchanged written before.cpu after.cpu
  rw [(performs_readOperand hrun).1]
  exact .refl _ _

theorem writeOperand {operand : Operand8}
    (hwritten : ∀ component ∈ operandWrite operand, component ∈ written) (value : ℕ) :
    Frames written (Exec.writeOperand bus operand value) := by
  cases operand with
  | register register =>
    exact modifyCpu (fun _ => .setRegister8 (hwritten _ (List.mem_singleton.mpr rfl)) value)
  | immediate => exact throw _
  | indirectHl => exact cpu.bind (fun _ => writeData _ _)

theorem transferAccumulator {direction : TransferDirection}
    (hwritten : ∀ component ∈ transferWrite direction, component ∈ written) (address : ℕ) :
    Frames written (Exec.transferAccumulator bus address direction) := by
  cases direction with
  | intoAccumulator =>
    refine (readData address).bind (fun value => modifyCpu (fun _ => ?_))
    exact .setRegister8 (hwritten _ (List.mem_singleton.mpr rfl)) value
  | fromAccumulator => exact cpu.bind (fun _ => writeData _ _)

theorem pushWord (hwritten : .sp ∈ written) (value : ℕ) :
    Frames written (Exec.pushWord bus value) := by
  refine cpu.bind (fun _ => (writeData _ _).bind (fun _ => ?_))
  refine (modifyCpu (fun _ => .setSp hwritten _)).bind (fun _ => ?_)
  exact (writeData _ _).bind (fun _ => modifyCpu (fun _ => .setSp hwritten _))

theorem popWord (hwritten : .sp ∈ written) : Frames written (Exec.popWord bus) := by
  refine cpu.bind (fun _ => (readData _).bind (fun _ => (readData _).bind (fun _ => ?_)))
  exact (modifyCpu (fun _ => .setSp hwritten _)).bind (fun _ => pure _)

end Frames

/-- The components that an operation itself can write; the end of a step also writes the interrupt
master enable and the cycle counter. -/
def executeWrites (operation : Operation) : List StateComponent :=
  (if pcRule operation = 0 then [] else [.pc]) ++
    (if operation = .returnFromInterrupt then [.ime] else []) ++ operationWrites operation ++
    (if flagEffect operation ≠ preserveFlags then [.f] else [])

section Written

variable {operation : Operation}

theorem pc_mem (hrule : pcRule operation ≠ 0) : .pc ∈ executeWrites operation := by
  simp [executeWrites, hrule]

theorem operation_mem {component : StateComponent} (hmem : component ∈ operationWrites operation) :
    component ∈ executeWrites operation := by
  simp [executeWrites, hmem]

theorem flags_mem (heffect : flagEffect operation ≠ preserveFlags) :
    .f ∈ executeWrites operation := by
  simp [executeWrites, heffect]

end Written

theorem frames_cb (bus : CpuBus σ) (operation : CbOperation) (target : Operand8)
    (immediates : List ℕ) :
    Frames (executeWrites (.cb operation target)) (execute bus (.cb operation target) immediates) := by
  have hwrite : (∀ bit, operation ≠ .testBit bit) →
      ∀ component ∈ operandWrite target, component ∈ executeWrites (.cb operation target) := by
    intro htest
    cases operation with
    | testBit bit => exact absurd rfl (htest bit)
    | _ => exact fun component hmem => operation_mem hmem
  have hflags : (∀ bit, operation ≠ .resetBit bit) → (∀ bit, operation ≠ .setBit bit) →
      .f ∈ executeWrites (.cb operation target) := by
    intro hreset hset
    cases operation with
    | resetBit bit => exact absurd rfl (hreset bit)
    | setBit bit => exact absurd rfl (hset bit)
    | _ => exact flags_mem (by simp [flagEffect, preserveFlags])
  cases operation with
  | testBit bit =>
    refine (Frames.readOperand _ _).bind (fun _ => Frames.cpu.bind (fun _ => ?_))
    exact (Frames.setFlags (hflags (by simp) (by simp)) _).bind (fun _ => .pure _)
  | resetBit bit | setBit bit =>
    refine (Frames.readOperand _ _).bind (fun _ => ?_)
    exact (Frames.writeOperand (hwrite (by simp)) _).bind (fun _ => .pure _)
  | _ =>
    refine (Frames.readOperand _ _).bind (fun _ => Frames.cpu.bind (fun _ => ?_))
    refine (Frames.writeOperand (hwrite (by simp)) _).bind (fun _ => ?_)
    exact (Frames.setFlags (hflags (by simp) (by simp)) _).bind (fun _ => .pure _)

/-- An operation writes only the components that the table declares. -/
theorem frames_execute (bus : CpuBus σ) (operation : Operation) (immediates : List ℕ) :
    Frames (executeWrites operation) (execute bus operation immediates) := by
  cases operation with
  | nop => exact .pure _
  | decimalAdjust =>
    refine Frames.cpu.bind (fun state => (Frames.modifyCpu (fun _ => ?_)).bind (fun _ => .pure _))
    exact (Unchanged.setRegister8 (by decide) _).trans (.setFlags (by decide) _)
  | complementAccumulator =>
    refine (Frames.modifyCpu (fun _ => ?_)).bind (fun _ => .pure _)
    exact (Unchanged.setRegister8 (by decide) _).trans (.setFlags (by decide) _)
  | setCarry | complementCarry =>
    exact (Frames.modifyCpu (fun _ => .setFlags (by decide) _)).bind (fun _ => .pure _)
  | storeSpAbsolute =>
    refine (Frames.immediateWord _).bind (fun _ => ?_)
    refine (Frames.cpu.bind (fun _ => ?_)).bind (fun _ => .pure _)
    exact (Frames.writeData _ _).bind (fun _ => .writeData _ _)
  | load16Immediate register =>
    refine (Frames.immediateWord _).bind (fun _ => ?_)
    refine (Frames.modifyCpu (fun _ => .setRegister16 ?_ _)).bind (fun _ => .pure _)
    exact fun _ hmem => operation_mem hmem
  | loadAccumulatorIndirect address direction =>
    refine Frames.cpu.bind (fun _ => (Frames.transferAccumulator ?_ _).bind (fun _ => ?_))
    · cases address <;> simp +contextual [executeWrites, operationWrites]
    · refine (Frames.modifyCpu (fun _ => .updateHlAfterIndirect ?_)).bind (fun _ => .pure _)
      cases address <;> simp +contextual [executeWrites, operationWrites]
  | load8Immediate target =>
    refine (Frames.immediateByte _).bind (fun _ => ?_)
    refine (Frames.writeOperand ?_ _).bind (fun _ => .pure _)
    exact fun _ hmem => operation_mem hmem
  | load8 destination source =>
    refine (Frames.readOperand _ _).bind (fun _ => ?_)
    refine (Frames.writeOperand ?_ _).bind (fun _ => .pure _)
    exact fun _ hmem => operation_mem hmem
  | highImmediateLoad direction =>
    refine (Frames.immediateByte _).bind (fun _ => ?_)
    refine (Frames.transferAccumulator ?_ _).bind (fun _ => .pure _)
    exact fun _ hmem => operation_mem hmem
  | highCLoad direction =>
    refine Frames.cpu.bind (fun _ => ?_)
    refine (Frames.transferAccumulator ?_ _).bind (fun _ => .pure _)
    exact fun _ hmem => operation_mem hmem
  | absoluteAccumulatorLoad direction =>
    refine (Frames.immediateWord _).bind (fun _ => ?_)
    refine (Frames.transferAccumulator ?_ _).bind (fun _ => .pure _)
    exact fun _ hmem => operation_mem hmem
  | loadHlSpOffset =>
    refine Frames.cpu.bind (fun _ => (Frames.immediateByte _).bind (fun _ => ?_))
    refine (Frames.modifyCpu (fun _ => ?_)).bind (fun _ => .pure _)
    exact (Unchanged.setRegister16 (by decide) _).trans (.setFlags (by decide) _)
  | addSpOffset =>
    refine Frames.cpu.bind (fun state => (Frames.immediateByte _).bind (fun offset => ?_))
    refine (Frames.modifyCpu (fun cpu => ?_)).bind (fun _ => .pure _)
    have hsp : Unchanged (executeWrites .addSpOffset) cpu
        { cpu with sp := (Alu.addSignedToSp state.sp offset).1 } := .setSp (by decide) _
    exact hsp.trans (.setFlags (by decide) _)
  | loadSpHl =>
    exact (Frames.modifyCpu (fun _ => .setSp (by decide) _)).bind (fun _ => .pure _)
  | increment8 target | decrement8 target =>
    refine (Frames.readOperand _ _).bind (fun _ => Frames.cpu.bind (fun _ => ?_))
    refine (Frames.writeOperand ?_ _).bind (fun _ => ?_)
    · exact fun _ hmem => operation_mem hmem
    exact (Frames.setFlags (flags_mem (by simp [flagEffect, preserveFlags])) _).bind
      (fun _ => .pure _)
  | alu8 operation source =>
    have hflags : .f ∈ executeWrites (.alu8 operation source) :=
      flags_mem (by cases operation <;> simp [flagEffect, aluFlags, preserveFlags])
    refine (Frames.readOperand _ _).bind (fun _ => Frames.cpu.bind (fun _ => ?_))
    by_cases hcompare : operation = .compare
    · simp only [hcompare, ne_eq, not_true_eq_false, if_false]
      rw [hcompare] at hflags
      exact (Frames.pure _).bind (fun _ => (Frames.setFlags hflags _).bind (fun _ => .pure _))
    · have haccumulator : .a ∈ executeWrites (.alu8 operation source) := by
        cases operation <;> simp [executeWrites, operationWrites] at hcompare ⊢
      simp only [hcompare, ne_eq, not_false_eq_true, if_true]
      refine (Frames.modifyCpu (fun _ => .setRegister8 haccumulator _)).bind (fun _ => ?_)
      exact (Frames.setFlags hflags _).bind (fun _ => .pure _)
  | addHl source =>
    refine Frames.cpu.bind (fun _ => (Frames.modifyCpu (fun _ => ?_)).bind (fun _ => .pure _))
    refine (Unchanged.setRegister16 ?_ _).trans (.setFlags ?_ _)
    · exact fun _ hmem => operation_mem hmem
    · exact flags_mem (by simp [flagEffect, preserveFlags])
  | increment16 target | decrement16 target =>
    refine (Frames.modifyCpu (fun _ => .setRegister16 ?_ _)).bind (fun _ => .pure _)
    exact fun _ hmem => operation_mem hmem
  | rotateAccumulator rotate =>
    refine Frames.cpu.bind (fun _ => ?_)
    dsimp only
    split
    · refine (Frames.modifyCpu (fun _ => ?_)).bind (fun _ => .pure _)
      refine (Unchanged.setRegister8 (operation_mem (by simp [operationWrites, registerComponent]))
        _).trans (.setFlags ?_ _)
      exact flags_mem (by simp [flagEffect, preserveFlags])
    · exact .throw _
  | cb operation target => exact frames_cb bus operation target immediates
  | relativeJump condition =>
    refine (Frames.taken _).bind (fun branch => ?_)
    cases branch with
    | false => exact .pure _
    | true =>
      refine (Frames.immediateByte _).bind (fun _ => ?_)
      exact (Frames.modifyCpu (fun _ => .setPc (pc_mem (by simp [pcRule])) _)).bind (fun _ => .pure _)
  | jumpHl =>
    exact (Frames.modifyCpu (fun _ => .setPc (pc_mem (by simp [pcRule])) _)).bind (fun _ => .pure _)
  | jump condition =>
    refine (Frames.taken _).bind (fun branch => ?_)
    cases branch with
    | false => exact .pure _
    | true =>
      refine (Frames.immediateWord _).bind (fun _ => ?_)
      exact (Frames.setPc (pc_mem (by simp [pcRule])) _).bind (fun _ => .pure _)
  | «return» condition =>
    refine (Frames.taken _).bind (fun branch => ?_)
    cases branch with
    | false => exact .pure _
    | true =>
      refine (Frames.popWord (operation_mem (by simp [operationWrites]))).bind (fun _ => ?_)
      exact (Frames.setPc (pc_mem (by simp [pcRule])) _).bind (fun _ => .pure _)
  | returnFromInterrupt =>
    refine (Frames.popWord (operation_mem (by simp [operationWrites]))).bind (fun target => ?_)
    refine (Frames.modifyCpu (fun cpu => ?_)).bind (fun _ => .pure _)
    have hpc : Unchanged (executeWrites .returnFromInterrupt) cpu { cpu with pc := target } :=
      .setPc (by decide) _
    exact hpc.trans (.setIme (by decide) _)
  | call condition =>
    refine (Frames.taken _).bind (fun branch => ?_)
    cases branch with
    | false => exact .pure _
    | true =>
      refine Frames.cpu.bind (fun _ => (Frames.pushWord (operation_mem (by simp [operationWrites])) _).bind (fun _ => ?_))
      refine (Frames.immediateWord _).bind (fun _ => ?_)
      exact (Frames.setPc (pc_mem (by simp [pcRule])) _).bind (fun _ => .pure _)
  | restart vector =>
    refine Frames.cpu.bind (fun _ => (Frames.pushWord (operation_mem (by simp [operationWrites])) _).bind (fun _ => ?_))
    exact (Frames.setPc (pc_mem (by simp [pcRule])) _).bind (fun _ => .pure _)
  | pop register =>
    refine (Frames.popWord (operation_mem List.mem_cons_self)).bind (fun _ => ?_)
    refine (Frames.modifyCpu (fun _ => .setStackRegister ?_ _)).bind (fun _ => .pure _)
    exact fun _ hmem => operation_mem (List.mem_cons_of_mem _ hmem)
  | push register =>
    exact Frames.cpu.bind (fun _ => (Frames.pushWord (operation_mem (by simp [operationWrites])) _).bind (fun _ => .pure _))
  | disableInterrupts | enableInterrupts =>
    exact (Frames.modifyCpu (fun _ => .setIme (by decide) _)).bind (fun _ => .pure _)
  | halt =>
    exact (Frames.modifyCpu (fun _ => .setRunState (by decide) _)).bind (fun _ => .pure _)
  | stop =>
    refine (Frames.immediateByte _).bind (fun padding => ?_)
    by_cases hpadding : padding = 0
    · simp only [hpadding, ne_eq, not_true_eq_false, if_false]
      exact (Frames.modifyCpu (fun _ => .setRunState (by decide) _)).bind (fun _ => .pure _)
    · simp only [hpadding, ne_eq, not_false_eq_true, if_true]
      exact .throw _
  | prefixCb => exact .throw _

end Exec

end Zksm83
