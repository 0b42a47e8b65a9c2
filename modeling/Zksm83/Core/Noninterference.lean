import Zksm83.Core.IsaFrame

/-!
# Declared reads determine an instruction

Two machines that agree outside of the CPU, and in the CPU on the components that the table declares
as read, take the same instruction step: both are rejected for one reason, or both are accepted with
the same accesses and branch, and agree on what the table declares as written. The proof runs both
machines in lockstep; the bus sees only addresses and values, so that it stays the same in both.
-/

namespace Zksm83

open Rejecting

namespace IsaTable

open StateComponent

/-- Two CPU states agree on the listed components. -/
def AgreeOn (components : List StateComponent) (first second : CpuState) : Prop :=
  ∀ component ∈ components, component.Same first second

namespace AgreeOn

variable {components : List StateComponent} {first second : CpuState}

theorem mono {fewer : List StateComponent} (h : AgreeOn components first second)
    (hfewer : ∀ component ∈ fewer, component ∈ components) : AgreeOn fewer first second :=
  fun component hmem => h component (hfewer component hmem)

theorem register8_eq {register : Register8} (h : AgreeOn components first second)
    (hmem : registerComponent register ∈ components) :
    first.register8 register = second.register8 register := by
  have hsame := h _ hmem
  cases register <;> exact hsame

theorem register16_eq {register : Register16} (h : AgreeOn components first second)
    (hmem : ∀ component ∈ registerMask register, component ∈ components) :
    first.register16 register = second.register16 register := by
  have hsame := h.mono hmem
  cases register with
  | bc =>
    have hhigh : first.registers.b = second.registers.b := hsame b (by decide)
    have hlow : first.registers.c = second.registers.c := hsame c (by decide)
    simp only [CpuState.register16, hhigh, hlow]
  | de =>
    have hhigh : first.registers.d = second.registers.d := hsame d (by decide)
    have hlow : first.registers.e = second.registers.e := hsame e (by decide)
    simp only [CpuState.register16, hhigh, hlow]
  | hl =>
    have hhigh : first.registers.h = second.registers.h := hsame StateComponent.h (by decide)
    have hlow : first.registers.l = second.registers.l := hsame l (by decide)
    simp only [CpuState.register16, hhigh, hlow]
  | sp => exact hsame sp (by decide)

theorem stackRegister_eq {register : StackRegister16} (h : AgreeOn components first second)
    (hmem : ∀ component ∈ stackRegisterMask register, component ∈ components) :
    first.stackRegister register = second.stackRegister register := by
  cases register with
  | bc => exact @register16_eq components first second .bc h hmem
  | de => exact @register16_eq components first second .de h hmem
  | hl => exact @register16_eq components first second .hl h hmem
  | af =>
    have haccumulator : first.registers.a = second.registers.a := h a (hmem a (by decide))
    have hflags : first.flags = second.flags := h f (hmem f (by decide))
    simp only [CpuState.stackRegister, haccumulator, hflags]

theorem indirectAddress_eq {address : IndirectAddress} (h : AgreeOn components first second)
    (hmem : ∀ component ∈ indirectRead address, component ∈ components) :
    first.indirectAddress address = second.indirectAddress address := by
  cases address with
  | bc => exact @register16_eq components first second .bc h hmem
  | de => exact @register16_eq components first second .de h hmem
  | hlIncrement => exact @register16_eq components first second .hl h hmem
  | hlDecrement => exact @register16_eq components first second .hl h hmem

theorem takes_eq (h : AgreeOn components first second) (hmem : f ∈ components)
    (condition : Option Condition) : first.takes condition = second.takes condition := by
  have hflags : first.flags = second.flags := h f hmem
  rcases condition with _ | condition
  · rfl
  · cases condition <;> simp only [CpuState.takes, CpuState.conditionHolds, hflags]

/-- What two runs wrote alike they agree on, and elsewhere they agree as before. -/
theorem written {written : List StateComponent} {newFirst newSecond : CpuState}
    (h : AgreeOn components first second) (hfirst : Unchanged written first newFirst)
    (hsecond : Unchanged written second newSecond) (hnew : AgreeOn written newFirst newSecond) :
    AgreeOn (written ++ components) newFirst newSecond := by
  intro component hmem
  by_cases hwritten : component ∈ written
  · exact hnew component hwritten
  · have hin : component ∈ components := (List.mem_append.mp hmem).resolve_left hwritten
    exact ((hfirst component hwritten).symm.trans (h component hin)).trans
      (hsecond component hwritten)

theorem setRegister8 (register : Register8) (h : AgreeOn components first second) (value : ℕ) :
    AgreeOn ([registerComponent register] ++ components) (first.setRegister8 register value)
      (second.setRegister8 register value) := by
  have hmem : registerComponent register ∈ [registerComponent register] := List.mem_singleton.mpr rfl
  refine h.written (.setRegister8 hmem value) (.setRegister8 hmem value) ?_
  intro component hwritten
  rw [List.mem_singleton.mp hwritten]
  cases register <;> rfl

theorem setRegister16 (register : Register16) (h : AgreeOn components first second) (value : ℕ) :
    AgreeOn (registerMask register ++ components) (first.setRegister16 register value)
      (second.setRegister16 register value) := by
  refine h.written (.setRegister16 (fun _ hmem => hmem) value)
    (.setRegister16 (fun _ hmem => hmem) value) ?_
  intro component hwritten
  cases register <;> cases component <;> first | rfl | exact absurd hwritten (by decide)

theorem setFlags (h : AgreeOn components first second) (flags : Flags) :
    AgreeOn ([f] ++ components) { first with flags := flags } { second with flags := flags } := by
  refine h.written (.setFlags (by decide) flags) (.setFlags (by decide) flags) ?_
  intro component hwritten
  rw [List.mem_singleton.mp hwritten]
  rfl

theorem setSp (h : AgreeOn components first second) (value : ℕ) :
    AgreeOn ([sp] ++ components) { first with sp := value } { second with sp := value } := by
  refine h.written (.setSp (by decide) value) (.setSp (by decide) value) ?_
  intro component hwritten
  rw [List.mem_singleton.mp hwritten]
  rfl

theorem setPc (h : AgreeOn components first second) (value : ℕ) :
    AgreeOn ([pc] ++ components) { first with pc := value } { second with pc := value } := by
  refine h.written (.setPc (by decide) value) (.setPc (by decide) value) ?_
  intro component hwritten
  rw [List.mem_singleton.mp hwritten]
  rfl

theorem setIme (h : AgreeOn components first second) (value : ImeState) :
    AgreeOn ([ime] ++ components) { first with ime := value } { second with ime := value } := by
  refine h.written (.setIme (by decide) value) (.setIme (by decide) value) ?_
  intro component hwritten
  rw [List.mem_singleton.mp hwritten]
  rfl

theorem setRunState (h : AgreeOn components first second) (value : RunState) :
    AgreeOn ([runState] ++ components) { first with runState := value }
      { second with runState := value } := by
  refine h.written (.setRunState (by decide) value) (.setRunState (by decide) value) ?_
  intro component hwritten
  rw [List.mem_singleton.mp hwritten]
  rfl

theorem setMCycles (h : AgreeOn components first second) (value : ℕ) :
    AgreeOn ([mCycles] ++ components) { first with mCycles := value }
      { second with mCycles := value } := by
  refine h.written (.setMCycles (by decide) value) (.setMCycles (by decide) value) ?_
  intro component hwritten
  rw [List.mem_singleton.mp hwritten]
  rfl

theorem of_append {written : List StateComponent}
    (h : AgreeOn (written ++ components) first second) : AgreeOn components first second :=
  h.mono (fun _ hmem => List.mem_append_right _ hmem)

theorem setStackRegister (register : StackRegister16) (h : AgreeOn components first second)
    (value : ℕ) :
    AgreeOn (stackRegisterMask register ++ components) (first.setStackRegister register value)
      (second.setStackRegister register value) := by
  cases register with
  | bc => exact h.setRegister16 .bc value
  | de => exact h.setRegister16 .de value
  | hl => exact h.setRegister16 .hl value
  | af =>
    refine ((h.setRegister8 .a (value / 256)).setFlags (.fromByte (value % 256))).mono ?_
    simp only [stackRegisterMask, registerComponent, List.mem_append, List.mem_cons,
      List.not_mem_nil, or_false]
    tauto

end AgreeOn

end IsaTable

namespace Exec

open IsaTable

variable {σ α β : Type}

/-- Two executors with the same bus and CPUs that agree on the listed components. -/
structure Agreeing (components : List StateComponent) (first second : Executor σ) : Prop where
  bus_eq : first.bus = second.bus
  cpu : AgreeOn components first.cpu second.cpu

/-- Runs from executors that agree on `reads` end in the same way and agree on `writes`. -/
def Determined (reads : List StateComponent) (action : Exec σ α) (writes : List StateComponent) :
    Prop :=
  Lockstep (Agreeing reads) action (Agreeing writes)

namespace Determined

variable {reads middle writes : List StateComponent} {bus : CpuBus σ}

theorem pure (value : α) (hmem : ∀ component ∈ writes, component ∈ reads) :
    Determined reads (Pure.pure value : Exec σ α) writes :=
  Lockstep.pure (fun h => ⟨h.bus_eq, h.cpu.mono hmem⟩) value

theorem done (value : α) : Determined reads (Pure.pure value : Exec σ α) reads :=
  pure value (fun _ hmem => hmem)

theorem throw (error : StepError) : Determined reads (MonadExcept.throw error : Exec σ α) writes :=
  Lockstep.throw error

theorem bind {action : Exec σ α} {continuation : α → Exec σ β}
    (hfirst : Determined reads action middle)
    (hrest : ∀ value, Determined middle (continuation value) writes) :
    Determined reads (action >>= continuation) writes :=
  Lockstep.bind hfirst hrest

/-- An action that uses only components that both agree on. -/
theorem cpu_bind {continuation : CpuState → Exec σ β}
    (hsame : ∀ {first second}, AgreeOn reads first second →
      continuation first = continuation second)
    (hrest : ∀ state, Determined reads (continuation state) writes) :
    Determined reads (Exec.cpu >>= continuation) writes := by
  intro first second hagree
  show Matches _ (outcome (continuation first.cpu) first) (outcome (continuation second.cpu) second)
  rw [hsame hagree.cpu]
  exact hrest second.cpu hagree

theorem onBus (access : σ → Except StepError α × σ) :
    Determined reads (Exec.onBus access) reads := by
  intro first second hagree
  show Matches _ ((access first.bus).1, (⟨first.cpu, (access first.bus).2⟩ : Executor σ))
    ((access second.bus).1, (⟨second.cpu, (access second.bus).2⟩ : Executor σ))
  rw [hagree.bus_eq]
  cases (access second.bus).1 with
  | error error => exact .rejected
  | ok value => exact .accepted ⟨rfl, hagree.cpu⟩

theorem modifyCpu {change : CpuState → CpuState}
    (hchange : ∀ {first second}, AgreeOn reads first second →
      AgreeOn writes (change first) (change second)) :
    Determined reads (Exec.modifyCpu change : Exec σ Unit) writes :=
  Lockstep.of_modify (fun h => ⟨h.bus_eq, hchange h.cpu⟩)

theorem readData (address : ℕ) : Determined reads (Exec.readData bus address) reads := onBus _

theorem writeData (address value : ℕ) :
    Determined reads (Exec.writeData bus address value) reads := onBus _

theorem setPc (target : ℕ) :
    Determined reads (Exec.setPc target : Exec σ Unit) reads :=
  modifyCpu (fun h => (h.setPc target).of_append)

theorem setFlags (flags : Flags) :
    Determined reads (Exec.setFlags flags : Exec σ Unit) reads :=
  modifyCpu (fun h => (h.setFlags flags).of_append)

theorem immediateByte (immediates : List ℕ) :
    Determined reads (Exec.immediateByte immediates : Exec σ ℕ) reads := by
  cases immediates with
  | nil => exact throw _
  | cons byte rest => exact done _

theorem immediateWord (immediates : List ℕ) :
    Determined reads (Exec.immediateWord immediates : Exec σ ℕ) reads := by
  match immediates with
  | [] => exact throw _
  | [_] => exact throw _
  | low :: high :: rest => exact done _

theorem taken (hmem : .f ∈ reads) (condition : Option Condition) :
    Determined reads (Exec.taken condition : Exec σ Bool) reads := by
  cases condition with
  | none => exact done _
  | some condition =>
    refine cpu_bind (fun h => ?_) (fun _ => done _)
    have htakes := h.takes_eq hmem (some condition)
    simp only [CpuState.takes] at htakes
    rw [htakes]

theorem readOperand {operand : Operand8}
    (hmem : ∀ component ∈ operandRead operand, component ∈ reads) (immediates : List ℕ) :
    Determined reads (Exec.readOperand bus operand immediates) reads := by
  cases operand with
  | register register =>
    refine cpu_bind (fun h => ?_) (fun _ => done _)
    rw [h.register8_eq (hmem _ (List.mem_singleton.mpr rfl))]
  | immediate =>
    cases immediates with
    | nil => exact throw _
    | cons byte rest => exact done _
  | indirectHl =>
    refine cpu_bind (fun h => ?_) (fun _ => readData _)
    rw [@AgreeOn.register16_eq _ _ _ .hl h hmem]

theorem writeOperand {operand : Operand8}
    (hmem : ∀ component ∈ destinationRead operand, component ∈ reads) (value : ℕ) :
    Determined reads (Exec.writeOperand bus operand value) (operandWrite operand ++ reads) := by
  cases operand with
  | register register => exact modifyCpu (fun h => h.setRegister8 register value)
  | immediate => exact throw _
  | indirectHl =>
    refine cpu_bind (fun h => ?_) (fun _ => writeData _ _)
    rw [@AgreeOn.register16_eq _ _ _ .hl h hmem]

theorem transferAccumulator {direction : TransferDirection}
    (hmem : ∀ component ∈ transferRead direction, component ∈ reads) (address : ℕ) :
    Determined reads (Exec.transferAccumulator bus address direction)
      (transferWrite direction ++ reads) := by
  cases direction with
  | intoAccumulator =>
    exact (readData address).bind (fun value => modifyCpu (fun h => h.setRegister8 .a value))
  | fromAccumulator =>
    refine cpu_bind (fun {first second} h => ?_) (fun _ => writeData _ _)
    have haccumulator : first.registers.a = second.registers.a := h .a (hmem .a (by decide))
    rw [haccumulator]

theorem pushWord (hmem : .sp ∈ reads) (value : ℕ) :
    Determined reads (Exec.pushWord bus value) reads := by
  have hsp : ∀ address, Determined reads
      (Exec.modifyCpu (fun cpu => { cpu with sp := address }) : Exec σ Unit) reads :=
    fun address => modifyCpu (fun h => (h.setSp address).of_append)
  refine cpu_bind (fun {first second} h => ?_) (fun _ => (writeData _ _).bind (fun _ => ?_))
  · have hstack : first.sp = second.sp := h .sp hmem
    rw [hstack]
  · exact (hsp _).bind (fun _ => (writeData _ _).bind (fun _ => hsp _))

theorem popWord (hmem : .sp ∈ reads) : Determined reads (Exec.popWord bus) reads := by
  refine cpu_bind (fun {first second} h => ?_)
    (fun _ => (readData _).bind (fun _ => (readData _).bind (fun _ => ?_)))
  · have hstack : first.sp = second.sp := h .sp hmem
    rw [hstack]
  · exact (modifyCpu (fun h => (h.setSp _).of_append)).bind
      (fun _ => done _)

end Determined

section Operations

variable (bus : CpuBus σ) {operation : Operation} (immediates : List ℕ)

theorem mem_stateReads {component : StateComponent} (hmem : component ∈ operationReads operation) :
    component ∈ stateReads operation :=
  List.mem_append_right _ hmem

theorem f_mem_stateReads : .f ∈ stateReads operation := by simp [stateReads]

/-- The address of a destination is read as an operand is. -/
theorem operandRead_of_destinationRead {operand : Operand8} {component : StateComponent}
    (hmem : component ∈ destinationRead operand) : component ∈ operandRead operand := by
  unfold destinationRead at hmem
  split at hmem
  · rename_i hindirect
    rw [hindirect]
    exact hmem
  · exact absurd hmem List.not_mem_nil

/-- What an operation lists as written when that is only the stack pointer. -/
theorem stackOperation_mem {components : List StateComponent} (hsp : .sp ∈ components) :
    ∀ component ∈ [.sp] ++ components, component ∈ components := by
  intro component hmem
  rcases List.mem_append.mp hmem with hsingle | hin
  · rw [List.mem_singleton.mp hsingle]
    exact hsp
  · exact hin

theorem determined_loadAccumulatorIndirect (address : IndirectAddress)
    (direction : TransferDirection) :
    Determined (stateReads (.loadAccumulatorIndirect address direction))
      (execute bus (.loadAccumulatorIndirect address direction) immediates)
      (operationWrites (.loadAccumulatorIndirect address direction) ++
        stateReads (.loadAccumulatorIndirect address direction)) := by
  have haddress : ∀ component ∈ indirectRead address,
      component ∈ stateReads (.loadAccumulatorIndirect address direction) :=
    fun _ hmem => mem_stateReads (List.mem_append_left _ hmem)
  refine Determined.cpu_bind ?_ (fun state => (Determined.transferAccumulator ?_ _).bind
    (fun _ => Determined.bind (Determined.modifyCpu ?_) (fun _ => .done _)))
  · intro first second hagree
    simp only [hagree.indirectAddress_eq haddress]
  · exact fun _ hmem => mem_stateReads (List.mem_append_right _ hmem)
  · intro first second hagree
    have hupdate : ∀ value, AgreeOn (transferWrite direction ++ registerMask .hl ++
        stateReads (.loadAccumulatorIndirect address direction)) (first.setRegister16 .hl value)
        (second.setRegister16 .hl value) := by
      intro value
      refine (hagree.setRegister16 .hl value).mono ?_
      simp only [List.mem_append]
      tauto
    cases address with
    | bc | de => exact hagree
    | hlIncrement | hlDecrement =>
      have hpair := @AgreeOn.register16_eq _ _ _ .hl hagree
        (fun _ hmem => List.mem_append_right _ (haddress _ hmem))
      simp only [CpuState.updateHlAfterIndirect, hpair]
      exact hupdate _

theorem determined_cb (operation : CbOperation) (target : Operand8) :
    Determined (stateReads (.cb operation target)) (execute bus (.cb operation target) immediates)
      (operationWrites (.cb operation target) ++ stateReads (.cb operation target)) := by
  have hread : ∀ component ∈ operandRead target, component ∈ stateReads (.cb operation target) :=
    fun _ hmem => mem_stateReads hmem
  have hdestination : ∀ component ∈ destinationRead target,
      component ∈ stateReads (.cb operation target) :=
    fun _ hmem => hread _ (operandRead_of_destinationRead hmem)
  cases operation with
  | testBit bit =>
    refine (Determined.readOperand hread _).bind (fun value => Determined.cpu_bind ?_ (fun _ => ?_))
    · intro first second hagree
      have hflags : first.flags = second.flags := hagree .f f_mem_stateReads
      simp only [hflags]
    · exact (Determined.setFlags _).bind (fun _ => .done _)
  | resetBit bit | setBit bit =>
    refine (Determined.readOperand hread _).bind (fun value => ?_)
    exact (Determined.writeOperand hdestination _).bind (fun _ => .done _)
  | _ =>
    refine (Determined.readOperand hread _).bind (fun value => Determined.cpu_bind ?_ (fun _ => ?_))
    · intro first second hagree
      have hflags : first.flags = second.flags := hagree .f f_mem_stateReads
      simp only [hflags]
    · refine (Determined.writeOperand hdestination _).bind (fun _ => ?_)
      exact (Determined.setFlags _).bind (fun _ => .done _)

/-- Every operation is determined by its declared reads. -/
theorem determined_execute (operation : Operation) :
    Determined (stateReads operation) (execute bus operation immediates)
      (operationWrites operation ++ stateReads operation) := by
  cases operation with
  | nop => exact .done _
  | decimalAdjust =>
    refine Determined.cpu_bind ?_ (fun state => ?_)
    · intro first second hagree
      have haccumulator : first.registers.a = second.registers.a := hagree .a (by decide)
      have hflags : first.flags = second.flags := hagree .f (by decide)
      simp only [haccumulator, hflags]
    · refine Determined.bind (Determined.modifyCpu (fun h => ?_)) (fun _ => .done _)
      exact ((h.setRegister8 .a _).setFlags _).of_append
  | complementAccumulator =>
    refine Determined.bind (Determined.modifyCpu ?_) (fun _ => .done _)
    intro first second hagree
    have haccumulator : first.registers.a = second.registers.a := hagree .a (by decide)
    have hflags : first.flags = second.flags := hagree .f (by decide)
    simp only [haccumulator, hflags]
    exact ((hagree.setRegister8 .a _).setFlags _).of_append
  | setCarry | complementCarry =>
    refine Determined.bind (Determined.modifyCpu ?_) (fun _ => .done _)
    intro first second hagree
    have hflags : first.flags = second.flags := hagree .f (by decide)
    simp only [hflags]
    exact (hagree.setFlags _).of_append
  | storeSpAbsolute =>
    refine (Determined.immediateWord _).bind (fun address => ?_)
    refine (Determined.cpu_bind ?_ (fun _ => ?_)).bind (fun _ => .done _)
    · intro first second hagree
      have hstack : first.sp = second.sp := hagree .sp (by decide)
      simp only [hstack]
    · exact (Determined.writeData _ _).bind (fun _ => .writeData _ _)
  | load16Immediate register =>
    refine (Determined.immediateWord _).bind (fun value => ?_)
    exact Determined.bind (Determined.modifyCpu (fun h => h.setRegister16 register value))
      (fun _ => .done _)
  | loadAccumulatorIndirect address direction =>
    exact determined_loadAccumulatorIndirect bus immediates address direction
  | load8Immediate target =>
    refine (Determined.immediateByte _).bind (fun value => ?_)
    refine (Determined.writeOperand ?_ _).bind (fun _ => .done _)
    exact fun _ hmem => mem_stateReads hmem
  | load8 destination source =>
    refine (Determined.readOperand ?_ _).bind (fun value => ?_)
    · exact fun _ hmem => mem_stateReads (List.mem_append_left _ hmem)
    · refine (Determined.writeOperand ?_ _).bind (fun _ => .done _)
      exact fun _ hmem => mem_stateReads (List.mem_append_right _ hmem)
  | highImmediateLoad direction =>
    refine (Determined.immediateByte _).bind (fun value => ?_)
    refine (Determined.transferAccumulator ?_ _).bind (fun _ => .done _)
    exact fun _ hmem => mem_stateReads hmem
  | highCLoad direction =>
    refine Determined.cpu_bind ?_ (fun state => ?_)
    · intro first second hagree
      have hregister : first.registers.c = second.registers.c :=
        hagree .c (mem_stateReads List.mem_cons_self)
      simp only [hregister]
    · refine (Determined.transferAccumulator ?_ _).bind (fun _ => .done _)
      exact fun _ hmem => mem_stateReads (List.mem_cons_of_mem _ hmem)
  | absoluteAccumulatorLoad direction =>
    refine (Determined.immediateWord _).bind (fun value => ?_)
    refine (Determined.transferAccumulator ?_ _).bind (fun _ => .done _)
    exact fun _ hmem => mem_stateReads hmem
  | loadHlSpOffset =>
    refine Determined.cpu_bind ?_ (fun state => (Determined.immediateByte _).bind (fun _ => ?_))
    · intro first second hagree
      have hstack : first.sp = second.sp := hagree .sp (by decide)
      simp only [hstack]
    · refine Determined.bind (Determined.modifyCpu (fun h => ?_)) (fun _ => .done _)
      exact ((h.setRegister16 .hl _).setFlags _).of_append
  | addSpOffset =>
    refine Determined.cpu_bind ?_ (fun state => (Determined.immediateByte _).bind (fun offset => ?_))
    · intro first second hagree
      have hstack : first.sp = second.sp := hagree .sp (by decide)
      simp only [hstack]
    · refine Determined.bind (Determined.modifyCpu (fun h => ?_)) (fun _ => .done _)
      have hsp := h.setSp (Alu.addSignedToSp state.sp offset).1
      exact (hsp.setFlags _).of_append
  | loadSpHl =>
    refine Determined.bind (Determined.modifyCpu ?_) (fun _ => .done _)
    intro first second hagree
    have hpair := @AgreeOn.register16_eq _ _ _ .hl hagree (by decide)
    simp only [hpair]
    exact hagree.setSp _
  | increment8 target | decrement8 target =>
    have hread : ∀ component ∈ operandRead target, component ∈ stateReads (.increment8 target) :=
      fun _ hmem => mem_stateReads hmem
    refine (Determined.readOperand hread _).bind (fun value => Determined.cpu_bind ?_ (fun _ => ?_))
    · intro first second hagree
      have hflags : first.flags = second.flags := hagree .f f_mem_stateReads
      simp only [hflags]
    · refine (Determined.writeOperand (fun _ hmem => ?_) _).bind (fun _ => ?_)
      · exact hread _ (operandRead_of_destinationRead hmem)
      · exact (Determined.setFlags _).bind (fun _ => .done _)
  | alu8 operation source =>
    refine (Determined.readOperand ?_ _).bind (fun value => Determined.cpu_bind ?_ (fun _ => ?_))
    · exact fun _ hmem => mem_stateReads (List.mem_cons_of_mem _ hmem)
    · intro first second hagree
      have haccumulator : first.registers.a = second.registers.a :=
        hagree .a (mem_stateReads List.mem_cons_self)
      have hflags : first.flags = second.flags := hagree .f f_mem_stateReads
      simp only [haccumulator, hflags]
    · cases operation with
      | compare => exact (Determined.setFlags _).bind (fun _ => .done _)
      | _ =>
        refine Determined.bind (Determined.modifyCpu (fun h => h.setRegister8 .a _)) (fun _ => ?_)
        exact (Determined.setFlags _).bind (fun _ => .done _)
  | addHl source =>
    refine Determined.cpu_bind ?_ (fun state => ?_)
    · intro first second hagree
      have hpair := @AgreeOn.register16_eq _ _ _ .hl hagree
        (fun _ hmem => mem_stateReads (List.mem_append_left _ hmem))
      have hsource := @AgreeOn.register16_eq _ _ _ source hagree
        (fun _ hmem => mem_stateReads (List.mem_append_right _ hmem))
      have hflags : first.flags = second.flags := hagree .f f_mem_stateReads
      simp only [hpair, hsource, hflags]
    · refine Determined.bind (Determined.modifyCpu (fun h => ?_)) (fun _ => .done _)
      exact ((h.setRegister16 .hl _).setFlags _).of_append
  | increment16 target | decrement16 target =>
    refine Determined.bind (Determined.modifyCpu ?_) (fun _ => .done _)
    intro first second hagree
    have hpair := @AgreeOn.register16_eq _ _ _ target hagree (fun _ hmem => mem_stateReads hmem)
    simp only [hpair]
    exact hagree.setRegister16 target _
  | rotateAccumulator rotate =>
    refine Determined.cpu_bind ?_ (fun state => ?_)
    · intro first second hagree
      have haccumulator : first.registers.a = second.registers.a :=
        hagree .a (mem_stateReads List.mem_cons_self)
      have hflags : first.flags = second.flags := hagree .f f_mem_stateReads
      simp only [haccumulator, hflags]
    · dsimp only
      split
      · refine Determined.bind (Determined.modifyCpu (fun h => ?_)) (fun _ => .done _)
        exact ((h.setRegister8 .a _).setFlags _).of_append
      · exact .throw _
  | cb operation target => exact determined_cb bus immediates operation target
  | relativeJump condition =>
    refine (Determined.taken f_mem_stateReads _).bind (fun branch => ?_)
    cases branch with
    | false => exact .done _
    | true =>
      refine (Determined.immediateByte _).bind (fun offset => ?_)
      refine Determined.bind (Determined.modifyCpu ?_) (fun _ => .done _)
      intro first second hagree
      have hpc : first.pc = second.pc := hagree .pc (by simp [stateReads])
      simp only [hpc]
      exact (hagree.setPc _).of_append
  | jumpHl =>
    refine Determined.bind (Determined.modifyCpu ?_) (fun _ => .done _)
    intro first second hagree
    have hpair := @AgreeOn.register16_eq _ _ _ .hl hagree (by decide)
    simp only [hpair]
    exact (hagree.setPc _).of_append
  | jump condition =>
    refine (Determined.taken f_mem_stateReads _).bind (fun branch => ?_)
    cases branch with
    | false => exact .done _
    | true =>
      refine (Determined.immediateWord _).bind (fun _ => ?_)
      exact (Determined.setPc _).bind (fun _ => .done _)
  | «return» condition =>
    have hsp : .sp ∈ stateReads (.return condition) :=
      mem_stateReads (List.mem_append_right _ (List.mem_singleton.mpr rfl))
    refine (Determined.taken f_mem_stateReads _).bind (fun branch => ?_)
    cases branch with
    | false => exact .pure _ (stackOperation_mem hsp)
    | true =>
      refine (Determined.popWord hsp).bind (fun _ => ?_)
      exact (Determined.setPc _).bind (fun _ => .pure _ (stackOperation_mem hsp))
  | returnFromInterrupt =>
    refine (Determined.popWord (by decide)).bind (fun target => ?_)
    refine Determined.bind (Determined.modifyCpu (fun h => ?_))
      (fun _ => .pure _ (stackOperation_mem (by decide)))
    exact ((h.setPc target).setIme .enabled).of_append.of_append
  | call condition =>
    have hsp : .sp ∈ stateReads (.call condition) :=
      mem_stateReads (List.mem_append_right _ (List.mem_singleton.mpr rfl))
    refine (Determined.taken f_mem_stateReads _).bind (fun branch => ?_)
    cases branch with
    | false => exact .pure _ (stackOperation_mem hsp)
    | true =>
      refine Determined.cpu_bind ?_ (fun state => (Determined.pushWord hsp _).bind (fun _ => ?_))
      · intro first second hagree
        have hpc : first.pc = second.pc := hagree .pc (by simp [stateReads])
        simp only [hpc]
      · refine (Determined.immediateWord _).bind (fun _ => ?_)
        exact (Determined.setPc _).bind (fun _ => .pure _ (stackOperation_mem hsp))
  | restart vector =>
    have hsp : .sp ∈ stateReads (.restart vector) := mem_stateReads List.mem_cons_self
    refine Determined.cpu_bind ?_ (fun state => (Determined.pushWord hsp _).bind (fun _ => ?_))
    · intro first second hagree
      have hpc : first.pc = second.pc := hagree .pc (by simp [stateReads])
      simp only [hpc]
    · exact (Determined.setPc _).bind (fun _ => .pure _ (stackOperation_mem hsp))
  | pop register =>
    have hsp : .sp ∈ stateReads (.pop register) := mem_stateReads List.mem_cons_self
    refine (Determined.popWord hsp).bind (fun value => ?_)
    refine Determined.bind (Determined.modifyCpu (fun h => h.setStackRegister register value))
      (fun _ => .pure _ ?_)
    intro component hmem
    rcases List.mem_cons.mp hmem with rfl | hin
    · exact List.mem_append_right _ hsp
    · exact hin
  | push register =>
    have hsp : .sp ∈ stateReads (.push register) :=
      mem_stateReads (List.mem_append_right _ (List.mem_singleton.mpr rfl))
    refine Determined.cpu_bind ?_ (fun state => (Determined.pushWord hsp _).bind (fun _ => ?_))
    · intro first second hagree
      have hword := @AgreeOn.stackRegister_eq _ _ _ register hagree
        (fun _ hmem => mem_stateReads (List.mem_append_left _ hmem))
      simp only [hword]
    · exact .pure _ (stackOperation_mem hsp)
  | disableInterrupts | enableInterrupts =>
    exact Determined.bind (Determined.modifyCpu (fun h => h.setIme _)) (fun _ => .done _)
  | halt =>
    exact Determined.bind (Determined.modifyCpu (fun h => h.setRunState _)) (fun _ => .done _)
  | stop =>
    refine (Determined.immediateByte _).bind (fun padding => ?_)
    by_cases hpadding : padding = 0
    · simp only [hpadding, ne_eq, not_true_eq_false, if_false]
      exact Determined.bind (Determined.modifyCpu (fun h => h.setRunState _)) (fun _ => .done _)
    · simp only [hpadding, ne_eq, not_false_eq_true, if_true]
      exact .throw _
  | prefixCb => exact .throw _

end Operations

section Fetch

variable {bus : CpuBus σ} {components : List StateComponent}

theorem determined_fetchAndAdvance (hpc : .pc ∈ components) (role : BusRole) :
    Determined components (fetchAndAdvance bus role) components := by
  refine Determined.cpu_bind ?_ (fun state => (Determined.onBus _).bind (fun value => ?_))
  · intro first second hagree
    have hsame : first.pc = second.pc := hagree .pc hpc
    simp only [hsame]
  · exact Determined.bind (Determined.modifyCpu (fun h => (h.setPc _).of_append))
      (fun _ => .done _)

theorem determined_fetchFirstOpcode (hpc : .pc ∈ components) (haltBug : Bool) :
    Determined components (fetchFirstOpcode bus haltBug) components := by
  refine Determined.cpu_bind ?_ (fun state => (Determined.onBus _).bind (fun value => ?_))
  · intro first second hagree
    have hsame : first.pc = second.pc := hagree .pc hpc
    simp only [hsame]
  · cases haltBug with
    | true =>
      exact Determined.bind (Determined.modifyCpu (fun h => (h.setRunState _).of_append))
        (fun _ => .done _)
    | false =>
      exact Determined.bind (Determined.modifyCpu (fun h => (h.setPc _).of_append))
        (fun _ => .done _)

theorem determined_fetchImmediates (hpc : .pc ∈ components) (count : ℕ) :
    Determined components (fetchImmediates bus count) components := by
  induction count with
  | zero => exact .done _
  | succ count ih =>
    exact (determined_fetchAndAdvance hpc _).bind (fun _ => ih.bind (fun _ => .done _))

/-- The fetch of an instruction is determined by the program counter and the run state. -/
theorem determined_fetchAndDecode (hpc : .pc ∈ components) (hrunState : .runState ∈ components) :
    Determined components (fetchAndDecode bus) components := by
  refine Determined.cpu_bind ?_ (fun state => ?_)
  · intro first second hagree
    have hsame : first.runState = second.runState := hagree .runState hrunState
    simp only [hsame]
  · refine (determined_fetchFirstOpcode hpc _).bind (fun opcode => ?_)
    split
    · exact (determined_fetchAndAdvance hpc _).bind (fun _ => .done _)
    · split
      · exact (determined_fetchImmediates hpc _).bind (fun _ => .done _)
      · exact .throw _

end Fetch

end Exec

namespace Step

open IsaTable

variable {π τ : Type} (authentication : BusAuthentication π τ)

/-- The instruction at the program counter, as the step input shows it. -/
def Decodes (state : VmState) (roots : τ) (input : List (BusWitness π))
    (instruction : DecodedInstruction) : Prop :=
  ∃ immediates after, Accepts (Exec.fetchAndDecode (machineBus authentication))
    (start state roots input) (instruction, immediates) after

/-- Two states agree on everything but the CPU. -/
structure SameMachine (first second : VmState) : Prop where
  profile : first.profile = second.profile
  mbc3 : first.mbc3 = second.mbc3
  dmgDevices : first.dmgDevices = second.dmgDevices
  inputNext : first.inputNext = second.inputNext
  outputNext : first.outputNext = second.outputNext

/-- Two steps end alike: both are rejected for one reason, or both are accepted with the same effects
and roots, and agree on the machine and on what the instruction declares as written. -/
inductive EndsAlike : Except StepError ((VmState × τ) × StepEffects π) →
    Except StepError ((VmState × τ) × StepEffects π) → Prop
  | rejected (error : StepError) : EndsAlike (.error error) (.error error)
  | accepted {first second : VmState} {roots : τ} {effects : StepEffects π}
      (hkind : effects.kind = .instruction)
      (hwrites : AgreeOn (stateWrites effects.instruction.operation) first.cpu second.cpu)
      (hmachine : SameMachine first second) :
      EndsAlike (.ok ((first, roots), effects)) (.ok ((second, roots), effects))

/-- An instruction step after its fetch. -/
def completeInstruction (state : VmState) (instruction : DecodedInstruction)
    (immediates : List ℕ) : StepAction π τ (DecodedInstruction × Bool) := do
  let branchTaken ← Exec.execute (machineBus authentication) instruction.operation immediates
  applyDelayedIme instruction.operation (state.cpu.ime = .enablePending)
  advance (timing instruction branchTaken) state.dmgDevices.dmaActive
  if instruction.operation = .halt ∧ state.cpu.ime ≠ .enabled ∧
      state.dmgDevices.pendingInterrupt.isSome then
    Exec.modifyCpu (fun cpu => { cpu with runState := .haltBug })
  return (instruction, branchTaken)

theorem instructionStep_eq (state : VmState) :
    instructionStep authentication state =
      Exec.fetchAndDecode (machineBus authentication) >>= fun fetched =>
        completeInstruction authentication state fetched.1 fetched.2 := by
  simp only [instructionStep, Exec.fetchAndExecute, completeInstruction, bind_assoc, pure_bind]

variable {components : List StateComponent}

theorem determined_applyDelayedIme (operation : Operation) (enableAfterStep : Bool) :
    Exec.Determined components
      (applyDelayedIme operation enableAfterStep : StepAction π τ Unit) components := by
  unfold applyDelayedIme
  split
  · exact .modifyCpu (fun h => (h.setIme _).of_append)
  · exact .done _

theorem outcome_addCycles (increment : ℕ) (executor : Executor (BusState π τ)) :
    outcome (addCycles increment) executor =
      if executor.cpu.mCycles + increment < 2 ^ 64 then
        (.ok (), { executor with
          cpu := { executor.cpu with mCycles := executor.cpu.mCycles + increment } })
      else (.error .cycleCountOverflow, executor) := by
  have hread : outcome (addCycles increment) executor =
      outcome (if executor.cpu.mCycles + increment < 2 ^ 64 then
        Exec.setCpu { executor.cpu with mCycles := executor.cpu.mCycles + increment }
        else throw .cycleCountOverflow) executor := rfl
  rw [hread]
  split <;> rfl

theorem determined_addCycles (hcycles : .mCycles ∈ components) (increment : ℕ) :
    Exec.Determined components (addCycles increment : StepAction π τ Unit) components := by
  intro first second hagree
  have hsame : first.cpu.mCycles = second.cpu.mCycles := hagree.cpu .mCycles hcycles
  rw [outcome_addCycles, outcome_addCycles, hsame]
  split
  · exact .accepted ⟨hagree.bus_eq, (hagree.cpu.setMCycles _).of_append⟩
  · exact .rejected

theorem determined_advance (hcycles : .mCycles ∈ components) (increment : ℕ)
    (dmaActiveAtStart : Bool) :
    Exec.Determined components
      (advance increment dmaActiveAtStart : StepAction π τ Unit) components := by
  have hdevices : ∀ change, Exec.Determined components
      (modifyDevices change : StepAction π τ Unit) components := by
    intro change
    refine Lockstep.of_modify (fun {first second} h => ⟨?_, h.cpu⟩)
    simp only [h.bus_eq]
  exact (determined_addCycles hcycles increment).bind
    (fun _ => (hdevices _).bind (fun _ => hdevices _))

/-- What an instruction does after its fetch is determined by its declared reads. -/
theorem determined_completeInstruction (state : VmState) (instruction : DecodedInstruction)
    (immediates : List ℕ) :
    Exec.Determined (stateReads instruction.operation)
      (completeInstruction authentication state instruction immediates)
      (operationWrites instruction.operation ++ stateReads instruction.operation) := by
  have hcycles : .mCycles ∈ operationWrites instruction.operation ++
      stateReads instruction.operation := List.mem_append_right _ (by simp [stateReads])
  refine (Exec.determined_execute _ _ _).bind (fun branchTaken => ?_)
  refine (determined_applyDelayedIme _ _).bind (fun _ => ?_)
  refine (determined_advance hcycles _ _).bind (fun _ => ?_)
  split
  · exact Exec.Determined.bind (.modifyCpu (fun h => (h.setRunState _).of_append))
      (fun _ => .done _)
  · exact .done _

/-- States that agree on the master enable and the devices complete an instruction alike. -/
theorem completeInstruction_congr {first second : VmState}
    (hime : first.cpu.ime = second.cpu.ime) (hdevices : first.dmgDevices = second.dmgDevices)
    (instruction : DecodedInstruction) (immediates : List ℕ) :
    completeInstruction authentication first instruction immediates =
      completeInstruction authentication second instruction immediates := by
  unfold completeInstruction
  rw [hime, hdevices]

/-- Written components are read ones or those that the operation lists. -/
theorem mem_of_stateWrites {operation : Operation} :
    ∀ component ∈ stateWrites operation,
      component ∈ operationWrites operation ++ stateReads operation := by
  intro component hmem
  unfold stateWrites stateReads at *
  grind

/-- The ends of two instruction steps match as their actions do. -/
theorem endsAlike_finish {instruction : DecodedInstruction} {branchTaken : Bool}
    {first second : Executor (BusState π τ)}
    (hagree : Exec.Agreeing (stateWrites instruction.operation) first second) :
    EndsAlike (finish authentication .instruction instruction branchTaken first)
      (finish authentication .instruction instruction branchTaken second) := by
  unfold finish reached
  rw [hagree.bus_eq]
  by_cases hwitnesses : second.bus.witnesses.length = 0
  · simp only [hwitnesses, ne_eq, not_true_eq_false, if_false, bind, Except.bind, pure, Except.pure]
    cases authentication.commit second.bus.roots second.bus.events instruction with
    | error error => exact .rejected error
    | ok roots => exact .accepted rfl hagree.cpu ⟨rfl, rfl, rfl, rfl, rfl⟩
  · simp only [hwitnesses, ne_eq, not_false_eq_true, if_true, bind, Except.bind, throw, throwThe,
      MonadExceptOf.throw]
    exact .rejected _

theorem apply_of_takesInstruction {state : VmState} (htaken : takesInstruction state = true)
    (roots : τ) (input : List (BusWitness π)) :
    apply authentication state roots input =
      runInstruction authentication state (start state roots input) := by
  unfold apply
  split
  · rename_i hprofile
    simp only [takesInstruction, hprofile, Bool.not_true, Bool.false_or, Bool.and_eq_true,
      decide_eq_true_eq] at htaken
    obtain ⟨⟨howed, hevent⟩, _⟩ := htaken
    rw [if_neg (by simp [howed])]
    split at hevent
    · rename_i hnone
      rw [hnone]
    · cases hevent
  · rfl

theorem completeInstruction_instruction {state : VmState} {instruction found : DecodedInstruction}
    {immediates : List ℕ} {branchTaken : Bool} {before after : Executor (BusState π τ)}
    (hrun : Accepts (completeInstruction authentication state instruction immediates) before
      (found, branchTaken) after) : found = instruction := by
  simp only [completeInstruction, accepts_bind] at hrun
  obtain ⟨_, _, _, _, _, _, _, _, _, hrest⟩ := hrun
  split at hrest
  · simp only [accepts_bind, accepts_pure, Prod.mk.injEq] at hrest
    obtain ⟨_, _, _, ⟨hfound, _⟩, _⟩ := hrest
    exact hfound
  · simp only [accepts_pure, Prod.mk.injEq] at hrest
    exact hrest.1.1

/-- Two running machines with the same program counter that agree outside of the CPU and on the
declared reads of the instruction they fetch take the same instruction step. -/
theorem instruction_noninterference (first second : VmState) (roots : τ)
    (input : List (BusWitness π)) (hfirst : takesInstruction first = true)
    (hsecond : takesInstruction second = true) (hrunning : first.cpu.runState = .running)
    (hsecondRunning : second.cpu.runState = .running) (hpc : first.cpu.pc = second.cpu.pc)
    (hmachine : SameMachine first second)
    (hreads : ∀ instruction, Decodes authentication first roots input instruction →
      AgreeOn (stateReads instruction.operation) first.cpu second.cpu) :
    EndsAlike (apply authentication first roots input)
      (apply authentication second roots input) := by
  rw [apply_of_takesInstruction authentication hfirst,
    apply_of_takesInstruction authentication hsecond]
  have hbus : (start first roots input : Executor (BusState π τ)).bus =
      (start second roots input).bus := by
    unfold start
    rw [hmachine.profile, hmachine.mbc3, hmachine.dmgDevices, hmachine.inputNext,
      hmachine.outputNext]
  -- The fetch needs only the program counter and the run state, so that it goes alike before the
  -- instruction is known.
  have hfetch : Matches (Exec.Agreeing [.pc, .runState])
      (outcome (Exec.fetchAndDecode (machineBus authentication)) (start first roots input))
      (outcome (Exec.fetchAndDecode (machineBus authentication)) (start second roots input)) := by
    refine Exec.determined_fetchAndDecode (by decide) (by decide) ⟨hbus, ?_⟩
    intro component hmem
    rcases List.mem_cons.mp hmem with rfl | hrest
    · exact hpc
    · rw [List.mem_singleton.mp hrest]
      exact hrunning.trans hsecondRunning.symm
  unfold runInstruction
  rw [if_pos (by rw [hrunning]; rfl), if_pos (by rw [hsecondRunning]; rfl),
    instructionStep_eq, instructionStep_eq, outcome_bind, outcome_bind]
  cases hfirstFetch : outcome (Exec.fetchAndDecode (machineBus authentication))
      (start first roots input) with
  | mk result fetched =>
    cases result with
    | error error =>
      rw [hfirstFetch] at hfetch
      generalize outcome (Exec.fetchAndDecode (machineBus authentication))
        (start second roots input) = other at hfetch ⊢
      cases hfetch with
      | rejected => exact .rejected error
    | ok decoded =>
      obtain ⟨instruction, immediates⟩ := decoded
      have hagree := hreads instruction ⟨immediates, fetched, hfirstFetch⟩
      have hlockstep : Matches (Exec.Agreeing (stateReads instruction.operation))
          (outcome (Exec.fetchAndDecode (machineBus authentication)) (start first roots input))
          (outcome (Exec.fetchAndDecode (machineBus authentication)) (start second roots input)) :=
        Exec.determined_fetchAndDecode (by simp [stateReads]) (by simp [stateReads])
          ⟨hbus, hagree⟩
      rw [hfirstFetch] at hlockstep
      generalize outcome (Exec.fetchAndDecode (machineBus authentication))
        (start second roots input) = other at hlockstep ⊢
      cases hlockstep with
      | accepted hmiddle =>
        have hime : first.cpu.ime = second.cpu.ime := hagree .ime (by simp [stateReads])
        dsimp only
        rw [completeInstruction_congr authentication hime hmachine.dmgDevices]
        have hcomplete := determined_completeInstruction authentication second instruction
          immediates hmiddle
        have hinstruction : ∀ {found branchTaken after},
            outcome (completeInstruction authentication second instruction immediates) fetched =
              (.ok (found, branchTaken), after) → found = instruction :=
          fun hrun => completeInstruction_instruction authentication hrun
        generalize outcome (completeInstruction authentication second instruction immediates)
          fetched = left at hcomplete hinstruction ⊢
        generalize outcome (completeInstruction authentication second instruction immediates)
          _ = right at hcomplete ⊢
        cases hcomplete with
        | rejected => exact .rejected _
        | @accepted value _ _ hpost =>
          obtain ⟨found, branchTaken⟩ := value
          obtain rfl := hinstruction rfl
          exact endsAlike_finish authentication ⟨hpost.bus_eq, hpost.cpu.mono mem_of_stateWrites⟩

/-- The witness of `LD A, C` at the entry point of the cartridge. -/
def loadAtEntry : List (BusWitness Unit) := [.rom ⟨0x0100, 0x0100, 0x79, ()⟩]

/-- The state after the boot ROM with another value in `b` and `sp`. -/
def otherRegisters : VmState :=
  let initial := VmState.dmgPostBootMbc3Initial .dmgPostBootMbc3V1
  { initial with cpu := { initial.cpu.setRegister8 .b 0x55 with sp := 0xd000 } }

theorem instruction_noninterference_load :
    EndsAlike (apply BusAuthentication.lookup (.dmgPostBootMbc3Initial .dmgPostBootMbc3V1) ()
      loadAtEntry) (apply BusAuthentication.lookup otherRegisters () loadAtEntry) := by
  refine instruction_noninterference BusAuthentication.lookup _ _ () loadAtEntry (by decide)
    (by decide) rfl rfl rfl ⟨rfl, rfl, rfl, rfl, rfl⟩ ?_
  rintro instruction ⟨immediates, after, hdecode⟩
  have hload : (outcome (Exec.fetchAndDecode (machineBus BusAuthentication.lookup))
      (start (.dmgPostBootMbc3Initial .dmgPostBootMbc3V1) () loadAtEntry)).1.toOption.map Prod.fst =
      decodePrimary 0x79 := by
    decide +kernel
  rw [Accepts] at hdecode
  rw [hdecode] at hload
  obtain rfl : decodeDefinedPrimary 0x79 = instruction := Option.some.inj hload.symm
  intro component hmem
  revert hmem
  cases component <;> first | exact fun _ => rfl | exact fun hmem => absurd hmem (by decide)

end Step

end Zksm83
