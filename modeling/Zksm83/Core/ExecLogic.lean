import Zksm83.Core.BusLogic
import Zksm83.Library.Simulation

/-!
# Relational rules of an instruction

Fetching and executing an instruction uses its bus only through the three accesses, so a relation
that the accesses of two buses have, the instructions over these buses have. An instruction asks for
at most three witnesses to be fetched and for at most two more to be executed.
-/

namespace Zksm83

open Rejecting

/-- A step of the bus alone leaves the CPU. -/
theorem Exec.settled_onBus {σ α : Type} (action : Action StepError σ α) (executor : Executor σ) :
    settled (outcome (Exec.onBus action) executor) =
      settled (outcome action executor.bus) >>= fun ended =>
        .ok (ended.1, { executor with bus := ended.2 }) := by
  show settled ((action executor.bus).1, { executor with bus := (action executor.bus).2 }) =
    settled (action executor.bus) >>= _
  rcases action executor.bus with ⟨_ | _, _⟩ <;> rfl

/-- A relation between actions of two executors, graded by the witnesses that they ask for. -/
structure ExecLogic (σ₁ σ₂ : Type) where
  Related : ∀ {α : Type}, ℕ → Exec σ₁ α → Exec σ₂ α → Prop
  pure : ∀ {α : Type} {count : ℕ} (value : α),
    Related count (Pure.pure value) (Pure.pure value)
  throw : ∀ {α : Type} {error : StepError} {count : ℕ}, error.blamesWitness = false →
    Related (α := α) count (MonadExcept.throw error) (MonadExcept.throw error)
  bind : ∀ {α β : Type} {action : Exec σ₁ α} {other : Exec σ₂ α} {continuation : α → Exec σ₁ β}
    {continuation' : α → Exec σ₂ β} {count more : ℕ}, Related count action other →
    (∀ value, Related more (continuation value) (continuation' value)) →
    Related (more + count) (action >>= continuation) (other >>= continuation')
  cpu : Related 0 Exec.cpu Exec.cpu
  modifyCpu : ∀ {count : ℕ} (change : CpuState → CpuState),
    Related count (Exec.modifyCpu change) (Exec.modifyCpu change)

namespace ExecLogic

variable {σ₁ σ₂ : Type} (logic : ExecLogic σ₁ σ₂)

/-- The accesses of two buses are related, with one witness each. -/
structure Accesses (bus : CpuBus σ₁) (bus' : CpuBus σ₂) : Prop where
  fetch : ∀ address role, logic.Related 1 (Exec.fetchInstruction bus address role)
    (Exec.fetchInstruction bus' address role)
  read : ∀ address, logic.Related 1 (Exec.readData bus address) (Exec.readData bus' address)
  write : ∀ address value,
    logic.Related 1 (Exec.writeData bus address value) (Exec.writeData bus' address value)

variable {logic} {α β : Type} {count : ℕ} {bus : CpuBus σ₁} {bus' : CpuBus σ₂}

/-- An action without accesses, and the rest. -/
theorem local_bind {action : Exec σ₁ α} {other : Exec σ₂ α} {continuation : α → Exec σ₁ β}
    {continuation' : α → Exec σ₂ β} (hfirst : logic.Related 0 action other)
    (hrest : ∀ value, logic.Related count (continuation value) (continuation' value)) :
    logic.Related count (action >>= continuation) (other >>= continuation') :=
  logic.bind hfirst hrest

/-- An access, and the rest. -/
theorem access_bind {action : Exec σ₁ α} {other : Exec σ₂ α} {continuation : α → Exec σ₁ β}
    {continuation' : α → Exec σ₂ β} (hfirst : logic.Related 1 action other)
    (hrest : ∀ value, logic.Related count (continuation value) (continuation' value)) :
    logic.Related (count + 1) (action >>= continuation) (other >>= continuation') :=
  logic.bind hfirst hrest

/-- Two accesses, and the rest. -/
theorem accesses_bind {action : Exec σ₁ α} {other : Exec σ₂ α} {continuation : α → Exec σ₁ β}
    {continuation' : α → Exec σ₂ β} (hfirst : logic.Related 2 action other)
    (hrest : ∀ value, logic.Related count (continuation value) (continuation' value)) :
    logic.Related (count + 2) (action >>= continuation) (other >>= continuation') :=
  logic.bind hfirst hrest

/-- A change of the CPU, and the rest. -/
theorem change_bind {continuation : Unit → Exec σ₁ β} {continuation' : Unit → Exec σ₂ β}
    {change : CpuState → CpuState}
    (hrest : logic.Related count (continuation ()) (continuation' ())) :
    logic.Related count (Exec.modifyCpu change >>= continuation)
      (Exec.modifyCpu change >>= continuation') :=
  local_bind (logic.modifyCpu change) (fun _ => hrest)

/-- Both runs read the same CPU. -/
theorem cpu_bind {continuation : CpuState → Exec σ₁ β} {continuation' : CpuState → Exec σ₂ β}
    (hrest : ∀ cpu, logic.Related count (continuation cpu) (continuation' cpu)) :
    logic.Related count (Exec.cpu >>= continuation) (Exec.cpu >>= continuation') :=
  local_bind logic.cpu hrest

theorem setPc (target : ℕ) : logic.Related count (Exec.setPc target) (Exec.setPc target) :=
  logic.modifyCpu _

theorem setFlags (flags : Flags) : logic.Related count (Exec.setFlags flags) (Exec.setFlags flags) :=
  logic.modifyCpu _

theorem immediateByte (immediates : List ℕ) :
    logic.Related count (Exec.immediateByte immediates) (Exec.immediateByte immediates) := by
  cases immediates with
  | nil => exact logic.throw rfl
  | cons byte rest => exact logic.pure byte

theorem immediateWord (immediates : List ℕ) :
    logic.Related count (Exec.immediateWord immediates) (Exec.immediateWord immediates) := by
  match immediates with
  | [] | [_] => exact logic.throw rfl
  | low :: high :: rest => exact logic.pure _

theorem taken (condition : Option Condition) :
    logic.Related count (Exec.taken condition) (Exec.taken condition) := by
  cases condition with
  | none => exact logic.pure true
  | some condition => exact cpu_bind (fun cpu => logic.pure _)

theorem readOperand (h : logic.Accesses bus bus') (operand : Operand8) (immediates : List ℕ) :
    logic.Related 1 (Exec.readOperand bus operand immediates)
      (Exec.readOperand bus' operand immediates) := by
  cases operand with
  | register register => exact cpu_bind (fun cpu => logic.pure _)
  | immediate =>
    cases immediates with
    | nil => exact logic.throw rfl
    | cons byte rest => exact logic.pure byte
  | indirectHl => exact cpu_bind (fun cpu => h.read _)

theorem writeOperand (h : logic.Accesses bus bus') (operand : Operand8) (value : ℕ) :
    logic.Related 1 (Exec.writeOperand bus operand value)
      (Exec.writeOperand bus' operand value) := by
  cases operand with
  | register register => exact logic.modifyCpu (fun cpu => cpu.setRegister8 register value)
  | immediate => exact logic.throw rfl
  | indirectHl => exact cpu_bind (fun cpu => h.write _ _)

theorem transferAccumulator (h : logic.Accesses bus bus') (address : ℕ)
    (direction : TransferDirection) :
    logic.Related 1 (Exec.transferAccumulator bus address direction)
      (Exec.transferAccumulator bus' address direction) := by
  cases direction with
  | intoAccumulator => exact access_bind (h.read address) (fun value => logic.modifyCpu _)
  | fromAccumulator => exact cpu_bind (fun cpu => h.write address _)

theorem storeSpAbsolute (h : logic.Accesses bus bus') (address : ℕ) :
    logic.Related 2 (Exec.storeSpAbsolute bus address) (Exec.storeSpAbsolute bus' address) :=
  cpu_bind (fun _ => access_bind (h.write address _) (fun _ => h.write _ _))

theorem pushWord (h : logic.Accesses bus bus') (value : ℕ) :
    logic.Related 2 (Exec.pushWord bus value) (Exec.pushWord bus' value) := by
  refine cpu_bind (fun _ => access_bind (h.write _ _) (fun _ => change_bind ?_))
  exact access_bind (h.write _ _) (fun _ => logic.modifyCpu _)

theorem popWord (h : logic.Accesses bus bus') :
    logic.Related 2 (Exec.popWord bus) (Exec.popWord bus') := by
  refine cpu_bind (fun cpu => access_bind (h.read _) (fun low => access_bind (h.read _) ?_))
  exact fun high => change_bind (logic.pure _)

theorem execute_cb (h : logic.Accesses bus bus') (operation : CbOperation) (target : Operand8)
    (immediates : List ℕ) :
    logic.Related 2 (Exec.execute bus (.cb operation target) immediates)
      (Exec.execute bus' (.cb operation target) immediates) := by
  cases operation with
  | testBit bit =>
    refine access_bind (readOperand h target immediates) (fun value => cpu_bind (fun cpu => ?_))
    exact change_bind (logic.pure false)
  | resetBit bit | setBit bit =>
    refine access_bind (readOperand h target immediates) (fun value => ?_)
    exact access_bind (writeOperand h target _) (fun _ => logic.pure false)
  | _ =>
    refine access_bind (readOperand h target immediates) (fun before => cpu_bind (fun cpu => ?_))
    refine access_bind (writeOperand h target _) (fun _ => ?_)
    exact change_bind (logic.pure false)

/-- Executing an operation asks for at most two witnesses. -/
theorem execute (h : logic.Accesses bus bus') (operation : Operation) (immediates : List ℕ) :
    logic.Related 2 (Exec.execute bus operation immediates)
      (Exec.execute bus' operation immediates) := by
  cases operation with
  | nop => exact logic.pure false
  | decimalAdjust => exact cpu_bind (fun cpu => change_bind (logic.pure false))
  | complementAccumulator | setCarry | complementCarry | loadSpHl | increment16 _ | decrement16 _
  | disableInterrupts | enableInterrupts | halt => exact change_bind (logic.pure false)
  | storeSpAbsolute =>
    refine local_bind (immediateWord immediates) (fun address => ?_)
    exact accesses_bind (storeSpAbsolute h address) (fun _ => logic.pure false)
  | load16Immediate register =>
    refine local_bind (immediateWord immediates) (fun value => ?_)
    exact change_bind (logic.pure false)
  | loadAccumulatorIndirect address direction =>
    refine cpu_bind (fun cpu => access_bind (transferAccumulator h _ direction) (fun _ => ?_))
    exact change_bind (logic.pure false)
  | load8Immediate target =>
    refine local_bind (immediateByte immediates) (fun value => ?_)
    exact access_bind (writeOperand h target value) (fun _ => logic.pure false)
  | load8 destination source =>
    refine access_bind (readOperand h source immediates) (fun value => ?_)
    exact access_bind (writeOperand h destination value) (fun _ => logic.pure false)
  | highImmediateLoad direction =>
    refine local_bind (immediateByte immediates) (fun offset => ?_)
    exact access_bind (transferAccumulator h _ direction) (fun _ => logic.pure false)
  | loadHlSpOffset | addSpOffset =>
    refine cpu_bind (fun cpu => local_bind (immediateByte immediates) (fun offset => ?_))
    exact change_bind (logic.pure false)
  | highCLoad direction =>
    refine cpu_bind (fun cpu => ?_)
    exact access_bind (transferAccumulator h _ direction) (fun _ => logic.pure false)
  | absoluteAccumulatorLoad direction =>
    refine local_bind (immediateWord immediates) (fun address => ?_)
    exact access_bind (transferAccumulator h address direction) (fun _ => logic.pure false)
  | increment8 target | decrement8 target =>
    refine access_bind (readOperand h target immediates) (fun value => cpu_bind (fun cpu => ?_))
    refine access_bind (writeOperand h target _) (fun _ => ?_)
    exact change_bind (logic.pure false)
  | alu8 operation source =>
    refine access_bind (readOperand h source immediates) (fun value => cpu_bind (fun cpu => ?_))
    dsimp only
    split
    · exact change_bind (change_bind (logic.pure false))
    · exact change_bind (logic.pure false)
  | addHl source => exact cpu_bind (fun cpu => change_bind (logic.pure false))
  | rotateAccumulator rotate =>
    refine cpu_bind (fun cpu => ?_)
    dsimp only
    split
    · exact change_bind (logic.pure false)
    · exact logic.throw rfl
  | cb operation target => exact execute_cb h operation target immediates
  | relativeJump condition =>
    refine local_bind (taken condition) (fun branch => ?_)
    cases branch with
    | false => exact logic.pure false
    | true =>
      refine local_bind (immediateByte immediates) (fun offset => ?_)
      exact change_bind (logic.pure true)
  | jumpHl => exact change_bind (logic.pure true)
  | jump condition =>
    refine local_bind (taken condition) (fun branch => ?_)
    cases branch with
    | false => exact logic.pure false
    | true =>
      refine local_bind (immediateWord immediates) (fun target => ?_)
      exact local_bind (setPc target) (fun _ => logic.pure true)
  | «return» condition =>
    refine local_bind (taken condition) (fun branch => ?_)
    cases branch with
    | false => exact logic.pure false
    | true =>
      refine accesses_bind (popWord h) (fun target => ?_)
      exact local_bind (setPc target) (fun _ => logic.pure true)
  | returnFromInterrupt =>
    exact accesses_bind (popWord h) (fun target => change_bind (logic.pure true))
  | call condition =>
    refine local_bind (taken condition) (fun branch => ?_)
    cases branch with
    | false => exact logic.pure false
    | true =>
      refine cpu_bind (fun cpu => accesses_bind (pushWord h _) (fun _ => ?_))
      refine local_bind (immediateWord immediates) (fun target => ?_)
      exact local_bind (setPc target) (fun _ => logic.pure true)
  | restart vector =>
    refine cpu_bind (fun cpu => accesses_bind (pushWord h _) (fun _ => ?_))
    exact local_bind (setPc vector) (fun _ => logic.pure true)
  | pop register =>
    exact accesses_bind (popWord h) (fun value => change_bind (logic.pure false))
  | push register =>
    refine cpu_bind (fun cpu => ?_)
    exact accesses_bind (pushWord h _) (fun _ => logic.pure false)
  | stop =>
    refine local_bind (immediateByte immediates) (fun padding => ?_)
    dsimp only
    split
    · exact local_bind (logic.throw rfl) (fun _ => change_bind (logic.pure false))
    · exact change_bind (logic.pure false)
  | prefixCb => exact logic.throw rfl

theorem fetchAndAdvance (h : logic.Accesses bus bus') (role : BusRole) :
    logic.Related 1 (Exec.fetchAndAdvance bus role) (Exec.fetchAndAdvance bus' role) := by
  refine cpu_bind (fun cpu => access_bind (h.fetch cpu.pc role) (fun value => ?_))
  exact change_bind (logic.pure value)

theorem fetchFirstOpcode (h : logic.Accesses bus bus') (haltBug : Bool) :
    logic.Related 1 (Exec.fetchFirstOpcode bus haltBug) (Exec.fetchFirstOpcode bus' haltBug) := by
  refine cpu_bind (fun cpu => access_bind (h.fetch cpu.pc .opcodeFetch) (fun value => ?_))
  cases haltBug with
  | true => exact change_bind (logic.pure value)
  | false => exact change_bind (logic.pure value)

theorem fetchImmediates (h : logic.Accesses bus bus') {length : ℕ} (hlength : length ≤ count) :
    logic.Related count (Exec.fetchImmediates bus length)
      (Exec.fetchImmediates bus' length) := by
  induction length generalizing count with
  | zero => exact logic.pure []
  | succ length ih =>
    obtain ⟨more, rfl⟩ := Nat.exists_eq_add_of_le' (Nat.one_le_of_lt hlength)
    refine access_bind (fetchAndAdvance h .immediateRead) (fun first => ?_)
    rw [← Nat.zero_add more]
    exact logic.bind (ih (Nat.le_of_succ_le_succ hlength)) (fun rest => logic.pure (first :: rest))

/-- No instruction is longer than three bytes. -/
theorem byteLen_le (opcode : ℕ) : (decodeDefinedPrimary opcode).byteLen ≤ 3 := by
  simp only [decodeDefinedPrimary]
  split
  · unfold Decode.decodeBlockZero
    repeat' split
    all_goals simp [Decode.tuple, Decode.conditional]
  · unfold Decode.decodeBlockOne
    split <;> simp [Decode.tuple]
  · simp [Decode.decodeBlockTwo, Decode.tuple]
  · unfold Decode.decodeBlockThree Decode.decodeBlockThreeZOne
    repeat' split
    all_goals simp [Decode.tuple, Decode.conditional]

/-- Fetching an instruction asks for at most three witnesses. -/
theorem fetchAndDecode (h : logic.Accesses bus bus') :
    logic.Related 3 (Exec.fetchAndDecode bus) (Exec.fetchAndDecode bus') := by
  refine cpu_bind (fun cpu => access_bind (fetchFirstOpcode h _) (fun opcode => ?_))
  split
  · exact access_bind (fetchAndAdvance h .opcodeFetch) (fun secondary => logic.pure _)
  · cases hdecoded : decodePrimary opcode with
    | none => exact logic.throw rfl
    | some instruction =>
      have hlength : instruction.byteLen - 1 ≤ 2 := by
        unfold decodePrimary at hdecoded
        split at hdecoded
        · cases hdecoded
        · cases hdecoded
          exact Nat.sub_le_of_le_add (byteLen_le opcode)
      exact accesses_bind (fetchImmediates h hlength) (fun immediates => logic.pure _)

/-- An instruction asks for at most five witnesses. -/
theorem fetchAndExecute (h : logic.Accesses bus bus') :
    logic.Related 5 (Exec.fetchAndExecute bus) (Exec.fetchAndExecute bus') := by
  refine logic.bind (fetchAndDecode h) (fun decoded => ?_)
  obtain ⟨instruction, immediates⟩ := decoded
  refine accesses_bind (execute h instruction.operation immediates) (fun branch => ?_)
  exact logic.pure (instruction, branch)

end ExecLogic

end Zksm83
