import Zksm83.Core.Recording
import Zksm83.Library.Rejecting
import Zksm83.Library.Runs

/-!
# Accepted instructions over any bus

Rules for accepted runs of the instruction actions over an arbitrary bus. The main result says that
an accepted instruction performed exactly the accesses that are listed for it, each once and in
order; what the bus keeps under single accesses it therefore keeps under instructions.
-/

namespace Zksm83

open Rejecting

/-- One accepted access of a bus. -/
inductive CpuBus.Performs {σ : Type} (bus : CpuBus σ) : σ → Access → σ → Prop
  | fetch {before after : σ} {address value : ℕ} {role : BusRole}
      (hfetch : bus.fetchInstruction address role before = (.ok value, after)) :
      bus.Performs before ⟨role, address⟩ after
  | read {before after : σ} {address value : ℕ}
      (hread : bus.readData address before = (.ok value, after)) :
      bus.Performs before ⟨.dataRead, address⟩ after
  | write {before after : σ} {address value : ℕ}
      (hwrite : bus.writeData address value before = (.ok (), after)) :
      bus.Performs before ⟨.dataWrite, address⟩ after

/-- The instruction bytes that a bus gives are bytes. -/
def CpuBus.FetchesBytes {σ : Type} (bus : CpuBus σ) : Prop :=
  ∀ {address : ℕ} {role : BusRole} {before after : σ} {value : ℕ},
    bus.fetchInstruction address role before = (.ok value, after) → value < 256

namespace Exec

variable {σ α : Type} {before after : Executor σ}

@[simp] theorem accepts_cpu (value : CpuState) :
    Accepts (Exec.cpu : Exec σ CpuState) before value after ↔
      value = before.cpu ∧ after = before := by
  simp only [Exec.cpu, accepts_bind, accepts_get, accepts_pure]
  constructor
  · rintro ⟨_, _, ⟨rfl, rfl⟩, rfl, rfl⟩
    exact ⟨rfl, rfl⟩
  · rintro ⟨rfl, rfl⟩
    exact ⟨_, _, ⟨rfl, rfl⟩, rfl, rfl⟩

@[simp] theorem accepts_setCpu (next : CpuState) (value : Unit) :
    Accepts (setCpu next : Exec σ Unit) before value after ↔
      after = { before with cpu := next } := by
  simp [setCpu]

@[simp] theorem accepts_modifyCpu (change : CpuState → CpuState) (value : Unit)
    :
    Accepts (modifyCpu change : Exec σ Unit) before value after ↔
      after = { before with cpu := change before.cpu } := by
  simp [modifyCpu]

@[simp] theorem accepts_onBus (access : σ → Except StepError α × σ) (value : α)
    :
    Accepts (onBus access : Exec σ α) before value after ↔
      ∃ next, access before.bus = (.ok value, next) ∧ after = { before with bus := next } := by
  show ((access before.bus).1, (⟨before.cpu, (access before.bus).2⟩ : Executor σ)) =
    (.ok value, after) ↔ _
  rcases access before.bus with ⟨result, next⟩
  simp only [Prod.mk.injEq]
  constructor
  · rintro ⟨rfl, rfl⟩
    exact ⟨next, ⟨rfl, rfl⟩, rfl⟩
  · rintro ⟨_, ⟨rfl, rfl⟩, rfl⟩
    exact ⟨rfl, rfl⟩

@[simp] theorem accepts_setPc (target : ℕ) (value : Unit) :
    Accepts (setPc target : Exec σ Unit) before value after ↔
      after = { before with cpu := { before.cpu with pc := target } } := by
  simp [setPc]

@[simp] theorem accepts_setFlags (flags : Flags) (value : Unit) :
    Accepts (setFlags flags : Exec σ Unit) before value after ↔
      after = { before with cpu := { before.cpu with flags := flags } } := by
  simp [setFlags]

@[simp] theorem accepts_taken (condition : Option Condition) (value : Bool) :
    Accepts (taken condition : Exec σ Bool) before value after ↔
      value = before.cpu.takes condition ∧ after = before := by
  cases condition with
  | none => simp [taken, CpuState.takes]
  | some condition =>
    simp only [taken, accepts_bind, accepts_cpu, accepts_pure, CpuState.takes]
    constructor
    · rintro ⟨_, _, ⟨rfl, rfl⟩, rfl, rfl⟩
      exact ⟨rfl, rfl⟩
    · rintro ⟨rfl, rfl⟩
      exact ⟨_, _, ⟨rfl, rfl⟩, rfl, rfl⟩

@[simp] theorem accepts_immediateByte (immediates : List ℕ) (value : ℕ) :
    Accepts (immediateByte immediates : Exec σ ℕ) before value after ↔
      (∃ rest, immediates = value :: rest) ∧ after = before := by
  cases immediates with
  | nil => simp [immediateByte]
  | cons first rest => simp [immediateByte, eq_comm]

@[simp] theorem accepts_immediateWord (immediates : List ℕ) (value : ℕ) :
    Accepts (immediateWord immediates : Exec σ ℕ) before value after ↔
      2 ≤ immediates.length ∧ value = Zksm83.immediateWord immediates ∧ after = before := by
  match immediates with
  | [] => simp [immediateWord]
  | [_] => simp [immediateWord]
  | low :: high :: rest => simp [immediateWord, Zksm83.immediateWord]

variable {bus : CpuBus σ}

@[simp] theorem accepts_fetchInstruction (address : ℕ) (role : BusRole) (value : ℕ) :
    Accepts (fetchInstruction bus address role) before value after ↔
      ∃ next, bus.fetchInstruction address role before.bus = (.ok value, next) ∧
        after = { before with bus := next } := by
  simp [fetchInstruction]

@[simp] theorem accepts_readData (address value : ℕ) :
    Accepts (readData bus address) before value after ↔
      ∃ next, bus.readData address before.bus = (.ok value, next) ∧
        after = { before with bus := next } := by
  simp [readData]

@[simp] theorem accepts_writeData (address written : ℕ) (value : Unit) :
    Accepts (writeData bus address written) before value after ↔
      ∃ next, bus.writeData address written before.bus = (.ok (), next) ∧
        after = { before with bus := next } := by
  simp [writeData]

/-- Reading an operand performs its access and leaves the CPU alone. -/
theorem performs_readOperand {operand : Operand8} {immediates : List ℕ} {value : ℕ}
    (hrun : Accepts (readOperand bus operand immediates) before value after) :
    after.cpu = before.cpu ∧
      Runs bus.Performs before.bus (operandAccess .dataRead before.cpu operand) after.bus := by
  cases operand with
  | register register =>
    simp only [readOperand, accepts_bind, accepts_cpu, accepts_pure] at hrun
    obtain ⟨_, _, ⟨rfl, rfl⟩, rfl, rfl⟩ := hrun
    exact ⟨rfl, .nil _⟩
  | immediate =>
    cases immediates with
    | nil => simp [readOperand] at hrun
    | cons byte rest =>
      obtain ⟨rfl, rfl⟩ := (accepts_pure _ _ _ _).mp hrun
      exact ⟨rfl, .nil _⟩
  | indirectHl =>
    simp only [readOperand, accepts_bind, accepts_cpu, accepts_readData] at hrun
    obtain ⟨_, _, ⟨rfl, rfl⟩, next, hread, rfl⟩ := hrun
    exact ⟨rfl, .single (.read hread)⟩

/-- Writing an operand performs its access. -/
theorem performs_writeOperand {operand : Operand8} {written : ℕ} {value : Unit}
    (hrun : Accepts (writeOperand bus operand written) before value after) :
    Runs bus.Performs before.bus (operandAccess .dataWrite before.cpu operand) after.bus := by
  cases operand with
  | register register =>
    simp only [writeOperand, accepts_modifyCpu] at hrun
    rw [hrun]
    exact .nil _
  | immediate => exact absurd hrun (accepts_throw _ _ _ _)
  | indirectHl =>
    simp only [writeOperand, accepts_bind, accepts_cpu, accepts_writeData] at hrun
    obtain ⟨_, _, ⟨rfl, rfl⟩, next, hwrite, rfl⟩ := hrun
    exact .single (.write hwrite)

theorem performs_transferAccumulator {address : ℕ} {direction : TransferDirection} {value : Unit}
    (hrun : Accepts (transferAccumulator bus address direction) before value after) :
    Runs bus.Performs before.bus [transferAccess address direction] after.bus := by
  cases direction with
  | intoAccumulator =>
    simp only [transferAccumulator, accepts_bind, accepts_readData, accepts_modifyCpu] at hrun
    obtain ⟨_, _, ⟨next, hread, rfl⟩, rfl⟩ := hrun
    exact .single (.read hread)
  | fromAccumulator =>
    simp only [transferAccumulator, accepts_bind, accepts_cpu, accepts_writeData] at hrun
    obtain ⟨_, _, ⟨rfl, rfl⟩, next, hwrite, rfl⟩ := hrun
    exact .single (.write hwrite)

theorem performs_storeSpAbsolute {address : ℕ} {value : Unit}
    (hrun : Accepts (storeSpAbsolute bus address) before value after) :
    Runs bus.Performs before.bus
      [⟨.dataWrite, address⟩, ⟨.dataWrite, (address + 1) % 65536⟩] after.bus := by
  simp only [storeSpAbsolute, accepts_bind, accepts_cpu, accepts_writeData] at hrun
  obtain ⟨_, _, ⟨rfl, rfl⟩, _, _, ⟨_, hfirst, rfl⟩, _, hsecond, rfl⟩ := hrun
  exact .cons (.write hfirst) (.single (.write hsecond))

theorem performs_pushWord {word : ℕ} {value : Unit}
    (hrun : Accepts (pushWord bus word) before value after) :
    Runs bus.Performs before.bus (pushAccesses before.cpu) after.bus := by
  simp only [pushWord, accepts_bind, accepts_cpu, accepts_writeData, accepts_modifyCpu] at hrun
  obtain ⟨_, start, ⟨rfl, rfl⟩, _, _, ⟨_, hhigh, rfl⟩, _, _, rfl, _, _, ⟨_, hlow, rfl⟩, rfl⟩ := hrun
  have haddress : ((start.cpu.sp + 65535) % 65536 + 65535) % 65536 =
      (start.cpu.sp + 65534) % 65536 := by omega
  rw [haddress] at hlow
  exact .cons (.write hhigh) (.single (.write hlow))

theorem performs_popWord {value : ℕ} (hrun : Accepts (popWord bus) before value after) :
    Runs bus.Performs before.bus (popAccesses before.cpu) after.bus := by
  simp only [popWord, accepts_bind, accepts_cpu, accepts_readData, accepts_modifyCpu,
    accepts_pure] at hrun
  obtain ⟨_, _, ⟨rfl, rfl⟩, _, _, ⟨_, hlow, rfl⟩, _, _, ⟨_, hhigh, rfl⟩, _, _, rfl, rfl, rfl⟩ := hrun
  exact .cons (.read hlow) (.single (.read hhigh))

/-- The accesses of an accepted operation are the listed ones. -/
theorem performs_execute {operation : Operation} {immediates : List ℕ} {branch : Bool}
    (hrun : Accepts (execute bus operation immediates) before branch after) :
    Runs bus.Performs before.bus (operationAccesses before.cpu immediates operation) after.bus := by
  cases operation with
  | storeSpAbsolute =>
    simp only [execute, accepts_bind, accepts_immediateWord, accepts_pure] at hrun
    obtain ⟨_, _, ⟨_, rfl, rfl⟩, _, _, hstore, rfl, rfl⟩ := hrun
    exact (performs_storeSpAbsolute hstore :)
  | loadAccumulatorIndirect address direction =>
    simp only [execute, accepts_bind, accepts_cpu, accepts_modifyCpu, accepts_pure] at hrun
    obtain ⟨_, _, ⟨rfl, rfl⟩, _, _, htransfer, _, _, rfl, rfl, rfl⟩ := hrun
    exact (performs_transferAccumulator htransfer :)
  | load8Immediate target =>
    simp only [execute, accepts_bind, accepts_immediateByte, accepts_pure] at hrun
    obtain ⟨_, _, ⟨_, rfl⟩, _, _, hwrite, rfl, rfl⟩ := hrun
    exact (performs_writeOperand hwrite :)
  | load8 destination source =>
    simp only [execute, accepts_bind, accepts_pure] at hrun
    obtain ⟨_, _, hread, _, _, hwrite, rfl, rfl⟩ := hrun
    obtain ⟨hcpu, hread⟩ := performs_readOperand hread
    refine hread.append ?_
    rw [← hcpu]
    exact (performs_writeOperand hwrite :)
  | highImmediateLoad direction =>
    simp only [execute, accepts_bind, accepts_immediateByte, accepts_pure] at hrun
    obtain ⟨_, _, ⟨⟨_, rfl⟩, rfl⟩, _, _, htransfer, rfl, rfl⟩ := hrun
    exact (performs_transferAccumulator htransfer :)
  | highCLoad direction =>
    simp only [execute, accepts_bind, accepts_cpu, accepts_pure] at hrun
    obtain ⟨_, _, ⟨rfl, rfl⟩, _, _, htransfer, rfl, rfl⟩ := hrun
    exact (performs_transferAccumulator htransfer :)
  | absoluteAccumulatorLoad direction =>
    simp only [execute, accepts_bind, accepts_immediateWord, accepts_pure] at hrun
    obtain ⟨_, _, ⟨_, rfl, rfl⟩, _, _, htransfer, rfl, rfl⟩ := hrun
    exact (performs_transferAccumulator htransfer :)
  | increment8 target | decrement8 target =>
    simp only [execute, accepts_bind, accepts_cpu, accepts_setFlags, accepts_pure] at hrun
    obtain ⟨_, _, hread, _, _, ⟨rfl, rfl⟩, _, _, hwrite, _, _, rfl, rfl, rfl⟩ := hrun
    obtain ⟨hcpu, hread⟩ := performs_readOperand hread
    refine hread.append ?_
    rw [← hcpu]
    exact (performs_writeOperand hwrite :)
  | alu8 operation source =>
    simp only [execute, accepts_bind, accepts_cpu] at hrun
    obtain ⟨_, _, hread, _, _, ⟨rfl, rfl⟩, hrest⟩ := hrun
    by_cases hcompare : operation = .compare
    all_goals
      simp [hcompare] at hrest
      rw [hrest.1]
      exact ((performs_readOperand hread).2 :)
  | cb operation target =>
    cases operation with
    | testBit bit =>
      simp only [execute, accepts_bind, accepts_cpu, accepts_setFlags, accepts_pure] at hrun
      obtain ⟨_, _, hread, _, _, ⟨rfl, rfl⟩, _, _, rfl, rfl, rfl⟩ := hrun
      exact ((performs_readOperand hread).2 :)
    | resetBit bit | setBit bit =>
      simp only [execute, accepts_bind, accepts_pure] at hrun
      obtain ⟨_, _, hread, _, _, hwrite, rfl, rfl⟩ := hrun
      obtain ⟨hcpu, hread⟩ := performs_readOperand hread
      refine hread.append ?_
      rw [← hcpu]
      exact (performs_writeOperand hwrite :)
    | _ =>
      simp only [execute, Alu.rotateShift, accepts_bind, accepts_cpu, accepts_setFlags,
        accepts_pure] at hrun
      obtain ⟨_, _, hread, _, _, ⟨rfl, rfl⟩, _, _, hwrite, _, _, rfl, rfl, rfl⟩ := hrun
      obtain ⟨hcpu, hread⟩ := performs_readOperand hread
      refine hread.append ?_
      rw [← hcpu]
      exact (performs_writeOperand hwrite :)
  | «return» condition =>
    simp only [execute, accepts_bind, accepts_taken] at hrun
    obtain ⟨_, _, ⟨rfl, rfl⟩, hrest⟩ := hrun
    rw [operationAccesses]
    split at hrest
    · rename_i htaken
      simp only [accepts_bind, accepts_setPc, accepts_pure] at hrest
      obtain ⟨_, _, hpop, _, _, rfl, rfl, rfl⟩ := hrest
      rw [if_pos htaken]
      exact (performs_popWord hpop :)
    · rename_i htaken
      obtain ⟨rfl, rfl⟩ := (accepts_pure _ _ _ _).mp hrest
      rw [if_neg htaken]
      exact .nil _
  | returnFromInterrupt | pop register =>
    simp only [execute, accepts_bind, accepts_modifyCpu, accepts_pure] at hrun
    obtain ⟨_, _, hpop, _, _, rfl, rfl, rfl⟩ := hrun
    exact (performs_popWord hpop :)
  | call condition =>
    simp only [execute, accepts_bind, accepts_taken] at hrun
    obtain ⟨_, _, ⟨rfl, rfl⟩, hrest⟩ := hrun
    rw [operationAccesses]
    split at hrest
    · rename_i htaken
      simp only [accepts_bind, accepts_cpu, accepts_immediateWord, accepts_setPc,
        accepts_pure] at hrest
      obtain ⟨_, _, ⟨rfl, rfl⟩, _, _, hpush, _, _, ⟨_, rfl, rfl⟩, _, _, rfl, rfl, rfl⟩ := hrest
      rw [if_pos htaken]
      exact (performs_pushWord hpush :)
    · rename_i htaken
      obtain ⟨rfl, rfl⟩ := (accepts_pure _ _ _ _).mp hrest
      rw [if_neg htaken]
      exact .nil _
  | restart vector =>
    simp only [execute, accepts_bind, accepts_cpu, accepts_setPc, accepts_pure] at hrun
    obtain ⟨_, _, ⟨rfl, rfl⟩, _, _, hpush, _, _, rfl, rfl, rfl⟩ := hrun
    exact (performs_pushWord hpush :)
  | push register =>
    simp only [execute, accepts_bind, accepts_cpu, accepts_pure] at hrun
    obtain ⟨_, _, ⟨rfl, rfl⟩, _, _, hpush, rfl, rfl⟩ := hrun
    exact (performs_pushWord hpush :)
  | prefixCb => exact absurd hrun (accepts_throw _ _ _ _)
  | nop =>
    obtain ⟨rfl, rfl⟩ := (accepts_pure _ _ _ _).mp hrun
    exact .nil _
  | complementAccumulator | setCarry | complementCarry | loadSpHl | increment16 _
  | decrement16 _ | jumpHl | disableInterrupts | enableInterrupts | halt =>
    simp only [execute, accepts_bind, accepts_modifyCpu, accepts_pure] at hrun
    obtain ⟨_, _, rfl, rfl, rfl⟩ := hrun
    exact .nil _
  | decimalAdjust | addHl _ =>
    simp only [execute, accepts_bind, accepts_cpu, accepts_modifyCpu, accepts_pure] at hrun
    obtain ⟨_, _, ⟨rfl, rfl⟩, _, _, rfl, rfl, rfl⟩ := hrun
    exact .nil _
  | load16Immediate register =>
    simp only [execute, accepts_bind, accepts_immediateWord, accepts_modifyCpu,
      accepts_pure] at hrun
    obtain ⟨_, _, ⟨_, rfl, rfl⟩, _, _, rfl, rfl, rfl⟩ := hrun
    exact .nil _
  | loadHlSpOffset | addSpOffset =>
    simp only [execute, accepts_bind, accepts_cpu, accepts_immediateByte, accepts_modifyCpu,
      accepts_pure] at hrun
    obtain ⟨_, _, ⟨rfl, rfl⟩, _, _, ⟨_, rfl⟩, _, _, rfl, rfl, rfl⟩ := hrun
    exact .nil _
  | stop =>
    simp only [execute, accepts_bind, accepts_immediateByte] at hrun
    obtain ⟨padding, _, ⟨_, rfl⟩, hrest⟩ := hrun
    by_cases hpadding : padding = 0
    · simp [hpadding] at hrest
      rw [hrest.1]
      exact .nil _
    · simp [hpadding] at hrest
  | jump condition =>
    simp only [execute, accepts_bind, accepts_taken] at hrun
    obtain ⟨_, _, ⟨rfl, rfl⟩, hrest⟩ := hrun
    split at hrest
    · simp only [accepts_bind, accepts_immediateWord, accepts_setPc, accepts_pure] at hrest
      obtain ⟨_, _, ⟨_, rfl, rfl⟩, _, _, rfl, rfl, rfl⟩ := hrest
      exact .nil _
    · obtain ⟨rfl, rfl⟩ := (accepts_pure _ _ _ _).mp hrest
      exact .nil _
  | relativeJump condition =>
    simp only [execute, accepts_bind, accepts_taken] at hrun
    obtain ⟨_, _, ⟨rfl, rfl⟩, hrest⟩ := hrun
    split at hrest
    · simp only [accepts_bind, accepts_immediateByte, accepts_modifyCpu, accepts_pure] at hrest
      obtain ⟨_, _, ⟨_, rfl⟩, _, _, rfl, rfl, rfl⟩ := hrest
      exact .nil _
    · obtain ⟨rfl, rfl⟩ := (accepts_pure _ _ _ _).mp hrest
      exact .nil _
  | rotateAccumulator rotate =>
    simp only [execute, accepts_bind, accepts_cpu] at hrun
    obtain ⟨_, _, ⟨rfl, rfl⟩, hrest⟩ := hrun
    split at hrest
    · simp only [accepts_bind, accepts_modifyCpu, accepts_pure] at hrest
      obtain ⟨_, _, rfl, rfl, rfl⟩ := hrest
      exact .nil _
    · exact absurd hrest (accepts_throw _ _ _ _)

@[simp] theorem accepts_fetchAndAdvance (role : BusRole) (value : ℕ) :
    Accepts (fetchAndAdvance bus role) before value after ↔
      ∃ next, bus.fetchInstruction before.cpu.pc role before.bus = (.ok value, next) ∧
        after = ⟨{ before.cpu with pc := (before.cpu.pc + 1) % 65536 }, next⟩ := by
  simp only [fetchAndAdvance, accepts_bind, accepts_cpu, accepts_fetchInstruction,
    accepts_modifyCpu, accepts_pure]
  constructor
  · rintro ⟨_, _, ⟨rfl, rfl⟩, _, _, ⟨next, hfetch, rfl⟩, _, _, rfl, rfl, rfl⟩
    exact ⟨next, hfetch, rfl⟩
  · rintro ⟨next, hfetch, rfl⟩
    exact ⟨_, _, ⟨rfl, rfl⟩, _, _, ⟨next, hfetch, rfl⟩, (), _, rfl, rfl, rfl⟩

@[simp] theorem accepts_fetchFirstOpcode (value : ℕ) :
    Accepts (fetchFirstOpcode bus (before.cpu.runState = .haltBug)) before value after ↔
      ∃ next, bus.fetchInstruction before.cpu.pc .opcodeFetch before.bus = (.ok value, next) ∧
        after = ⟨afterFirstOpcode before.cpu, next⟩ := by
  simp only [fetchFirstOpcode, accepts_bind, accepts_cpu, accepts_fetchInstruction]
  by_cases hbug : before.cpu.runState = .haltBug
  · simp only [hbug, decide_true, if_true, accepts_modifyCpu, accepts_bind, accepts_pure,
      afterFirstOpcode, nextFetch]
    constructor
    · rintro ⟨_, _, ⟨rfl, rfl⟩, _, _, ⟨next, hfetch, rfl⟩, _, _, rfl, rfl, rfl⟩
      exact ⟨next, hfetch, rfl⟩
    · rintro ⟨next, hfetch, rfl⟩
      exact ⟨_, _, ⟨rfl, rfl⟩, _, _, ⟨next, hfetch, rfl⟩, (), _, rfl, rfl, rfl⟩
  · simp only [hbug, decide_false, Bool.false_eq_true, if_false, accepts_modifyCpu, accepts_bind,
      accepts_pure, afterFirstOpcode, nextFetch]
    constructor
    · rintro ⟨_, _, ⟨rfl, rfl⟩, _, _, ⟨next, hfetch, rfl⟩, _, _, rfl, rfl, rfl⟩
      exact ⟨next, hfetch, rfl⟩
    · rintro ⟨next, hfetch, rfl⟩
      exact ⟨_, _, ⟨rfl, rfl⟩, _, _, ⟨next, hfetch, rfl⟩, (), _, rfl, rfl, rfl⟩

/-- The program counter after `count` more bytes. -/
def advancedPc (pc : ℕ) : ℕ → ℕ
  | 0 => pc
  | count + 1 => advancedPc ((pc + 1) % 65536) count

theorem advancedPc_mod (pc count : ℕ) :
    advancedPc (pc % 65536) count = (pc + count) % 65536 := by
  induction count generalizing pc with
  | zero => rfl
  | succ count ih =>
    rw [advancedPc, ih]
    omega

/-- The immediate bytes are fetched one after another. -/
theorem performs_fetchImmediates {count : ℕ} {immediates : List ℕ}
    (hrun : Accepts (fetchImmediates bus count) before immediates after) :
    immediates.length = count ∧
      after.cpu = { before.cpu with pc := advancedPc before.cpu.pc count } ∧
      Runs bus.Performs before.bus (immediateAccesses before.cpu.pc count) after.bus := by
  induction count generalizing before immediates with
  | zero =>
    obtain ⟨rfl, rfl⟩ := (accepts_pure _ _ _ _).mp hrun
    exact ⟨rfl, rfl, .nil _⟩
  | succ count ih =>
    simp only [fetchImmediates, accepts_bind, accepts_fetchAndAdvance, accepts_pure] at hrun
    obtain ⟨_, _, ⟨next, hfetch, rfl⟩, rest, _, hrest, rfl, rfl⟩ := hrun
    obtain ⟨hlength, hcpu, hruns⟩ := ih hrest
    exact ⟨by rw [List.length_cons, hlength], hcpu, .cons (.fetch hfetch) hruns⟩

/-- The accesses of the fetch of an instruction. -/
def fetchAccesses (cpu : CpuState) (instruction : DecodedInstruction) : List Access :=
  ⟨.opcodeFetch, cpu.pc⟩ :: match instruction.encoding with
    | .primary _ => immediateAccesses (nextFetch cpu) (instruction.byteLen - 1)
    | .cb _ => [⟨.opcodeFetch, nextFetch cpu⟩]

/-- The CPU after the fetch of an instruction. -/
def fetchedCpu (cpu : CpuState) (instruction : DecodedInstruction) : CpuState :=
  { afterFirstOpcode cpu with pc := advancedPc (nextFetch cpu) (instruction.byteLen - 1) }

/-- An instruction that the decoder gives for bytes, with as many immediate bytes as it has. -/
inductive IsDecoded : DecodedInstruction → List ℕ → Prop
  | primary {opcode : ℕ} {instruction : DecodedInstruction} {immediates : List ℕ}
      (hbyte : opcode < 256) (hopcode : opcode ≠ 0xcb)
      (hdecode : decodePrimary opcode = some instruction)
      (hlength : immediates.length = instruction.byteLen - 1) : IsDecoded instruction immediates
  | cb {secondary : ℕ} (hbyte : secondary < 256) : IsDecoded (decodeCb secondary) []

/-- A fact about all decoded bytes holds of every decoded instruction. -/
theorem IsDecoded.of_bytes (holds : DecodedInstruction → Prop)
    (hprimary : ∀ opcode < 256, opcode ≠ 0xcb → isUndefined opcode = false →
      holds (decodeDefinedPrimary opcode))
    (hcb : ∀ secondary < 256, holds (decodeCb secondary)) {instruction : DecodedInstruction}
    {immediates : List ℕ} (h : IsDecoded instruction immediates) : holds instruction := by
  cases h with
  | primary hbyte hopcode hdecode hlength =>
    unfold decodePrimary at hdecode
    split at hdecode
    · cases hdecode
    · rename_i hdefined
      cases hdecode
      exact hprimary _ hbyte hopcode (by simpa using hdefined)
  | cb hbyte => exact hcb _ hbyte

/-- An accepted fetch of an instruction, over a bus that gives bytes. -/
theorem performs_fetchAndDecode (hbytes : bus.FetchesBytes) {instruction : DecodedInstruction}
    {immediates : List ℕ}
    (hrun : Accepts (fetchAndDecode bus) before (instruction, immediates) after) :
    IsDecoded instruction immediates ∧ after.cpu = fetchedCpu before.cpu instruction ∧
      Runs bus.Performs before.bus (fetchAccesses before.cpu instruction) after.bus := by
  simp only [fetchAndDecode, accepts_bind, accepts_cpu] at hrun
  obtain ⟨_, start, ⟨rfl, rfl⟩, opcode, _, hfirst, hrest⟩ := hrun
  obtain ⟨next, hfetch, rfl⟩ := (accepts_fetchFirstOpcode _).mp hfirst
  split at hrest
  · simp only [accepts_bind, accepts_fetchAndAdvance, accepts_pure] at hrest
    obtain ⟨secondary, _, ⟨last, hsecond, rfl⟩, hvalue, rfl⟩ := hrest
    obtain ⟨rfl, rfl⟩ := Prod.mk.injEq .. ▸ hvalue
    have hruns := Runs.single (CpuBus.Performs.fetch hsecond)
    exact ⟨.cb (hbytes hsecond), rfl, .cons (.fetch hfetch) hruns⟩
  · rename_i hopcode
    split at hrest
    · rename_i found hdecode
      simp only [accepts_bind, accepts_pure] at hrest
      obtain ⟨bytes, _, hfetched, hvalue, rfl⟩ := hrest
      obtain ⟨rfl, rfl⟩ := Prod.mk.injEq .. ▸ hvalue
      obtain ⟨hlength, hcpu, hruns⟩ := performs_fetchImmediates hfetched
      have hencoding : instruction.encoding = .primary opcode := by
        unfold decodePrimary at hdecode
        split at hdecode
        · cases hdecode
        · cases hdecode
          rfl
      refine ⟨.primary (hbytes hfetch) hopcode hdecode hlength, hcpu, ?_⟩
      rw [fetchAccesses, hencoding]
      exact .cons (.fetch hfetch) hruns
    · exact absurd hrest (accepts_throw _ _ _ _)

/-- The accesses of an accepted instruction are its fetches and the listed accesses of its
operation, each once and in order. -/
theorem performs_fetchAndExecute (hbytes : bus.FetchesBytes) {instruction : DecodedInstruction}
    {branch : Bool}
    (hrun : Accepts (fetchAndExecute bus) before (instruction, branch) after) :
    ∃ immediates middle, IsDecoded instruction immediates ∧
      Accepts (execute bus instruction.operation immediates)
        ⟨fetchedCpu before.cpu instruction, middle⟩ branch after ∧
      Runs bus.Performs before.bus (fetchAccesses before.cpu instruction) middle ∧
      Runs bus.Performs middle
        (operationAccesses (fetchedCpu before.cpu instruction) immediates instruction.operation)
        after.bus := by
  simp only [fetchAndExecute, accepts_bind, accepts_pure] at hrun
  obtain ⟨⟨found, immediates⟩, middle, hfetch, taken, _, hexecute, hvalue, rfl⟩ := hrun
  obtain ⟨rfl, rfl⟩ := Prod.mk.injEq .. ▸ hvalue
  obtain ⟨hdecoded, hcpu, hruns⟩ := performs_fetchAndDecode hbytes hfetch
  have hmiddle : middle = ⟨fetchedCpu before.cpu instruction, middle.bus⟩ := by rw [← hcpu]
  rw [hmiddle] at hexecute
  exact ⟨immediates, middle.bus, hdecoded, hexecute, hruns, (performs_execute hexecute :)⟩

end Exec

end Zksm83
