import Zksm83.Core.Execute

/-!
# The accesses of an instruction

The recording bus answers the accesses of an instruction with given bytes, in order, and lists
their roles and addresses. `accesses` is that list for one instruction; `operationAccesses` says
what it consists of after the fetches. The rows of the packed relation are compared with it.
-/

namespace Zksm83

/-- A bus access: its role and its CPU address. -/
structure Access where
  role : BusRole
  address : ℕ
  deriving DecidableEq, Repr

/-- The bus that answers the accesses with given bytes and lists them. -/
def recordingBus (answers : ℕ → ℕ) : CpuBus (List Access) where
  fetchInstruction address role log := (.ok (answers log.length), log ++ [⟨role, address⟩])
  readData address log := (.ok (answers log.length), log ++ [⟨.dataRead, address⟩])
  writeData address _ log := (.ok (), log ++ [⟨.dataWrite, address⟩])

/-- The accesses of the instruction at the program counter. -/
def accesses (answers : ℕ → ℕ) (cpu : CpuState) : List Access :=
  (Exec.fetchAndExecute (recordingBus answers) ⟨cpu, []⟩).2.bus

def operandAccess (role : BusRole) (cpu : CpuState) : Operand8 → List Access
  | .indirectHl => [⟨role, cpu.register16 .hl⟩]
  | .register _ | .immediate => []

def transferAccess (address : ℕ) : TransferDirection → Access
  | .intoAccumulator => ⟨.dataRead, address⟩
  | .fromAccumulator => ⟨.dataWrite, address⟩

def popAccesses (cpu : CpuState) : List Access :=
  [⟨.dataRead, cpu.sp⟩, ⟨.dataRead, (cpu.sp + 1) % 65536⟩]

def pushAccesses (cpu : CpuState) : List Access :=
  [⟨.dataWrite, (cpu.sp + 65535) % 65536⟩, ⟨.dataWrite, (cpu.sp + 65534) % 65536⟩]

/-- Whether a condition holds; the empty condition does. -/
def CpuState.takes (cpu : CpuState) : Option Condition → Bool
  | none => true
  | some condition => cpu.conditionHolds condition

/-- The little-endian word of the immediates. -/
def immediateWord (immediates : List ℕ) : ℕ :=
  immediates.getD 0 0 + 256 * immediates.getD 1 0

/-- The accesses of an operation after its fetches. -/
def operationAccesses (cpu : CpuState) (immediates : List ℕ) : Operation → List Access
  | .storeSpAbsolute => [⟨.dataWrite, immediateWord immediates⟩,
      ⟨.dataWrite, (immediateWord immediates + 1) % 65536⟩]
  | .loadAccumulatorIndirect address direction =>
    [transferAccess (cpu.indirectAddress address) direction]
  | .load8Immediate target => operandAccess .dataWrite cpu target
  | .load8 destination source =>
    operandAccess .dataRead cpu source ++ operandAccess .dataWrite cpu destination
  | .highImmediateLoad direction => [transferAccess (0xff00 + immediates.getD 0 0) direction]
  | .highCLoad direction => [transferAccess (0xff00 + cpu.registers.c) direction]
  | .absoluteAccumulatorLoad direction => [transferAccess (immediateWord immediates) direction]
  | .increment8 target | .decrement8 target =>
    operandAccess .dataRead cpu target ++ operandAccess .dataWrite cpu target
  | .alu8 _ source => operandAccess .dataRead cpu source
  | .cb (.testBit _) target => operandAccess .dataRead cpu target
  | .cb _ target => operandAccess .dataRead cpu target ++ operandAccess .dataWrite cpu target
  | .return condition => if cpu.takes condition then popAccesses cpu else []
  | .returnFromInterrupt | .pop _ => popAccesses cpu
  | .call condition => if cpu.takes condition then pushAccesses cpu else []
  | .restart _ | .push _ => pushAccesses cpu
  | _ => []

/-- The immediate bytes that an operation uses. -/
def immediateNeed : Operation → ℕ
  | .storeSpAbsolute | .load16Immediate _ | .absoluteAccumulatorLoad _ | .jump _ | .call _ => 2
  | .load8Immediate _ | .highImmediateLoad _ | .addSpOffset | .loadHlSpOffset | .relativeJump _
  | .stop | .alu8 _ .immediate | .load8 _ .immediate | .increment8 .immediate
  | .decrement8 .immediate | .cb _ .immediate => 1
  | _ => 0

namespace Exec

section Run

variable {σ α β : Type}

/-- Running an action, with its result and the executor it leaves. -/
def run (action : Exec σ α) (executor : Executor σ) : Except StepError α × Executor σ :=
  action executor

@[simp] theorem run_pure (value : α) (executor : Executor σ) :
    run (pure value : Exec σ α) executor = (.ok value, executor) := rfl

@[simp] theorem run_throw (error : StepError) (executor : Executor σ) :
    run (throw error : Exec σ α) executor = (.error error, executor) := rfl

/-- A rejected action stops the run. -/
theorem run_bind (action : Exec σ α) (continuation : α → Exec σ β) (executor : Executor σ) :
    run (action >>= continuation) executor =
      match run action executor with
      | (.ok value, next) => run (continuation value) next
      | (.error error, next) => (.error error, next) := by
  simp only [run, bind, ExceptT.bind, ExceptT.mk, StateT.bind]
  rcases action executor with ⟨_ | _, next⟩ <;> rfl

theorem run_bind_ok {action : Exec σ α} {executor next : Executor σ} {value : α}
    (h : run action executor = (.ok value, next)) (continuation : α → Exec σ β) :
    run (action >>= continuation) executor = run (continuation value) next := by
  rw [run_bind, h]

@[simp] theorem run_map (action : Exec σ α) (f : α → β) (executor : Executor σ) :
    run (f <$> action) executor = ((run action executor).1.map f, (run action executor).2) := by
  rw [← bind_pure_comp, run_bind]
  rcases run action executor with ⟨_ | _, next⟩ <;> rfl

@[simp] theorem run_cpu (executor : Executor σ) :
    run (cpu : Exec σ CpuState) executor = (.ok executor.cpu, executor) := rfl

@[simp] theorem run_modifyCpu (change : CpuState → CpuState) (executor : Executor σ) :
    run (modifyCpu change : Exec σ Unit) executor =
      (.ok (), { executor with cpu := change executor.cpu }) := rfl

@[simp] theorem run_setPc (target : ℕ) (executor : Executor σ) :
    run (setPc target : Exec σ Unit) executor =
      (.ok (), { executor with cpu := { executor.cpu with pc := target } }) := rfl

@[simp] theorem run_setFlags (flags : Flags) (executor : Executor σ) :
    run (setFlags flags : Exec σ Unit) executor =
      (.ok (), { executor with cpu := { executor.cpu with flags := flags } }) := rfl

@[simp] theorem run_taken (condition : Option Condition) (executor : Executor σ) :
    run (taken condition : Exec σ Bool) executor =
      (.ok (executor.cpu.takes condition), executor) := by
  cases condition <;> rfl

end Run

section Recording

variable (answers : ℕ → ℕ) (cpu : CpuState) (log : List Access)

@[simp] theorem run_fetchInstruction_recording (address : ℕ) (role : BusRole) :
    run (fetchInstruction (recordingBus answers) address role) ⟨cpu, log⟩ =
      (.ok (answers log.length), ⟨cpu, log ++ [⟨role, address⟩]⟩) := rfl

@[simp] theorem run_readData_recording (address : ℕ) :
    run (readData (recordingBus answers) address) ⟨cpu, log⟩ =
      (.ok (answers log.length), ⟨cpu, log ++ [⟨.dataRead, address⟩]⟩) := rfl

@[simp] theorem run_writeData_recording (address value : ℕ) :
    run (writeData (recordingBus answers) address value) ⟨cpu, log⟩ =
      (.ok (), ⟨cpu, log ++ [⟨.dataWrite, address⟩]⟩) := rfl

/-- The value of an operand under the recording bus. -/
def operandValue (immediates : List ℕ) (length : ℕ) : Operand8 → ℕ
  | .register register => cpu.register8 register
  | .immediate => immediates.getD 0 0
  | .indirectHl => answers length

theorem run_readOperand_recording (operand : Operand8) (immediates : List ℕ)
    (hneed : operand = .immediate → 1 ≤ immediates.length) :
    run (readOperand (recordingBus answers) operand immediates) ⟨cpu, log⟩ =
      (.ok (operandValue answers cpu immediates log.length operand),
        ⟨cpu, log ++ operandAccess .dataRead cpu operand⟩) := by
  cases operand with
  | register register => simp [readOperand, Except.map, operandAccess, operandValue]
  | immediate =>
    obtain ⟨byte, rest, rfl⟩ := List.exists_cons_of_length_pos (hneed rfl)
    simp [readOperand, operandAccess, operandValue]
  | indirectHl => simp [readOperand, run_bind, operandAccess, operandValue]

/-- A write of an operand is logged, and changes no pair of registers unless it is one. -/
theorem run_writeOperand_log (operand : Operand8) (value : ℕ) :
    (run (writeOperand (recordingBus answers) operand value) ⟨cpu, log⟩).2.bus =
      log ++ operandAccess .dataWrite cpu operand := by
  cases operand <;> simp [writeOperand, run_bind, operandAccess]

theorem run_immediateByte {immediates : List ℕ} (hneed : 1 ≤ immediates.length)
    (executor : Executor (List Access)) :
    run (immediateByte immediates) executor = (.ok (immediates.getD 0 0), executor) := by
  obtain ⟨byte, rest, rfl⟩ := List.exists_cons_of_length_pos hneed
  rfl

theorem run_immediateWord {immediates : List ℕ} (hneed : 2 ≤ immediates.length)
    (executor : Executor (List Access)) :
    run (immediateWord immediates) executor =
      (.ok (Zksm83.immediateWord immediates), executor) := by
  match immediates, hneed with
  | low :: high :: rest, _ => rfl

theorem run_storeSpAbsolute_log (address : ℕ) :
    (run (storeSpAbsolute (recordingBus answers) address) ⟨cpu, log⟩).2.bus =
      log ++ [⟨.dataWrite, address⟩, ⟨.dataWrite, (address + 1) % 65536⟩] := by
  simp [storeSpAbsolute, run_bind]

theorem run_transferAccumulator_log (address : ℕ) (direction : TransferDirection) :
    (run (transferAccumulator (recordingBus answers) address direction) ⟨cpu, log⟩).2.bus =
      log ++ [transferAccess address direction] := by
  cases direction <;> simp [transferAccumulator, run_bind, transferAccess]

theorem run_popWord :
    run (popWord (recordingBus answers)) ⟨cpu, log⟩ =
      (.ok (answers log.length + 256 * answers (log.length + 1)),
        ⟨{ cpu with sp := ((cpu.sp + 1) % 65536 + 1) % 65536 }, log ++ popAccesses cpu⟩) := by
  simp [popWord, run_bind, popAccesses, Except.map]

theorem run_pushWord (value : ℕ) :
    run (pushWord (recordingBus answers) value) ⟨cpu, log⟩ =
      (.ok (), ⟨{ cpu with sp := (cpu.sp + 65534) % 65536 }, log ++ pushAccesses cpu⟩) := by
  have hlow : (cpu.sp + 65535 + 65535) % 65536 = (cpu.sp + 65534) % 65536 := by omega
  simp [pushWord, run_bind, pushAccesses, hlow]

/-- An accessing action followed by one that leaves the bus alone. -/
theorem run_bind_bus {α β : Type} {action : Exec (List Access) α}
    {continuation : α → Exec (List Access) β} {executor : Executor (List Access)}
    (hquiet : ∀ value next, (run (continuation value) next).2.bus = next.bus) :
    (run (action >>= continuation) executor).2.bus = (run action executor).2.bus := by
  rw [run_bind]
  rcases run action executor with ⟨_ | value, next⟩
  · rfl
  · exact hquiet value next

/-- The accesses of an operation are the listed ones. -/
theorem run_execute_log (operation : Operation) (immediates : List ℕ)
    (hneed : immediateNeed operation ≤ immediates.length) :
    (run (execute (recordingBus answers) operation immediates) ⟨cpu, log⟩).2.bus =
      log ++ operationAccesses cpu immediates operation := by
  have hoperand : ∀ operand : Operand8,
      (operand = .immediate → 1 ≤ immediates.length) →
      run (readOperand (recordingBus answers) operand immediates) ⟨cpu, log⟩ =
      (.ok (operandValue answers cpu immediates log.length operand),
        ⟨cpu, log ++ operandAccess .dataRead cpu operand⟩) :=
    fun operand => run_readOperand_recording answers cpu log operand immediates
  cases operation with
  | storeSpAbsolute =>
    rw [execute, run_bind_ok (run_immediateWord hneed _), run_bind_bus (by simp),
      run_storeSpAbsolute_log]
    rfl
  | loadAccumulatorIndirect address direction =>
    rw [execute, run_bind_ok (run_cpu _), run_bind_bus (by simp),
      run_transferAccumulator_log]
    rfl
  | load8Immediate target =>
    rw [execute, run_bind_ok (run_immediateByte hneed _), run_bind_bus (by simp),
      run_writeOperand_log]
    rfl
  | load8 destination source =>
    rw [execute, run_bind_ok (hoperand source ?_), run_bind_bus (by simp), run_writeOperand_log,
      List.append_assoc]
    · rfl
    · rintro rfl
      exact hneed
  | highImmediateLoad direction =>
    rw [execute, run_bind_ok (run_immediateByte hneed _), run_bind_bus (by simp),
      run_transferAccumulator_log]
    rfl
  | highCLoad direction =>
    rw [execute, run_bind_ok (run_cpu _), run_bind_bus (by simp), run_transferAccumulator_log]
    rfl
  | absoluteAccumulatorLoad direction =>
    rw [execute, run_bind_ok (run_immediateWord hneed _), run_bind_bus (by simp),
      run_transferAccumulator_log]
    rfl
  | increment8 target =>
    rw [execute, run_bind_ok (hoperand target ?_), run_bind_ok (run_cpu _),
      run_bind_bus (by simp), run_writeOperand_log, List.append_assoc]
    · rfl
    · rintro rfl
      exact hneed
  | decrement8 target =>
    rw [execute, run_bind_ok (hoperand target ?_), run_bind_ok (run_cpu _),
      run_bind_bus (by simp), run_writeOperand_log, List.append_assoc]
    · rfl
    · rintro rfl
      exact hneed
  | alu8 operation source =>
    rw [execute, run_bind_ok (hoperand source ?_), run_bind_ok (run_cpu _)]
    · simp only [operationAccesses]
      split <;> simp [run_bind]
    · rintro rfl
      exact hneed
  | cb operation target =>
    cases operation with
    | testBit bit =>
      rw [execute, run_bind_ok (hoperand target ?_)]
      · simp [run_bind, operationAccesses]
      · rintro rfl
        exact hneed
    | resetBit bit | setBit bit =>
      rw [execute, run_bind_ok (hoperand target ?_), run_bind_bus (by simp), run_writeOperand_log,
        List.append_assoc]
      · rfl
      · rintro rfl
        exact hneed
    | _ =>
      simp only [execute]
      rw [run_bind_ok (hoperand target ?_), run_bind_ok (run_cpu _)]
      · simp only [Alu.rotateShift]
        rw [run_bind_bus (by simp), run_writeOperand_log, List.append_assoc]
        rfl
      · rintro rfl
        exact hneed
  | «return» condition =>
    rw [execute, run_bind_ok (run_taken _ _)]
    by_cases htaken : cpu.takes condition
    · simp [htaken, run_bind, run_popWord, operationAccesses]
    · simp [htaken, operationAccesses]
  | returnFromInterrupt =>
    rw [execute, run_bind_ok (run_popWord answers cpu log)]
    simp [operationAccesses]
  | pop register =>
    rw [execute, run_bind_ok (run_popWord answers cpu log)]
    simp [operationAccesses]
  | call condition =>
    rw [execute, run_bind_ok (run_taken _ _)]
    by_cases htaken : cpu.takes condition
    · simp [htaken, run_bind, run_pushWord, run_immediateWord hneed, operationAccesses]
    · simp [htaken, operationAccesses]
  | restart vector => simp [execute, run_bind, run_pushWord, operationAccesses]
  | push register => simp [execute, run_bind, run_pushWord, operationAccesses]
  | nop | complementAccumulator | setCarry | complementCarry | loadSpHl | increment16 _
  | decrement16 _ | jumpHl | disableInterrupts | enableInterrupts | halt | prefixCb =>
    simp [execute, operationAccesses]
  | decimalAdjust | addHl _ => simp [execute, run_bind, operationAccesses]
  | load16Immediate register =>
    simp [execute, run_bind, run_immediateWord hneed, operationAccesses]
  | loadHlSpOffset => simp [execute, run_bind, run_immediateByte hneed, operationAccesses]
  | addSpOffset => simp [execute, run_bind, run_immediateByte hneed, operationAccesses]
  | stop =>
    rw [execute, run_bind_ok (run_immediateByte hneed _)]
    split <;> simp [operationAccesses]
  | jump condition =>
    rw [execute, run_bind_ok (run_taken _ _)]
    by_cases htaken : cpu.takes condition
    · simp [htaken, run_bind, run_immediateWord hneed, operationAccesses]
    · simp [htaken, operationAccesses]
  | relativeJump condition =>
    rw [execute, run_bind_ok (run_taken _ _)]
    by_cases htaken : cpu.takes condition
    · simp [htaken, run_bind, run_immediateByte hneed, operationAccesses]
    · simp [htaken, operationAccesses]
  | rotateAccumulator rotate =>
    rw [execute, run_bind_ok (run_cpu _)]
    simp only [operationAccesses, List.append_nil]
    split <;> simp

/-- The address after the first opcode byte: under the HALT bug the program counter stays. -/
def nextFetch (cpu : CpuState) : ℕ :=
  if cpu.runState = .haltBug then cpu.pc else (cpu.pc + 1) % 65536

/-- The CPU after the first opcode byte. -/
def afterFirstOpcode (cpu : CpuState) : CpuState :=
  { cpu with
    pc := nextFetch cpu
    runState := if cpu.runState = .haltBug then .running else cpu.runState }

theorem run_fetchFirstOpcode :
    run (fetchFirstOpcode (recordingBus answers) (cpu.runState = .haltBug)) ⟨cpu, log⟩ =
      (.ok (answers log.length), ⟨afterFirstOpcode cpu, log ++ [⟨.opcodeFetch, cpu.pc⟩]⟩) := by
  by_cases hbug : cpu.runState = .haltBug
  · simp [fetchFirstOpcode, run_bind, hbug, afterFirstOpcode, nextFetch, Except.map]
  · simp [fetchFirstOpcode, run_bind, hbug, afterFirstOpcode, nextFetch, Except.map]

theorem run_fetchAndAdvance (role : BusRole) :
    run (fetchAndAdvance (recordingBus answers) role) ⟨cpu, log⟩ =
      (.ok (answers log.length),
        ⟨{ cpu with pc := (cpu.pc + 1) % 65536 }, log ++ [⟨role, cpu.pc⟩]⟩) := by
  simp [fetchAndAdvance, run_bind, Except.map]

/-- The accesses of consecutive immediate bytes. -/
def immediateAccesses (pc : ℕ) : ℕ → List Access
  | 0 => []
  | count + 1 => ⟨.immediateRead, pc⟩ :: immediateAccesses ((pc + 1) % 65536) count

omit answers cpu log in
@[simp] theorem length_immediateAccesses (pc count : ℕ) :
    (immediateAccesses pc count).length = count := by
  induction count generalizing pc with
  | zero => rfl
  | succ count ih => simp [immediateAccesses, ih]

/-- The bytes that answer consecutive accesses. -/
def answered (start count : ℕ) : List ℕ := (List.range' start count).map answers

theorem run_fetchImmediates (count : ℕ) :
    ∃ pc, run (fetchImmediates (recordingBus answers) count) ⟨cpu, log⟩ =
      (.ok (answered answers log.length count),
        ⟨{ cpu with pc := pc }, log ++ immediateAccesses cpu.pc count⟩) := by
  induction count generalizing cpu log with
  | zero => exact ⟨cpu.pc, by simp [fetchImmediates, answered, immediateAccesses]⟩
  | succ count ih =>
    obtain ⟨pc, hrest⟩ := ih { cpu with pc := (cpu.pc + 1) % 65536 }
      (log ++ [⟨.immediateRead, cpu.pc⟩])
    refine ⟨pc, ?_⟩
    rw [fetchImmediates, run_bind_ok (run_fetchAndAdvance answers cpu log _), run_bind_ok hrest]
    simp [answered, immediateAccesses, List.range'_succ]

end Recording

theorem immediateNeed_decodeCb (byte : ℕ) : immediateNeed (decodeCb byte).operation = 0 := by
  have hneed : ∀ operation code, immediateNeed (.cb operation (Decode.operand8 code)) = 0 := by
    intro operation code
    unfold Decode.operand8
    split <;> rfl
  exact hneed _ _

/-- Fetch, decode and execute, once the instruction is fetched. -/
theorem accesses_eq {answers : ℕ → ℕ} {cpu fetched : CpuState} {log : List Access}
    {instruction : DecodedInstruction} {immediates : List ℕ}
    (hfetch : run (fetchAndDecode (recordingBus answers)) ⟨cpu, []⟩ =
      (.ok (instruction, immediates), ⟨fetched, log⟩))
    (hneed : immediateNeed instruction.operation ≤ immediates.length) :
    accesses answers cpu = log ++ operationAccesses fetched immediates instruction.operation := by
  show (run (fetchAndExecute (recordingBus answers)) ⟨cpu, []⟩).2.bus = _
  rw [fetchAndExecute, run_bind_ok hfetch]
  show (run (execute (recordingBus answers) instruction.operation immediates >>= _) _).2.bus = _
  rw [run_bind_bus (by simp), run_execute_log answers fetched log _ _ hneed]

/-- The accesses of a prefixed instruction. -/
theorem accesses_cb {answers : ℕ → ℕ} {cpu : CpuState} (hopcode : answers 0 = 0xcb) :
    accesses answers cpu = [⟨.opcodeFetch, cpu.pc⟩, ⟨.opcodeFetch, nextFetch cpu⟩] ++
      operationAccesses cpu [] (decodeCb (answers 1)).operation := by
  have hfetch : run (fetchAndDecode (recordingBus answers)) ⟨cpu, []⟩ =
      (.ok (decodeCb (answers 1), []),
        ⟨{ afterFirstOpcode cpu with pc := (nextFetch cpu + 1) % 65536 },
          [⟨.opcodeFetch, cpu.pc⟩, ⟨.opcodeFetch, nextFetch cpu⟩]⟩) := by
    rw [fetchAndDecode, run_bind_ok (run_cpu _),
      run_bind_ok (run_fetchFirstOpcode answers cpu []), List.length_nil, if_pos hopcode,
      run_bind_ok (run_fetchAndAdvance answers _ _ _)]
    rfl
  rw [accesses_eq hfetch (immediateNeed_decodeCb _).le]
  rfl

/-- The accesses of an instruction without prefix. -/
theorem accesses_primary {answers : ℕ → ℕ} {cpu : CpuState} {instruction : DecodedInstruction}
    (hopcode : answers 0 ≠ 0xcb) (hdecode : decodePrimary (answers 0) = some instruction)
    (hneed : immediateNeed instruction.operation ≤ instruction.byteLen - 1) :
    accesses answers cpu = ⟨.opcodeFetch, cpu.pc⟩ ::
      (immediateAccesses (nextFetch cpu) (instruction.byteLen - 1) ++
        operationAccesses cpu (answered answers 1 (instruction.byteLen - 1))
          instruction.operation) := by
  obtain ⟨pc, himmediates⟩ := run_fetchImmediates answers (afterFirstOpcode cpu)
    [⟨.opcodeFetch, cpu.pc⟩] (instruction.byteLen - 1)
  have hfetch : run (fetchAndDecode (recordingBus answers)) ⟨cpu, []⟩ =
      (.ok (instruction, answered answers 1 (instruction.byteLen - 1)),
        ⟨{ afterFirstOpcode cpu with pc := pc }, [⟨.opcodeFetch, cpu.pc⟩] ++
          immediateAccesses (nextFetch cpu) (instruction.byteLen - 1)⟩) := by
    rw [fetchAndDecode, run_bind_ok (run_cpu _),
      run_bind_ok (run_fetchFirstOpcode answers cpu []), List.length_nil, if_neg hopcode]
    simp only [hdecode]
    rw [List.nil_append, run_bind_ok himmediates]
    rfl
  rw [accesses_eq hfetch (by simpa [answered] using hneed), List.append_assoc,
    List.singleton_append]
  rfl

end Exec

end Zksm83
