import Zksm83.Block.Metadata
import Zksm83.Core.FetchEvents
import Zksm83.Trace.Run

/-!
# The planner of instruction blocks

The planner partitions accepted rows into spans: a machine event is a span of its own, and
instructions are packed as long as four lanes, six M-cycles and five bus events last and no cut
stands between them. After `block.rs` of the trace crate.

The loop over a span walks along the rows that are left, so the row index only names rows in errors.
-/

namespace Zksm83

/-- Why a block ends. -/
inductive BasicBlockCut where
  | instructionBound
  | cycleBound
  | busEventBound
  | endOfTrace
  | controlFlow
  | lowPower
  | interruptControl
  | interruptPending
  | deviceIo
  | ppuSensitiveMemory
  | protocolIo
  | mapperChange
  | mutableExecution
  | machineEvent
  deriving DecidableEq, Repr

structure BasicBlockSpan where
  rowStart : ℕ
  rowCount : ℕ
  instructionCount : ℕ
  mCycleCount : ℕ
  busEventCount : ℕ
  cut : BasicBlockCut
  deriving DecidableEq, Repr

inductive BasicBlockPlanError where
  | discontinuous (index : ℕ)
  | resourceAccounting (index : ℕ)
  | partitionInvariant
  deriving DecidableEq, Repr

/-- The rows of a span. -/
def BasicBlockSpan.rowsOf (span : BasicBlockSpan) (rows : List TraceRow) : List TraceRow :=
  (rows.drop span.rowStart).take span.rowCount

namespace BlockPlanner

/-- The M-cycles and the bus events of a row. -/
def rowResources (row : TraceRow) (index : ℕ) : Except BasicBlockPlanError (ℕ × ℕ) :=
  let before := row.before.vm.cpu.mCycles
  let after := row.after.vm.cpu.mCycles
  if after < before then .error (.resourceAccounting index)
  else .ok (after - before, row.effects.busEvents.length)

/-- Two neighbours that do not join are rejected. -/
def ensureContiguous (rows : List TraceRow) : Except BasicBlockPlanError Unit :=
  match discontinuity (fun before after : TraceRow => before.after = after.before) 0 rows with
  | some index => .error (.discontinuous index)
  | none => .ok ()

/-- An address whose memory the PPU can own. -/
def isPpuSensitive (address : ℕ) : Bool :=
  0x8000 ≤ address && address ≤ 0x9fff || 0xfe00 ≤ address && address ≤ 0xfe9f

/-- The cut that an event puts around its row. -/
def standaloneEvent (event : BusEvent MerklePath) : Option BasicBlockCut :=
  match event with
  | .dmgMmioRead _ _ | .dmgMmioWrite _ _ _ | .dmgJoypadRead _ _ _ _ => some .deviceIo
  | .memoryRead _ | .memoryWrite _ | .memoryOpcodeFetch _ | .memoryImmediateRead _ =>
    if isPpuSensitive event.transcriptEvent.address then some .ppuSensitiveMemory else none
  | _ => none

def standaloneCut (row : TraceRow) : Option BasicBlockCut :=
  row.effects.busEvents.findSome? standaloneEvent

/-- The cut that an operation puts behind its row. -/
def operationCut : Operation → Option BasicBlockCut
  | .halt | .stop => some .lowPower
  | .disableInterrupts | .enableInterrupts | .returnFromInterrupt => some .interruptControl
  | .relativeJump _ | .return _ | .jumpHl | .jump _ | .call _ | .restart _ => some .controlFlow
  | _ => none

/-- The cut that an event puts behind its row. -/
def eventCut : BusEvent MerklePath → Option BasicBlockCut
  | .inputRead _ _ | .outputWrite _ _ | .dmgJoypadRead _ _ _ _ => some .protocolIo
  | .mbc3ControlWrite _ _ => some .mapperChange
  | .memoryOpcodeFetch _ | .memoryImmediateRead _ => some .mutableExecution
  | _ => none

/-- The cut of an interrupt that waits for the next row. -/
def interruptCut (state : VmState) : Option BasicBlockCut :=
  if state.cpu.ime = .enabled ∧ state.dmgDevices.pendingInterrupt.isSome then
    some .interruptPending
  else none

def semanticCut (row : TraceRow) : Option BasicBlockCut :=
  (operationCut row.effects.instruction.operation).or <|
    (standaloneCut row).or <|
      (row.effects.busEvents.findSome? eventCut).or (interruptCut row.after.vm)

/-- What a block has taken so far. -/
structure BlockResources where
  rowCount : ℕ
  mCycleCount : ℕ
  busEventCount : ℕ
  deriving DecidableEq, Repr

/-- The cut in front of a row that is not the first one of its block. -/
def frontCut (taken : BlockResources) (row : TraceRow) : Option BasicBlockCut :=
  if taken.rowCount = 0 then none else standaloneCut row

/-- The resources of a block with one more row, or the cut in front of that row. -/
def takeRow (index : ℕ) (taken : BlockResources) (row : TraceRow) :
    Except BasicBlockPlanError (BlockResources ⊕ BasicBlockCut) :=
  match frontCut taken row with
  | some cut => .ok (.inr cut)
  | none => do
    let (nextMCycles, nextBusEvents) ← rowResources row index
    let mCycles := taken.mCycleCount + nextMCycles
    let busEvents := taken.busEventCount + nextBusEvents
    if 2 ^ 64 ≤ mCycles ∨ 2 ^ 64 ≤ busEvents then .error (.resourceAccounting index)
    else if taken.rowCount ≠ 0 ∧ basicBlockMCycleBound < mCycles then .ok (.inr .cycleBound)
    else if taken.rowCount ≠ 0 ∧ basicBlockBusEventBound < busEvents then
      .ok (.inr .busEventBound)
    else if basicBlockMCycleBound < mCycles ∨ basicBlockBusEventBound < busEvents then
      .error (.resourceAccounting index)
    else .ok (.inl ⟨taken.rowCount + 1, mCycles, busEvents⟩)

/-- The cut between the last row that a block took and the rows that are left. -/
def backCut (taken : BlockResources) (row : TraceRow) (rest : List TraceRow) :
    Option BasicBlockCut :=
  (semanticCut row).or <|
    if taken.rowCount = basicBlockInstructionBound then some .instructionBound
    else
      match rest with
      | [] => some .endOfTrace
      | next :: _ => if next.effects.kind ≠ .instruction then some .machineEvent else none

/-- The loop over one block of instructions. -/
def growBlock : ℕ → BlockResources → List TraceRow →
    Except BasicBlockPlanError (BlockResources × BasicBlockCut)
  | index, _, [] => .error (.discontinuous index)
  | index, taken, current :: rest =>
    match takeRow index taken current with
    | .error error => .error error
    | .ok (.inr cut) => .ok (taken, cut)
    | .ok (.inl grown) =>
      match backCut grown current rest with
      | some cut => .ok (grown, cut)
      | none => growBlock (index + 1) grown rest

/-- The span of a machine event. -/
def machineSpan (index : ℕ) (row : TraceRow) : Except BasicBlockPlanError BasicBlockSpan := do
  let (mCycles, busEvents) ← rowResources row index
  return ⟨index, 1, 0, mCycles, busEvents, .machineEvent⟩

/-- The span of a block of instructions. -/
def instructionSpan (index : ℕ) (rows : List TraceRow) :
    Except BasicBlockPlanError BasicBlockSpan := do
  let (taken, cut) ← growBlock index ⟨0, 0, 0⟩ rows
  return ⟨index, taken.rowCount, taken.rowCount, taken.mCycleCount, taken.busEventCount, cut⟩

/-- The next span of some rows. -/
def nextSpan (index : ℕ) (row : TraceRow) (rest : List TraceRow) :
    Except BasicBlockPlanError BasicBlockSpan :=
  if row.effects.kind ≠ .instruction then machineSpan index row
  else instructionSpan index (row :: rest)

/-- The loop over the spans. A span has a row, so there is room for all of them. -/
def planLoop : ℕ → ℕ → List TraceRow → Except BasicBlockPlanError (List BasicBlockSpan)
  | _, _, [] => .ok []
  | 0, _, _ :: _ => .error .partitionInvariant
  | room + 1, index, row :: rest => do
    let span ← nextSpan index row rest
    let spans ← planLoop room (index + span.rowCount) ((row :: rest).drop span.rowCount)
    return span :: spans

/-- Partitions accepted rows into spans. -/
def planBasicBlocks (rows : List TraceRow) : Except BasicBlockPlanError (List BasicBlockSpan) := do
  ensureContiguous rows
  planLoop rows.length 0 rows

section Rules

variable {index : ℕ} {taken grown last : BlockResources} {row : TraceRow}
  {rest rows : List TraceRow} {cut : BasicBlockCut}

/-- The loop over one block takes the rows of `block` and stops in front of `left`. -/
inductive Grows : ℕ → BlockResources → List TraceRow → List TraceRow → BlockResources →
    BasicBlockCut → Prop
  | front {index : ℕ} {taken : BlockResources} {row : TraceRow} {left : List TraceRow}
      {cut : BasicBlockCut} (htake : takeRow index taken row = .ok (.inr cut)) :
      Grows index taken [] (row :: left) taken cut
  | back {index : ℕ} {taken grown : BlockResources} {row : TraceRow} {left : List TraceRow}
      {cut : BasicBlockCut} (htake : takeRow index taken row = .ok (.inl grown))
      (hcut : backCut grown row left = some cut) : Grows index taken [row] left grown cut
  | more {index : ℕ} {taken grown last : BlockResources} {row : TraceRow}
      {block left : List TraceRow} {cut : BasicBlockCut}
      (htake : takeRow index taken row = .ok (.inl grown))
      (hcut : backCut grown row (block ++ left) = none)
      (hgrows : Grows (index + 1) grown block left last cut) :
      Grows index taken (row :: block) left last cut

theorem grows_of_growBlock (h : growBlock index taken rows = .ok (last, cut)) :
    ∃ block left, rows = block ++ left ∧ Grows index taken block left last cut := by
  induction rows generalizing index taken with
  | nil => cases h
  | cons row rest ih =>
    unfold growBlock at h
    split at h
    · cases h
    · rename_i _ htake
      cases h
      exact ⟨[], row :: rest, rfl, .front htake⟩
    · rename_i grown htake
      split at h
      · rename_i _ hcut
        cases h
        exact ⟨[row], rest, rfl, .back htake hcut⟩
      · rename_i hcut
        obtain ⟨block, left, hrest, hgrows⟩ := ih h
        rw [hrest] at hcut
        exact ⟨row :: block, left, by rw [hrest, List.cons_append], .more htake hcut hgrows⟩

/-- What a block checks of a row that it takes. -/
theorem takeRow_eq_inl (h : takeRow index taken row = .ok (.inl grown)) :
    frontCut taken row = none ∧ ∃ mCycles, rowResources row index = .ok mCycles ∧
      grown = ⟨taken.rowCount + 1, taken.mCycleCount + mCycles.1,
        taken.busEventCount + mCycles.2⟩ ∧
      grown.mCycleCount ≤ basicBlockMCycleBound ∧ grown.busEventCount ≤ basicBlockBusEventBound := by
  unfold takeRow at h
  split at h
  · cases h
  · rename_i hfront
    obtain ⟨resources, hresources, htake⟩ := Except.bind_eq_ok.mp h
    refine ⟨hfront, resources, hresources, ?_⟩
    dsimp only at htake
    split_ifs at htake with hwidth hcycles hevents hbound <;> cases htake
    rw [not_or, Nat.not_lt, Nat.not_lt] at hbound
    exact ⟨rfl, hbound⟩

/-- A block counts its rows. -/
theorem Grows.rowCount_eq {block left : List TraceRow} (h : Grows index taken block left last cut) :
    last.rowCount = taken.rowCount + block.length := by
  induction h with
  | front => rfl
  | back htake hcut =>
    obtain ⟨-, _, _, rfl, -⟩ := takeRow_eq_inl htake
    rfl
  | more htake hcut hgrows ih =>
    obtain ⟨-, _, _, rfl, -⟩ := takeRow_eq_inl htake
    rw [ih, List.length_cons]
    exact Nat.succ_add_eq_add_succ _ _

/-- The first row of a block is always taken. -/
theorem Grows.ne_nil {block left : List TraceRow} (h : Grows index taken block left last cut)
    (hstart : taken.rowCount = 0) : block ≠ [] := by
  cases h with
  | front htake =>
    exfalso
    unfold takeRow frontCut at htake
    rw [if_pos hstart] at htake
    obtain ⟨resources, _, htake⟩ := Except.bind_eq_ok.mp htake
    dsimp only at htake
    split_ifs at htake <;> first | omega | cases htake
  | back => exact List.cons_ne_nil _ _
  | more => exact List.cons_ne_nil _ _

/-- A planned span: a machine event alone, or a block that the loop takes. -/
inductive Spans (index : ℕ) : List TraceRow → List TraceRow → BasicBlockSpan → Prop
  | machine {row : TraceRow} {left : List TraceRow} {resources : ℕ × ℕ}
      (hkind : row.effects.kind ≠ .instruction)
      (hresources : rowResources row index = .ok resources) :
      Spans index [row] left ⟨index, 1, 0, resources.1, resources.2, .machineEvent⟩
  | instructions {row : TraceRow} {block left : List TraceRow} {last : BlockResources}
      {cut : BasicBlockCut} (hkind : row.effects.kind = .instruction)
      (hgrows : Grows index ⟨0, 0, 0⟩ (row :: block) left last cut) :
      Spans index (row :: block) left
        ⟨index, last.rowCount, last.rowCount, last.mCycleCount, last.busEventCount, cut⟩

theorem spans_of_nextSpan {span : BasicBlockSpan} (h : nextSpan index row rest = .ok span) :
    ∃ block left, row :: rest = block ++ left ∧ Spans index block left span := by
  unfold nextSpan at h
  split_ifs at h with hkind
  · obtain ⟨resources, hresources, hspan⟩ := Except.bind_eq_ok.mp h
    cases hspan
    exact ⟨[row], rest, rfl, .machine hkind hresources⟩
  · obtain ⟨⟨taken, cut⟩, hgrow, hspan⟩ := Except.bind_eq_ok.mp h
    cases hspan
    obtain ⟨block, left, hrows, hgrows⟩ := grows_of_growBlock hgrow
    obtain ⟨first, more, rfl⟩ := List.exists_cons_of_ne_nil (hgrows.ne_nil rfl)
    rw [List.cons_append, List.cons.injEq] at hrows
    obtain ⟨rfl, rfl⟩ := hrows
    exact ⟨_, _, rfl, .instructions (not_not.mp hkind) hgrows⟩

/-- A span starts at its row and counts the rows of its block. -/
theorem Spans.rowStart_eq {block left : List TraceRow} {span : BasicBlockSpan}
    (h : Spans index block left span) : span.rowStart = index ∧ span.rowCount = block.length := by
  cases h with
  | machine => exact ⟨rfl, rfl⟩
  | instructions hkind hgrows => exact ⟨rfl, hgrows.rowCount_eq.trans (Nat.zero_add _)⟩

/-- Every planned span takes its rows from the start of what is left at its row index. -/
theorem spans_of_mem {room : ℕ} {spans : List BasicBlockSpan}
    (h : planLoop room index rows = .ok spans) {span : BasicBlockSpan} (hspan : span ∈ spans) :
    ∃ skipped block left, rows = skipped ++ (block ++ left) ∧
      span.rowStart = index + skipped.length ∧ Spans span.rowStart block left span := by
  induction room generalizing index rows spans with
  | zero =>
    cases rows <;> cases h
    cases hspan
  | succ room ih =>
    cases rows with
    | nil =>
      cases h
      cases hspan
    | cons row rest =>
      obtain ⟨first, hfirst, h⟩ := Except.bind_eq_ok.mp h
      obtain ⟨more, hmore, h⟩ := Except.bind_eq_ok.mp h
      cases h
      obtain ⟨block, left, hrows, hblock⟩ := spans_of_nextSpan hfirst
      obtain ⟨hstart, hcount⟩ := hblock.rowStart_eq
      rcases List.mem_cons.mp hspan with rfl | hlater
      · exact ⟨[], block, left, hrows, hstart, hstart ▸ hblock⟩
      · rw [hrows, hcount, List.drop_left] at hmore
        obtain ⟨skipped, other, after, hleft, hposition, hplanned⟩ := ih hmore hlater
        refine ⟨block ++ skipped, other, after, ?_, ?_, hplanned⟩
        · rw [hrows, hleft, List.append_assoc]
        · rw [hposition, List.length_append]
          omega

end Rules

end BlockPlanner

end Zksm83
