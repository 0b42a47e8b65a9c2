import Zksm83.Trace.BlockFetches

/-!
# Packing a witness into blocks

The rows of a witness move into the spans that the planner found for them, and every block routes
the four lanes and the shared slots of its instructions. After `pack_witness_basic_blocks_at` and
`block_routing` of `block.rs`. What a packed block promises is `Packs`.
-/

namespace Zksm83

/-- The cycles and the bus events of one instruction lane. -/
structure BasicBlockLaneDescriptor where
  sourceRowIndex : ℕ
  mCycleStart : ℕ
  mCycleCount : ℕ
  busEventStart : ℕ
  busEventCount : ℕ
  deriving DecidableEq, Repr

inductive BasicBlockLane where
  | padding
  | instruction (descriptor : BasicBlockLaneDescriptor)
  deriving DecidableEq, Repr

inductive BasicBlockLaneIndex where
  | lane0
  | lane1
  | lane2
  | lane3
  deriving DecidableEq, Repr

def BasicBlockLaneIndex.fromIndex : ℕ → Option BasicBlockLaneIndex
  | 0 => some .lane0
  | 1 => some .lane1
  | 2 => some .lane2
  | 3 => some .lane3
  | _ => none

/-- The owner of a shared slot. -/
inductive BasicBlockResourceOwner where
  | padding
  | instruction (lane : BasicBlockLaneIndex)
  deriving DecidableEq, Repr

structure BasicBlockRouting where
  lanes : List BasicBlockLane
  mCycleOwners : List BasicBlockResourceOwner
  busEventOwners : List BasicBlockResourceOwner
  deriving DecidableEq, Repr

/-- A non-empty group of accepted rows, for one packed relation row. -/
structure BasicBlock where
  sourceRowStart : ℕ
  rows : List TraceRow
  instructionCount : ℕ
  mCycleCount : ℕ
  busEventCount : ℕ
  cut : BasicBlockCut
  initialState : AuthenticatedState
  finalState : AuthenticatedState
  routing : BasicBlockRouting
  nonempty : rows ≠ []

/-- The rows of a witness, over its chunks. -/
def Witness.intoRows (witness : Witness) : List TraceRow := witness.chunks.flatMap TraceChunk.rows

namespace BlockPlanner

/-- Every lane and every slot unused. -/
def paddingRouting : BasicBlockRouting where
  lanes := List.replicate basicBlockInstructionBound .padding
  mCycleOwners := List.replicate basicBlockMCycleBound .padding
  busEventOwners := List.replicate basicBlockBusEventBound .padding

/-- Gives a range of slots to a lane. A range past the last slot is refused. -/
def fillOwners (owners : List BasicBlockResourceOwner) (start count : ℕ)
    (lane : BasicBlockLaneIndex) : Except BasicBlockPlanError (List BasicBlockResourceOwner) :=
  if owners.length < start + count then .error .partitionInvariant
  else .ok (owners.take start ++ List.replicate count (.instruction lane) ++
    owners.drop (start + count))

/-- The routing of one lane, entered into the lanes and the owners. -/
def routeLane (sourceRowIndex laneIndex mCycleStart busEventStart : ℕ) (resources : ℕ × ℕ)
    (routing : BasicBlockRouting) : Except BasicBlockPlanError BasicBlockRouting :=
  match BasicBlockLaneIndex.fromIndex laneIndex with
  | none => .error .partitionInvariant
  | some lane => do
    let (mCycleCount, busEventCount) := resources
    let mCycleOwners ← fillOwners routing.mCycleOwners mCycleStart mCycleCount lane
    let busEventOwners ← fillOwners routing.busEventOwners busEventStart busEventCount lane
    return {
      lanes := routing.lanes.set laneIndex (.instruction
        ⟨sourceRowIndex, mCycleStart, mCycleCount, busEventStart, busEventCount⟩)
      mCycleOwners
      busEventOwners }

/-- The loop over the lanes: the routing, and the cycles and bus events of all lanes. -/
def routeLanes (firstRow : ℕ) : ℕ → ℕ → ℕ → BasicBlockRouting → List TraceRow →
    Except BasicBlockPlanError (BasicBlockRouting × ℕ × ℕ)
  | _, mCycles, busEvents, routing, [] => .ok (routing, mCycles, busEvents)
  | laneIndex, mCycles, busEvents, routing, row :: rest =>
    if row.effects.kind ≠ .instruction then .error .partitionInvariant
    else if 2 ^ 64 ≤ firstRow + laneIndex then .error .partitionInvariant
    else do
      let resources ← rowResources row (firstRow + laneIndex)
      let routing ← routeLane (firstRow + laneIndex) laneIndex mCycles busEvents resources routing
      routeLanes firstRow (laneIndex + 1) (mCycles + resources.1) (busEvents + resources.2) routing
        rest

def blockRouting (rows : List TraceRow) (span : BasicBlockSpan) (sourceRowOffset : ℕ) :
    Except BasicBlockPlanError BasicBlockRouting :=
  if span.instructionCount = 0 then
    match rows with
    | [row] =>
      if row.effects.kind = .instruction then .error .partitionInvariant else .ok paddingRouting
    | _ => .error .partitionInvariant
  else if rows.length ≠ span.instructionCount ∨ basicBlockInstructionBound < rows.length then
    .error .partitionInvariant
  else do
    let (routing, mCycles, busEvents) ←
      routeLanes (sourceRowOffset + span.rowStart) 0 0 0 paddingRouting rows
    if mCycles ≠ span.mCycleCount ∨ busEvents ≠ span.busEventCount then .error .partitionInvariant
    else return routing

/-- The rows of one span as a block. -/
def packBlock (sourceRowOffset : ℕ) (span : BasicBlockSpan) (rows : List TraceRow) :
    Except BasicBlockPlanError BasicBlock :=
  if hempty : rows = [] then .error .partitionInvariant
  else if rows.length ≠ span.rowCount then .error .partitionInvariant
  else do
    let routing ← blockRouting rows span sourceRowOffset
    if 2 ^ 64 ≤ sourceRowOffset + span.rowStart then .error .partitionInvariant
    else return {
      sourceRowStart := sourceRowOffset + span.rowStart
      rows
      instructionCount := span.instructionCount
      mCycleCount := span.mCycleCount
      busEventCount := span.busEventCount
      cut := span.cut
      initialState := (rows.head hempty).before
      finalState := (rows.getLast hempty).after
      routing
      nonempty := hempty }

/-- The loop over the spans. Rows behind the last span are refused. -/
def packBlocks (sourceRowOffset : ℕ) : List BasicBlockSpan → List TraceRow →
    Except BasicBlockPlanError (List BasicBlock)
  | [], [] => .ok []
  | [], _ :: _ => .error .partitionInvariant
  | span :: spans, rows => do
    let block ← packBlock sourceRowOffset span (rows.take span.rowCount)
    let blocks ← packBlocks sourceRowOffset spans (rows.drop span.rowCount)
    return block :: blocks

/-- Moves the rows of a witness into blocks. Source rows count from the offset. -/
def packWitnessBasicBlocksAt (witness : Witness) (sourceRowOffset : ℕ) :
    Except BasicBlockPlanError (List BasicBlock) := do
  let spans ← planBasicBlocks witness.intoRows
  packBlocks sourceRowOffset spans witness.intoRows

end BlockPlanner

/-- The source rows that a block names. -/
def BasicBlock.sourceRows (block : BasicBlock) : List ℕ :=
  List.range' block.sourceRowStart block.rows.length

/-- The fields of a block describe its rows. -/
structure BasicBlock.Exact (block : BasicBlock) : Prop where
  initialState : block.initialState = (block.rows.head block.nonempty).before
  finalState : block.finalState = (block.rows.getLast block.nonempty).after
  instructionCount : block.instructionCount = 0 ∨ block.instructionCount = block.rows.length
  lanes : ∀ lane < block.instructionCount, ∃ descriptor,
    block.routing.lanes[lane]? = some (.instruction descriptor) ∧
      descriptor.sourceRowIndex = block.sourceRowStart + lane

/-- The blocks hold the rows in order, name them from the offset on and describe them. -/
structure Packs (offset : ℕ) (rows : List TraceRow) (blocks : List BasicBlock) : Prop where
  concat : blocks.flatMap BasicBlock.rows = rows
  sourceRows : blocks.flatMap BasicBlock.sourceRows = List.range' offset rows.length
  exact : ∀ block ∈ blocks, block.Exact

namespace Packs

variable {offset : ℕ} {rows more : List TraceRow} {block : BasicBlock}
  {blocks others : List BasicBlock}

theorem nil : Packs offset [] [] := ⟨rfl, rfl, by simp⟩

theorem append (hfirst : Packs offset rows blocks)
    (hrest : Packs (offset + rows.length) more others) :
    Packs offset (rows ++ more) (blocks ++ others) where
  concat := by rw [List.flatMap_append, hfirst.concat, hrest.concat]
  sourceRows := by
    rw [List.flatMap_append, hfirst.sourceRows, hrest.sourceRows, List.length_append,
      List.range'_append_1]
  exact := by
    intro block hblock
    exact (List.mem_append.mp hblock).elim (hfirst.exact block) (hrest.exact block)

theorem single (hexact : block.Exact) (hstart : block.sourceRowStart = offset) :
    Packs offset block.rows [block] where
  concat := by rw [List.flatMap_singleton]
  sourceRows := by rw [List.flatMap_singleton, BasicBlock.sourceRows, hstart]
  exact := by
    intro other hother
    rw [List.mem_singleton.mp hother]
    exact hexact

/-- A block has a row, so there are at most as many blocks as rows. -/
theorem length_le (h : Packs offset rows blocks) : blocks.length ≤ rows.length := by
  rw [← h.concat]
  clear h
  induction blocks with
  | nil => exact Nat.zero_le _
  | cons block blocks ih =>
    have hrow : 0 < block.rows.length := List.length_pos_iff.mpr block.nonempty
    rw [List.flatMap_cons, List.length_append, List.length_cons]
    omega

/-- The rows join, so the blocks do. -/
theorem joined (h : Packs offset rows blocks) (hrows : Contiguous rows) :
    blocks.IsChain fun block next => block.finalState = next.initialState := by
  obtain ⟨hconcat, -, hexact⟩ := h
  subst hconcat
  induction blocks with
  | nil => exact List.isChain_nil
  | cons block blocks ih =>
    rw [List.flatMap_cons, Contiguous, List.isChain_append] at hrows
    obtain ⟨-, hrest, hjoin⟩ := hrows
    rw [List.forall_mem_cons] at hexact
    cases blocks with
    | nil => exact List.isChain_singleton _
    | cons next blocks =>
      refine List.isChain_cons_cons.mpr ⟨?_, ih hexact.2 hrest⟩
      rw [hexact.1.finalState, (hexact.2 next List.mem_cons_self).initialState]
      refine hjoin _ (List.getLast_mem_getLast? block.nonempty) _ ?_
      rw [List.flatMap_cons, List.head?_append_of_ne_nil _ next.nonempty]
      exact List.head_mem_head? next.nonempty

end Packs

namespace BlockPlanner

variable {offset firstRow laneIndex mCycles busEvents : ℕ} {rows : List TraceRow}
  {span : BasicBlockSpan} {block : BasicBlock} {blocks : List BasicBlock}

theorem lt_of_fromIndex {lane : BasicBlockLaneIndex}
    (h : BasicBlockLaneIndex.fromIndex laneIndex = some lane) :
    laneIndex < basicBlockInstructionBound := by
  unfold BasicBlockLaneIndex.fromIndex at h
  split at h
  · decide
  · decide
  · decide
  · decide
  · cases h

/-- One lane is entered with its source row. -/
theorem routeLane_eq_ok {sourceRowIndex : ℕ} {resources : ℕ × ℕ} {routing next : BasicBlockRouting}
    (h : routeLane sourceRowIndex laneIndex mCycles busEvents resources routing = .ok next) :
    laneIndex < basicBlockInstructionBound ∧ ∃ descriptor,
      next.lanes = routing.lanes.set laneIndex (.instruction descriptor) ∧
        descriptor.sourceRowIndex = sourceRowIndex := by
  unfold routeLane at h
  split at h
  · cases h
  · rename_i lane hlane
    obtain ⟨mCycleOwners, -, h⟩ := Except.of_bind_eq_ok h
    obtain ⟨busEventOwners, -, h⟩ := Except.of_bind_eq_ok h
    cases h
    exact ⟨lt_of_fromIndex hlane, _, rfl, rfl⟩

/-- The loop over the lanes enters one lane for every row and keeps those before it. -/
theorem routeLanes_eq_ok {routing next : BasicBlockRouting} {totals : ℕ × ℕ}
    (hlanes : routing.lanes.length = basicBlockInstructionBound)
    (h : routeLanes firstRow laneIndex mCycles busEvents routing rows = .ok (next, totals)) :
    (∀ lane < laneIndex, next.lanes[lane]? = routing.lanes[lane]?) ∧
      ∀ lane < rows.length, ∃ descriptor,
        next.lanes[laneIndex + lane]? = some (.instruction descriptor) ∧
          descriptor.sourceRowIndex = firstRow + (laneIndex + lane) := by
  induction rows generalizing laneIndex mCycles busEvents routing with
  | nil =>
    cases h
    exact ⟨fun _ _ => rfl, nofun⟩
  | cons row rows ih =>
    unfold routeLanes at h
    split_ifs at h
    obtain ⟨resources, -, h⟩ := Except.of_bind_eq_ok h
    obtain ⟨routed, hrouted, h⟩ := Except.of_bind_eq_ok h
    obtain ⟨hbound, descriptor, hset, hindex⟩ := routeLane_eq_ok hrouted
    have hlanes' : routed.lanes.length = basicBlockInstructionBound := by
      rw [hset, List.length_set, hlanes]
    obtain ⟨hkept, hentered⟩ := ih hlanes' h
    constructor
    · intro lane hlane
      rw [hkept lane (Nat.lt_succ_of_lt hlane), hset, List.getElem?_set_ne (Nat.ne_of_gt hlane)]
    · intro lane hlane
      cases lane with
      | zero =>
        refine ⟨descriptor, ?_, hindex⟩
        rw [Nat.add_zero, hkept laneIndex (Nat.lt_succ_self _), hset,
          List.getElem?_set_self (by rw [hlanes]; exact hbound)]
      | succ lane =>
        obtain ⟨other, hother, hsource⟩ := hentered lane (Nat.lt_of_succ_lt_succ hlane)
        rw [Nat.add_right_comm] at hother hsource
        exact ⟨other, hother, hsource⟩

/-- A routing has a lane for every instruction. -/
theorem blockRouting_eq_ok {routing : BasicBlockRouting}
    (h : blockRouting rows span offset = .ok routing) :
    (span.instructionCount = 0 ∨ span.instructionCount = rows.length) ∧
      ∀ lane < span.instructionCount, ∃ descriptor,
        routing.lanes[lane]? = some (.instruction descriptor) ∧
          descriptor.sourceRowIndex = offset + span.rowStart + lane := by
  unfold blockRouting at h
  split_ifs at h with hnone hcount
  · rw [hnone]
    exact ⟨.inl rfl, nofun⟩
  · obtain ⟨⟨routed, totals⟩, hrouted, h⟩ := Except.of_bind_eq_ok h
    dsimp only at h
    split_ifs at h
    cases h
    have hrows : rows.length = span.instructionCount :=
      not_not.mp fun hne => hcount (.inl hne)
    rw [← hrows]
    refine ⟨.inr rfl, ?_⟩
    have hentered := (routeLanes_eq_ok rfl hrouted).2
    simpa only [Nat.zero_add] using hentered

/-- A packed block holds the rows of its span. -/
theorem packBlock_eq_ok (h : packBlock offset span rows = .ok block) :
    block.rows = rows ∧ block.sourceRowStart = offset + span.rowStart ∧ block.Exact := by
  unfold packBlock at h
  split_ifs at h with hempty hlength hindex
  · obtain ⟨routing, -, h⟩ := Except.of_bind_eq_ok h
    cases h
  · obtain ⟨routing, hrouting, h⟩ := Except.of_bind_eq_ok h
    cases h
    obtain ⟨hcount, hlanes⟩ := blockRouting_eq_ok hrouting
    exact ⟨rfl, rfl, rfl, rfl, hcount, hlanes⟩

/-- Packing along a plan. -/
theorem packs_of_planLoop {room index : ℕ} {spans : List BasicBlockSpan}
    (hplan : planLoop room index rows = .ok spans)
    (hpack : packBlocks offset spans rows = .ok blocks) : Packs (offset + index) rows blocks := by
  induction room generalizing index rows spans blocks with
  | zero =>
    cases rows <;> cases hplan
    cases hpack
    exact .nil
  | succ room ih =>
    cases rows with
    | nil =>
      cases hplan
      cases hpack
      exact .nil
    | cons row rest =>
      obtain ⟨span, hspan, hplan⟩ := Except.of_bind_eq_ok hplan
      obtain ⟨more, hmore, hplan⟩ := Except.of_bind_eq_ok hplan
      cases hplan
      obtain ⟨block, hblock, hpack⟩ := Except.of_bind_eq_ok hpack
      obtain ⟨others, hothers, hpack⟩ := Except.of_bind_eq_ok hpack
      cases hpack
      obtain ⟨taken, left, hrows, hspans⟩ := spans_of_nextSpan hspan
      obtain ⟨hstart, hcount⟩ := hspans.rowStart_eq
      rw [hrows, hcount, List.drop_left] at hmore hothers
      rw [hrows, hcount, List.take_left] at hblock
      obtain ⟨hblockRows, hsource, hexact⟩ := packBlock_eq_ok hblock
      have hrest := ih hmore hothers
      rw [hrows]
      subst hblockRows
      refine (Packs.single hexact ?_).append (?_ : Packs _ left others)
      · rw [hsource, hstart]
      · rwa [Nat.add_assoc]

/-- The blocks of a witness hold its rows. -/
theorem packs_of_packWitness {witness : Witness}
    (h : packWitnessBasicBlocksAt witness offset = .ok blocks) :
    Packs offset witness.intoRows blocks := by
  obtain ⟨spans, hplan, hpack⟩ := Except.of_bind_eq_ok h
  exact packs_of_planLoop (Except.check_eq_ok.mp hplan).2 hpack

end BlockPlanner

end Zksm83
