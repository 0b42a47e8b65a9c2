import Zksm83.Trace.Blocks

/-!
# Instructions from mutable memory stand alone

The planner cuts behind a row that fetched an instruction byte from mutable memory. It never packs
such a row behind another one either: the row before lies in ROM and falls through to address 8000
at most, so that the fetch behind it hits video memory, which stands alone.
-/

namespace Zksm83

open Rejecting BlockPlanner

/-- The row records a step that the relation accepts. -/
def TraceRow.IsAccepted (authentication : BusAuthentication MerklePath AuthenticationRoots)
    (row : TraceRow) : Prop :=
  ∃ input, applyAuthenticated authentication row.before input = .ok (row.after, row.effects)

/-- No instruction byte of the row comes from mutable memory. -/
def TraceRow.InRom (row : TraceRow) : Prop :=
  ∀ event ∈ row.effects.busEvents, event.isMutableFetch = false

/-- The rows join each other. -/
def Contiguous (rows : List TraceRow) : Prop :=
  rows.IsChain (fun before after => before.after = after.before)

theorem isChain_of_discontinuity {α : Type} {joins : α → α → Bool} {index : ℕ} {list : List α}
    (h : discontinuity joins index list = none) :
    list.IsChain (fun before after => joins before after = true) := by
  induction list generalizing index with
  | nil => exact .nil
  | cons first rest ih =>
    cases rest with
    | nil => exact .singleton first
    | cons second rest =>
      unfold discontinuity at h
      split_ifs at h with hjoins
      exact .cons_cons hjoins (ih h)

namespace BlockPlanner

theorem contiguous_of_ensureContiguous {rows : List TraceRow}
    (h : ensureContiguous rows = .ok ()) : Contiguous rows := by
  unfold ensureContiguous at h
  split at h
  · cases h
  · rename_i hnone
    refine (isChain_of_discontinuity hnone).imp ?_
    intro before after hjoins
    exact of_decide_eq_true hjoins

/-- A row without a cut behind it fetched its bytes from ROM and does not set the program
counter. -/
theorem of_semanticCut_eq_none {row : TraceRow} (h : semanticCut row = none) :
    row.InRom ∧ IsaTable.pcRule row.effects.instruction.operation = 0 := by
  simp only [semanticCut, Option.or_eq_none_iff, List.findSome?_eq_none_iff] at h
  obtain ⟨hoperation, -, hevents, -⟩ := h
  refine ⟨?_, ?_⟩
  · intro event hevent
    have hcut := hevents event hevent
    cases event <;> first | rfl | cases hcut
  · cases hop : row.effects.instruction.operation <;> rw [hop] at hoperation <;>
      first | rfl | cases hoperation

section Accepted

variable {authentication : BusAuthentication MerklePath AuthenticationRoots} {row : TraceRow}
  (hrow : row.IsAccepted authentication) (hkind : row.effects.kind = .instruction)

include hrow

theorem accepted_of_isAccepted :
    Step.Accepted authentication (row.before.vm, row.before.roots) row.effects
      (row.after.vm, row.after.roots) := by
  obtain ⟨input, happly⟩ := hrow
  obtain ⟨⟨⟨vm, roots⟩, effects⟩, hstep, hresult⟩ := Except.bind_eq_ok.mp happly
  obtain ⟨hafter, heffects⟩ := Prod.mk.inj (Except.ok.inj hresult)
  rw [← hafter, ← heffects]
  exact ⟨input, hstep⟩

include hkind

/-- Without a cut behind it, an instruction falls through to the boundary at most. -/
theorem pc_le_of_semanticCut (hcut : semanticCut row = none) :
    row.after.vm.cpu.pc ≤ 0x8000 := by
  obtain ⟨hrom, hrule⟩ := of_semanticCut_eq_none hcut
  exact Step.pc_le_of_rom (accepted_of_isAccepted hrow) hkind hrom hrule

/-- Without a cut in front of it, an instruction from the boundary or before it lies in ROM. -/
theorem inRom_of_standaloneCut (hpc : row.before.vm.cpu.pc ≤ 0x8000)
    (hcut : standaloneCut row = none) : row.InRom := by
  rw [standaloneCut, List.findSome?_eq_none_iff] at hcut
  intro event hevent
  by_contra hmutable
  rw [Bool.not_eq_false] at hmutable
  obtain ⟨hlow, hhigh⟩ := Step.address_of_mutableFetch (accepted_of_isAccepted hrow) hkind hpc
    hevent hmutable
  have hsensitive : isPpuSensitive event.transcriptEvent.address = true := by
    simp only [isPpuSensitive, Bool.or_eq_true, Bool.and_eq_true, decide_eq_true_eq]
    omega
  -- The event stands alone, since it lies in video memory.
  have hnone := hcut event hevent
  cases event with
  | memoryOpcodeFetch read | memoryImmediateRead read =>
    rw [standaloneEvent, if_pos hsensitive] at hnone
    cases hnone
  | _ => cases hmutable

/-- The row behind an instruction that its block goes on from. -/
theorem next_of_backCut {taken : BlockResources} {rest : List TraceRow}
    (hcut : backCut taken row rest = none) (hjoins : Contiguous (row :: rest)) :
    ∀ next ∈ rest.head?, next.effects.kind = .instruction ∧ next.before.vm.cpu.pc ≤ 0x8000 := by
  rw [backCut.eq_def, Option.or_eq_none_iff] at hcut
  obtain ⟨hsemantic, hnext⟩ := hcut
  have hpc := pc_le_of_semanticCut hrow hkind hsemantic
  intro next hmem
  cases rest with
  | nil => cases hmem
  | cons first rest =>
    cases hmem
    split_ifs at hnext with hbound
    dsimp only at hnext
    split_ifs at hnext with hfirst
    have hjoin : row.after = next.before := (List.isChain_cons_cons.mp hjoins).1
    rw [← hjoin]
    exact ⟨not_not.mp hfirst, hpc⟩

end Accepted

section Blocks

variable {authentication : BusAuthentication MerklePath AuthenticationRoots} {index : ℕ}
  {taken last : BlockResources} {cut : BasicBlockCut}

/-- Behind a row that its block goes on from, the block takes rows from ROM. -/
theorem Grows.inRom {block left : List TraceRow} (h : Grows index taken block left last cut)
    (haccepted : ∀ row ∈ block, row.IsAccepted authentication)
    (hjoins : Contiguous (block ++ left)) (htaken : taken.rowCount ≠ 0)
    (hhead : ∀ row ∈ (block ++ left).head?,
      row.effects.kind = .instruction ∧ row.before.vm.cpu.pc ≤ 0x8000) :
    ∀ row ∈ block, row.InRom := by
  induction h with
  | front => exact fun row hrow => absurd hrow (List.not_mem_nil)
  | back htake hcut =>
    intro row hrow
    obtain rfl := List.mem_singleton.mp hrow
    obtain ⟨hkind, hpc⟩ := hhead _ rfl
    obtain ⟨hfront, -⟩ := takeRow_eq_inl htake
    rw [frontCut, if_neg htaken] at hfront
    exact inRom_of_standaloneCut (haccepted _ hrow) hkind hpc hfront
  | @more index taken grown last first block left cut htake hcut hgrows ih =>
    obtain ⟨hkind, hpc⟩ := hhead first rfl
    have hfirst := haccepted first (List.mem_cons_self ..)
    obtain ⟨hfront, _, _, rfl, -⟩ := takeRow_eq_inl htake
    rw [frontCut, if_neg htaken] at hfront
    intro row hrow
    rcases List.mem_cons.mp hrow with rfl | hlater
    · exact inRom_of_standaloneCut hfirst hkind hpc hfront
    · refine ih (fun other hother => haccepted other (List.mem_cons_of_mem _ hother)) ?_
        (Nat.succ_ne_zero _) (next_of_backCut hfirst hkind hcut hjoins) row hlater
      exact hjoins.tail

/-- A block with a second row lies in ROM. -/
theorem Spans.inRom {block left : List TraceRow} {span : BasicBlockSpan}
    (h : Spans index block left span) (haccepted : ∀ row ∈ block, row.IsAccepted authentication)
    (hjoins : Contiguous (block ++ left)) (hsecond : block.length ≠ 1) :
    ∀ row ∈ block, row.InRom := by
  cases h with
  | machine => exact absurd rfl hsecond
  | @instructions first block left last cut hkind hgrows =>
    have hfirst := haccepted first (List.mem_cons_self ..)
    cases hgrows with
    | back => exact absurd rfl hsecond
    | more htake hcut hgrows =>
      have hnext := next_of_backCut hfirst hkind hcut hjoins
      obtain ⟨-, _, _, rfl, -⟩ := takeRow_eq_inl htake
      rw [backCut.eq_def, Option.or_eq_none_iff] at hcut
      intro row hrow
      rcases List.mem_cons.mp hrow with rfl | hlater
      · exact (of_semanticCut_eq_none hcut.1).1
      · exact hgrows.inRom (fun other hother => haccepted other (List.mem_cons_of_mem _ hother))
          hjoins.tail (Nat.succ_ne_zero _) hnext row hlater

end Blocks

/-- A planned block that fetched an instruction byte from mutable memory has one row. -/
theorem mutableFetch_alone (authentication : BusAuthentication MerklePath AuthenticationRoots)
    (rows : List TraceRow) (haccepted : ∀ row ∈ rows, row.IsAccepted authentication)
    (spans : List BasicBlockSpan) (hplan : planBasicBlocks rows = .ok spans)
    (span : BasicBlockSpan) (hspan : span ∈ spans)
    (hfetch : ∃ row ∈ span.rowsOf rows, ∃ event ∈ row.effects.busEvents,
      event.isMutableFetch = true) :
    (span.rowsOf rows).length = 1 := by
  obtain ⟨⟨⟩, hcontiguous, hloop⟩ := Except.bind_eq_ok.mp hplan
  have hjoins := contiguous_of_ensureContiguous hcontiguous
  obtain ⟨skipped, block, left, rfl, hstart, hblock⟩ := spans_of_mem hloop hspan
  have hrows : span.rowsOf (skipped ++ (block ++ left)) = block := by
    rw [BasicBlockSpan.rowsOf, hstart, Nat.zero_add, List.drop_left, hblock.rowStart_eq.2,
      List.take_left]
  rw [hrows] at hfetch ⊢
  by_contra hsecond
  obtain ⟨row, hrow, event, hevent, hmutable⟩ := hfetch
  have hrom := hblock.inRom (fun other hother => haccepted other
    (List.mem_append_right _ (List.mem_append_left _ hother))) (List.IsChain.right_of_append hjoins)
    hsecond row hrow event hevent
  rw [hmutable] at hrom
  cases hrom

/-- The machine before a NOP in work RAM. -/
def ramNopState : AuthenticatedState where
  vm := { VmState.dmgPostBootMbc3Initial .dmgPostBootMbc3V1 with
    cpu := { CpuState.dmgPostBootInitial with pc := 0xc000 } }
  roots := .initial (fun _ => .zero) .zero .zero

/-- The span of the NOP in work RAM. -/
def ramNopSpan : BasicBlockSpan := ⟨0, 1, 1, 1, 1, .mutableExecution⟩

/-- The opcode of the NOP in work RAM. -/
def ramNopInput : List (BusWitness MerklePath) :=
  [.memoryRead ⟨0xc000, 0xc000, 0, Vector.replicate 20 .zero⟩]

theorem mutableFetch_alone_ramNop :
    ∃ row : TraceRow, row.before = ramNopState ∧ planBasicBlocks [row] = .ok [ramNopSpan] ∧
      (∃ event ∈ row.effects.busEvents, event.isMutableFetch = true) ∧
      (ramNopSpan.rowsOf [row]).length = 1 := by
  have hchecked : (applyAuthenticated (.lookupRoots (fun _ => .zero)) ramNopState
      ramNopInput).toOption.any (fun result =>
        decide (planBasicBlocks [⟨ramNopState, result.1, result.2⟩] = .ok [ramNopSpan]) &&
          result.2.busEvents.any BusEvent.isMutableFetch) = true := by
    decide +kernel
  cases happly : applyAuthenticated (.lookupRoots (fun _ => .zero)) ramNopState ramNopInput with
  | error error =>
    rw [happly] at hchecked
    cases hchecked
  | ok result =>
    rw [happly] at hchecked
    obtain ⟨hplan, hfetch⟩ := Bool.and_eq_true _ _ ▸ hchecked
    have hplan := of_decide_eq_true hplan
    obtain ⟨event, hevent, hmutable⟩ := List.any_eq_true.mp hfetch
    have hrow : (⟨ramNopState, result.1, result.2⟩ : TraceRow).IsAccepted
        (.lookupRoots (fun _ => .zero)) := ⟨ramNopInput, happly⟩
    refine ⟨⟨ramNopState, result.1, result.2⟩, rfl, hplan, ⟨event, hevent, hmutable⟩, ?_⟩
    refine mutableFetch_alone (.lookupRoots (fun _ => .zero)) _ ?_ _ hplan _
      (List.mem_singleton.mpr rfl) ⟨_, List.mem_singleton.mpr rfl, event, hevent, hmutable⟩
    intro row hmem
    rw [List.mem_singleton.mp hmem]
    exact hrow

end BlockPlanner

end Zksm83
