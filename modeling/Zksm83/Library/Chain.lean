import Mathlib.Data.Multiset.Count
import Mathlib.Data.Finset.Card
import Mathlib.Algebra.BigOperators.Group.Finset.Basic

/-!
# Chains from tagged multisets

A set of rows, each with an index, a value before and a value after it. If the tagged values that
the rows produce, together with a first value, are the tagged values they consume, together with a
last value, then the rows form one chain from the first value to the last: the indices are
consecutive, and there is neither a second row of an index nor a detached cycle. Read
`exists_chain` first.
-/

namespace TaggedChain

variable {ρ σ : Type*}

/-- The rows in an order that makes them a chain: the row with number `i` has index `i`, and every
row starts where the row before it ends. -/
structure IsChain (rows : Finset ρ) (index : ρ → ℕ) (before after : ρ → σ) (first last : σ)
    (count : ℕ) (order : ℕ → ρ) : Prop where
  mem : ∀ position < count, order position ∈ rows
  covers : ∀ row ∈ rows, ∃ position < count, order position = row
  index : ∀ position < count, index (order position) = position
  first : before (order 0) = first
  step : ∀ position, position + 1 < count → after (order position) = before (order (position + 1))
  last : after (order (count - 1)) = last

/-- The tagged values that the rows produce, and the first value. -/
def produced (rows : Finset ρ) (index : ρ → ℕ) (after : ρ → σ) (first : σ) : Multiset (ℕ × σ) :=
  rows.val.map (fun row => (index row + 1, after row)) + {(0, first)}

/-- The tagged values that the rows consume, and the last value. -/
def consumed (rows : Finset ρ) (index : ρ → ℕ) (before : ρ → σ) (count : ℕ) (last : σ) :
    Multiset (ℕ × σ) :=
  rows.val.map (fun row => (index row, before row)) + {(count, last)}

/-- The produced values and the consumed values have one sum. -/
theorem sum_eq {μ : Type*} [AddCommMonoid μ] {rows : Finset ρ} {index : ρ → ℕ}
    {before after : ρ → σ} {first last : σ} {count : ℕ}
    (h : produced rows index after first = consumed rows index before count last)
    (f : ℕ × σ → μ) :
    ∑ row ∈ rows, f (index row + 1, after row) + f (0, first) =
      ∑ row ∈ rows, f (index row, before row) + f (count, last) := by
  have hsum := congrArg (fun values => (Multiset.map f values).sum) h
  simp only [produced, consumed, Multiset.map_add, Multiset.map_map, Function.comp_def,
    Multiset.map_singleton, Multiset.sum_add, Multiset.sum_singleton] at hsum
  exact hsum

section Count

variable {rows : Finset ρ} {index : ρ → ℕ} {before after : ρ → σ} {first last : σ} {count : ℕ}
  (h : produced rows index after first = consumed rows index before count last)

include h

/-- The tags alone. -/
theorem tags_eq : rows.val.map (fun row => index row + 1) + {0} =
    rows.val.map index + {count} := by
  have htags := congrArg (Multiset.map Prod.fst) h
  simpa only [produced, consumed, Multiset.map_add, Multiset.map_map, Function.comp_def,
    Multiset.map_singleton] using htags

omit h in
theorem count_map_index (tag : ℕ) :
    (rows.val.map index).count tag = (rows.filter (fun row => index row = tag)).card := by
  rw [Multiset.count_map, Finset.card_def, Finset.filter_val]
  simp only [eq_comm]

omit h in
theorem count_map_succ (tag : ℕ) :
    (rows.val.map (fun row => index row + 1)).count (tag + 1) =
      (rows.filter (fun row => index row = tag)).card := by
  rw [Multiset.count_map, Finset.card_def, Finset.filter_val]
  simp only [Nat.add_right_cancel_iff, eq_comm]

omit h in
theorem count_map_succ_zero : (rows.val.map (fun row => index row + 1)).count 0 = 0 := by
  rw [Multiset.count_eq_zero, Multiset.mem_map]
  rintro ⟨row, -, hzero⟩
  omega

/-- One row has the first index. -/
theorem card_zero (hcount : 0 < count) :
    (rows.filter (fun row => index row = 0)).card = 1 := by
  have hzero := congrArg (Multiset.count 0) (tags_eq h)
  rw [Multiset.count_add, Multiset.count_add, count_map_succ_zero, count_map_index,
    Multiset.count_singleton, Multiset.count_singleton, if_pos rfl, if_neg (by omega)] at hzero
  omega

/-- As many rows have an index as the next one, but at the end of the chain. -/
theorem card_succ (tag : ℕ) :
    (rows.filter (fun row => index row = tag)).card =
      (rows.filter (fun row => index row = tag + 1)).card + if tag + 1 = count then 1 else 0 := by
  have htag := congrArg (Multiset.count (tag + 1)) (tags_eq h)
  rw [Multiset.count_add, Multiset.count_add, count_map_succ, count_map_index,
    Multiset.count_singleton, Multiset.count_singleton, if_neg (by omega)] at htag
  omega

/-- One row has each index below the count, none has another. -/
theorem card_index (hcount : 0 < count) (tag : ℕ) :
    (rows.filter (fun row => index row = tag)).card = if tag < count then 1 else 0 := by
  induction tag with
  | zero => rw [card_zero h hcount, if_pos hcount]
  | succ tag ih =>
    have hstep := card_succ h tag
    rw [ih] at hstep
    split_ifs at hstep ⊢ <;> omega

theorem index_lt (hcount : 0 < count) {row : ρ} (hrow : row ∈ rows) : index row < count := by
  by_contra hge
  have hnone := card_index h hcount (index row)
  rw [if_neg hge, Finset.card_eq_zero] at hnone
  have hmem : row ∈ rows.filter (fun other => index other = index row) :=
    Finset.mem_filter.mpr ⟨hrow, rfl⟩
  rw [hnone] at hmem
  exact absurd hmem (Finset.notMem_empty row)

theorem exists_row (hcount : 0 < count) {position : ℕ} (hposition : position < count) :
    ∃ row ∈ rows, index row = position := by
  have hone := card_index h hcount position
  rw [if_pos hposition] at hone
  obtain ⟨row, hrow⟩ := Finset.card_pos.mp (by omega :
    0 < (rows.filter (fun row => index row = position)).card)
  exact ⟨row, (Finset.mem_filter.mp hrow).1, (Finset.mem_filter.mp hrow).2⟩

theorem eq_of_index_eq (hcount : 0 < count) {left right : ρ} (hleft : left ∈ rows)
    (hright : right ∈ rows) (heq : index left = index right) : left = right := by
  have hone := card_index h hcount (index right)
  rw [if_pos (index_lt h hcount hright)] at hone
  exact Finset.card_le_one.mp hone.le left (Finset.mem_filter.mpr ⟨hleft, heq⟩) right
    (Finset.mem_filter.mpr ⟨hright, rfl⟩)

/-- A consumed value that is not the last one is consumed by a row. -/
theorem exists_before {tag : ℕ} {value : σ} (hne : tag ≠ count)
    (hmem : (tag, value) ∈ produced rows index after first) :
    ∃ row ∈ rows, index row = tag ∧ before row = value := by
  rw [h, consumed, Multiset.mem_add, Multiset.mem_map, Multiset.mem_singleton] at hmem
  rcases hmem with ⟨row, hrow, heq⟩ | heq
  · rw [Prod.mk.injEq] at heq
    exact ⟨row, hrow, heq.1, heq.2⟩
  · rw [Prod.mk.injEq] at heq
    exact absurd heq.1 hne

omit h in
theorem mem_produced (index : ρ → ℕ) (after : ρ → σ) (first : σ) {row : ρ} (hrow : row ∈ rows) :
    (index row + 1, after row) ∈ produced rows index after first :=
  Multiset.mem_add.mpr (Or.inl (Multiset.mem_map.mpr ⟨row, hrow, rfl⟩))

/-- The rows form a chain. -/
theorem exists_chain (hcount : 0 < count) :
    ∃ order, IsChain rows index before after first last count order := by
  classical
  obtain ⟨start, hstart, -⟩ := exists_row h hcount hcount
  have hchoose : ∀ position, ∃ row, position < count → row ∈ rows ∧ index row = position := by
    intro position
    by_cases hposition : position < count
    · obtain ⟨row, hrow, hindex⟩ := exists_row h hcount hposition
      exact ⟨row, fun _ => ⟨hrow, hindex⟩⟩
    · exact ⟨start, fun hlt => absurd hlt hposition⟩
  choose order horder using hchoose
  refine ⟨order, fun position hlt => (horder position hlt).1, ?_,
    fun position hlt => (horder position hlt).2, ?_, ?_, ?_⟩
  · intro row hrow
    have hlt := index_lt h hcount hrow
    exact ⟨index row, hlt, eq_of_index_eq h hcount (horder _ hlt).1 hrow (horder _ hlt).2⟩
  · have hmem : (0, first) ∈ produced rows index after first :=
      Multiset.mem_add.mpr (Or.inr (Multiset.mem_singleton_self _))
    obtain ⟨row, hrow, hindex, hbefore⟩ := exists_before h (by omega) hmem
    rw [eq_of_index_eq h hcount (horder 0 hcount).1 hrow
      ((horder 0 hcount).2.trans hindex.symm), hbefore]
  · intro position hlt
    obtain ⟨hrow, hindex⟩ := horder position (by omega)
    have hmem := mem_produced index after first hrow
    rw [hindex] at hmem
    obtain ⟨next, hnext, hnextIndex, hbefore⟩ := exists_before h (by omega) hmem
    rw [eq_of_index_eq h hcount (horder (position + 1) hlt).1 hnext
      ((horder (position + 1) hlt).2.trans hnextIndex.symm), hbefore]
  · obtain ⟨hrow, hindex⟩ := horder (count - 1) (by omega)
    have hmem := mem_produced index after first hrow
    rw [hindex, Nat.sub_add_cancel hcount, h, consumed, Multiset.mem_add, Multiset.mem_map,
      Multiset.mem_singleton] at hmem
    rcases hmem with ⟨row, hconsumed, heq⟩ | heq
    · rw [Prod.mk.injEq] at heq
      exact absurd heq.1 (index_lt h hcount hconsumed).ne
    · exact (Prod.mk.injEq .. ▸ heq).2

end Count

section Sum

variable {rows : Finset ρ} {index : ρ → ℕ} {before after : ρ → σ} {first last : σ} {count : ℕ}
  {order : ℕ → ρ} (h : IsChain rows index before after first last count order)

include h

/-- The chain visits every row exactly once. -/
theorem IsChain.image_order [DecidableEq ρ] : (Finset.range count).image order = rows := by
  ext row
  rw [Finset.mem_image]
  constructor
  · rintro ⟨position, hposition, rfl⟩
    exact h.mem position (Finset.mem_range.mp hposition)
  · intro hrow
    obtain ⟨position, hposition, heq⟩ := h.covers row hrow
    exact ⟨position, Finset.mem_range.mpr hposition, heq⟩

theorem IsChain.injOn : Set.InjOn order (Finset.range count) := by
  intro left hleft right hright heq
  have hleftIndex := h.index left (Finset.mem_range.mp hleft)
  rw [heq, h.index right (Finset.mem_range.mp hright)] at hleftIndex
  exact hleftIndex.symm

/-- There are as many rows as the chain is long. -/
theorem IsChain.card : rows.card = count := by
  classical
  rw [← h.image_order, Finset.card_image_of_injOn h.injOn, Finset.card_range]

end Sum

end TaggedChain
