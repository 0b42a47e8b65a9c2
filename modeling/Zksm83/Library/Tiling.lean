import Mathlib

/-!
# Slots that tile consecutive owners

A shared resource has slots numbered from zero, and some of them have an owner. `IsTiling` says
that owned slots form a prefix and that ownership passes from an owner to the same or the next
owner. Then the slots of one owner are an interval: the first slot of the owner, the slot after it,
and so on.
-/

namespace Tiling

/-- Owned slots form a prefix, have one owner, and pass from an owner to itself or the next. -/
structure IsTiling (slots : ℕ) (owns : ℕ → ℕ → Prop) : Prop where
  unique : ∀ slot < slots, ∀ left right, owns slot left → owns slot right → left = right
  closed : ∀ slot, slot + 1 < slots → ∀ next, owns (slot + 1) next → ∃ owner, owns slot owner
  step : ∀ slot, slot + 1 < slots → ∀ owner next, owns slot owner → owns (slot + 1) next →
    next = owner ∨ next = owner + 1

variable {slots : ℕ} {owns : ℕ → ℕ → Prop}

/-- Earlier slots have earlier owners. -/
theorem IsTiling.owner_le (h : IsTiling slots owns) {first last owner : ℕ} (hle : first ≤ last)
    (hlast : last < slots) (howns : owns last owner) : ∃ earlier ≤ owner, owns first earlier := by
  induction last, hle using Nat.le_induction generalizing owner with
  | base => exact ⟨owner, le_rfl, howns⟩
  | succ last hle ih =>
    obtain ⟨before, hbefore⟩ := h.closed last hlast owner howns
    have hstep := h.step last hlast before owner hbefore howns
    obtain ⟨earlier, hearlier, hfirst⟩ := ih (by omega) hbefore
    exact ⟨earlier, by omega, hfirst⟩

/-- A slot between two slots of an owner has that owner. -/
theorem IsTiling.convex (h : IsTiling slots owns) {first middle last owner : ℕ}
    (hfirst : owns first owner) (hlast : owns last owner) (hle : first ≤ middle)
    (hle' : middle ≤ last) (hbound : last < slots) : owns middle owner := by
  obtain ⟨between, hbetween, hmiddle⟩ := h.owner_le hle' hbound hlast
  obtain ⟨earlier, hearlier, hsame⟩ := h.owner_le hle (by omega) hmiddle
  have heq := h.unique first (by omega) _ _ hfirst hsame
  rwa [show owner = between by omega]

section Interval

variable {p : ℕ → Bool}

/-- The members of a set below a bound, where the set has no gaps, form an interval. -/
theorem filter_range_eq_range' {bound : ℕ}
    (hconvex : ∀ first middle last, p first → p last → first ≤ middle → middle ≤ last →
      last < bound → p middle) :
    ∃ start count, start + count ≤ bound ∧
      (List.range bound).filter p = List.range' start count := by
  induction bound with
  | zero => exact ⟨0, 0, le_rfl, rfl⟩
  | succ bound ih =>
    obtain ⟨start, count, hle, hfound⟩ := ih (fun first middle last h₁ h₂ h₃ h₄ h₅ =>
      hconvex first middle last h₁ h₂ h₃ h₄ (by omega))
    rw [List.range_succ, List.filter_append, hfound]
    by_cases hbound : p bound
    case neg => exact ⟨start, count, by omega, by simp [hbound]⟩
    rw [List.filter_cons_of_pos hbound, List.filter_nil]
    rcases Nat.eq_zero_or_pos count with rfl | hcount
    · exact ⟨bound, 1, le_rfl, by simp⟩
    -- The interval so far ends right before the new member.
    have hstart : start ∈ (List.range bound).filter p := by
      rw [hfound, List.mem_range'_1]
      omega
    have hpstart : p start := (List.mem_filter.mp hstart).2
    have hlast : bound - 1 ∈ (List.range bound).filter p := by
      refine List.mem_filter.mpr ⟨List.mem_range.mpr (by omega), ?_⟩
      exact hconvex start (bound - 1) bound hpstart hbound (by omega) (by omega) (by omega)
    rw [hfound, List.mem_range'_1] at hlast
    have hend : bound = start + count := by omega
    exact ⟨start, count + 1, by omega, by rw [hend, List.range'_1_concat]⟩

end Interval

/-- The slots of an owner, in order. -/
theorem IsTiling.filter_eq_range' (h : IsTiling slots owns) (owner : ℕ)
    [DecidablePred (fun slot => owns slot owner)] :
    ∃ start count, start + count ≤ slots ∧
      (List.range slots).filter (fun slot => decide (owns slot owner)) =
        List.range' start count := by
  refine filter_range_eq_range' ?_
  intro first middle last hfirst hlast hle hle' hbound
  rw [decide_eq_true_iff] at hfirst hlast ⊢
  exact h.convex hfirst hlast hle hle' hbound

/-- The owners below `active` divide an initial stretch of the slots into intervals, one after the
other, and nobody else owns a slot. -/
structure IsDivision (slots active : ℕ) (owns : ℕ → ℕ → Prop) : Prop where
  unique : ∀ slot < slots, ∀ left right, owns slot left → owns slot right → left = right
  owned : ∀ first last, first ≤ last → last < slots → (∃ owner, owns last owner) →
    ∃ owner, owns first owner
  interval : ∀ owner < active, ∃ start count, 0 < count ∧ start + count ≤ slots ∧
    ∀ slot < slots, owns slot owner ↔ start ≤ slot ∧ slot < start + count
  ordered : ∀ first < slots, ∀ last < slots, ∀ left right, left < right → owns first left →
    owns last right → first < last
  idle : ∀ slot < slots, ∀ owner, owns slot owner → owner < active

section Division

variable {active : ℕ}

/-- In a division, ownership starts with the owner zero and skips nobody. -/
theorem IsDivision.isTiling (h : IsDivision slots active owns) : IsTiling slots owns where
  unique := h.unique
  closed := by
    intro slot hslot next hnext
    exact h.owned slot (slot + 1) (by omega) hslot ⟨next, hnext⟩
  step := by
    intro slot hslot owner next howner hnext
    rcases Nat.lt_trichotomy next owner with hback | hsame | hforward
    · have horder := h.ordered (slot + 1) hslot slot (by omega) next owner hback hnext howner
      omega
    · exact Or.inl hsame
    -- An owner between the two would own a slot between two neighbours.
    refine Or.inr ?_
    by_contra hskip
    have hactive := h.idle (slot + 1) hslot next hnext
    obtain ⟨start, count, hcount, hle, hslots⟩ := h.interval (owner + 1) (by omega)
    have hstart := (hslots start (by omega)).mpr ⟨le_rfl, by omega⟩
    have hafter := h.ordered slot (by omega) start (by omega) owner (owner + 1) (by omega) howner
      hstart
    have hbefore := h.ordered start (by omega) (slot + 1) hslot (owner + 1) next (by omega) hstart
      hnext
    omega

theorem IsDivision.owns_zero (h : IsDivision slots active owns) (hactive : 0 < active) :
    owns 0 0 := by
  obtain ⟨start, count, hcount, hle, hslots⟩ := h.interval 0 hactive
  have hstart := (hslots start (by omega)).mpr ⟨le_rfl, by omega⟩
  obtain ⟨owner, howner⟩ := h.owned 0 start (by omega) (by omega) ⟨0, hstart⟩
  rcases Nat.eq_zero_or_pos owner with rfl | hpos
  · exact howner
  have horder := h.ordered start (by omega) 0 (by omega) 0 owner hpos hstart howner
  omega

/-- Earlier slots of a tiling belong to earlier owners. -/
theorem IsTiling.lt_of_owner_lt (h : IsTiling slots owns) {first last left right : ℕ}
    (hfirst : first < slots) (hlt : left < right) (hleft : owns first left)
    (hright : owns last right) : first < last := by
  by_contra hle
  obtain ⟨earlier, hearlier, howns⟩ := h.owner_le (Nat.le_of_not_lt hle) hfirst hleft
  have hsame := h.unique last (by omega) _ _ howns hright
  omega

/-- The slots of an owner of a tiling are an interval. -/
theorem IsTiling.interval (h : IsTiling slots owns) {slot owner : ℕ} (hslot : slot < slots)
    (howner : owns slot owner) : ∃ start count, 0 < count ∧ start + count ≤ slots ∧
      ∀ slot < slots, owns slot owner ↔ start ≤ slot ∧ slot < start + count := by
  classical
  obtain ⟨start, count, hle, hfilter⟩ := h.filter_eq_range' owner
  have hmem : ∀ slot < slots, owns slot owner ↔ start ≤ slot ∧ slot < start + count := by
    intro slot hslot
    have hmem : slot ∈ (List.range slots).filter (fun slot => decide (owns slot owner)) ↔
        slot ∈ List.range' start count := by rw [hfilter]
    simpa only [List.mem_filter, List.mem_range, hslot, true_and, decide_eq_true_eq,
      List.mem_range'_1] using hmem
  have hpos := (hmem slot hslot).mp howner
  exact ⟨start, count, by omega, hle, hmem⟩

/-- A division is a tiling in which exactly the owners below `active` own slots. -/
theorem isDivision_iff :
    IsDivision slots active owns ↔
      IsTiling slots owns ∧ (∀ owner < active, ∃ slot < slots, owns slot owner) ∧
        ∀ slot < slots, ∀ owner, owns slot owner → owner < active := by
  constructor
  · intro h
    refine ⟨h.isTiling, ?_, h.idle⟩
    intro owner howner
    obtain ⟨start, count, hcount, hle, hslots⟩ := h.interval owner howner
    exact ⟨start, by omega, (hslots start (by omega)).mpr ⟨le_rfl, by omega⟩⟩
  · rintro ⟨h, hused, hidle⟩
    refine ⟨h.unique, ?_, ?_, ?_, hidle⟩
    · rintro first last hle hlast ⟨owner, howner⟩
      obtain ⟨earlier, -, hearlier⟩ := h.owner_le hle hlast howner
      exact ⟨earlier, hearlier⟩
    · intro owner howner
      obtain ⟨slot, hslot, howns⟩ := hused owner howner
      exact h.interval hslot howns
    · intro first hfirst last hlast left right hlt hleft hright
      exact h.lt_of_owner_lt hfirst hlt hleft hright

end Division

end Tiling
