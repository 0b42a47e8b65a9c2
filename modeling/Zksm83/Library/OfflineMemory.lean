import Mathlib.Algebra.BigOperators.Group.Finset.Basic
import Mathlib.Data.Fintype.Defs

/-!
# Offline memory checking

A memory is accessed by events. Each event consumes the token of an address, a value and a time, and
produces a token of the same address under its own, later time. If the tokens of the initial cells
and of the events balance against those that the events consume and those of the final cells, then
the events in the order of their times are a history of the memory: each one finds the value that
the latest event before it left. Read `eq_lastWritten_of_balanced` first.
-/

namespace OfflineMemory

variable {α β : Type*}

/-- An access: the value and the time that it finds, and the value that it leaves at its own time. -/
structure Event (α β : Type*) where
  address : α
  input : β
  predecessor : ℕ
  output : β
  time : ℕ
  deriving DecidableEq

/-- An address with a value and the time of the value. -/
abbrev Token (α β : Type*) : Type _ := α × β × ℕ

def Event.consumed (event : Event α β) : Token α β :=
  (event.address, event.input, event.predecessor)

def Event.produced (event : Event α β) : Token α β := (event.address, event.output, event.time)

/-- The tokens of all cells. -/
def cells [Fintype α] (values : α → β) (times : α → ℕ) : Multiset (Token α β) :=
  Finset.univ.val.map (fun address => (address, values address, times address))

/-- The tokens of the initial cells and of the events are those that the events consume and those
of the final cells. -/
def Balanced [Fintype α] (values : α → β) (times : α → ℕ) (events : List (Event α β))
    (final : α → β) (finalTimes : α → ℕ) : Prop :=
  cells values times + (events.map Event.produced : Multiset (Token α β)) =
    (events.map Event.consumed : Multiset (Token α β)) + cells final finalTimes

variable [DecidableEq α]

/-- The value at an address after some events: what the last of them there left, and the initial
value if there is none. -/
def lastWritten (initial : α → β) (events : List (Event α β)) (address : α) : β :=
  match events.reverse.find? (fun event => event.address = address) with
  | some event => event.output
  | none => initial address

/-- The values after an event. -/
def Event.write (event : Event α β) (values : α → β) : α → β :=
  Function.update values event.address event.output

/-- A later event counts before an earlier one. -/
theorem lastWritten_cons (initial : α → β) (event : Event α β) (events : List (Event α β)) :
    lastWritten initial (event :: events) = lastWritten (event.write initial) events := by
  funext address
  unfold lastWritten
  rw [List.reverse_cons, List.find?_append]
  cases hfind : events.reverse.find? (fun other => other.address = address) with
  | some found => rfl
  | none =>
    by_cases haddress : event.address = address
    · subst haddress
      simp [Event.write]
    · simp [haddress, Event.write, Function.update_of_ne (Ne.symm haddress)]

variable [Fintype α]

/-- A write replaces the token of its address. -/
theorem cells_write (event : Event α β) (values : α → β) (times : α → ℕ) :
    (event.address, values event.address, times event.address) ::ₘ
        cells (event.write values) (Function.update times event.address event.time) =
      event.produced ::ₘ cells values times := by
  have hsplit : (Finset.univ : Finset α).val =
      event.address ::ₘ (Finset.univ.erase event.address).val := by
    rw [Finset.erase_val, Multiset.cons_erase (Finset.mem_univ_val event.address)]
  have hrest : (Finset.univ.erase event.address).val.map (fun address =>
        (address, event.write values address,
          Function.update times event.address event.time address)) =
      (Finset.univ.erase event.address).val.map (fun address =>
        (address, values address, times address)) := by
    refine Multiset.map_congr rfl (fun address hmem => ?_)
    have hne : address ≠ event.address := (Finset.mem_erase.mp hmem).1
    rw [Event.write, Function.update_of_ne hne, Function.update_of_ne hne]
  unfold cells
  rw [hsplit, Multiset.map_cons, Multiset.map_cons, hrest, Event.write, Function.update_self,
    Function.update_self, Multiset.cons_swap]
  rfl

omit [DecidableEq α] in
/-- The earliest event finds the value of the memory. -/
theorem Balanced.head {values final : α → β} {times finalTimes : α → ℕ} {event : Event α β}
    {rest : List (Event α β)} (h : Balanced values times (event :: rest) final finalTimes)
    (hearlier : event.predecessor < event.time) (hfirst : ∀ other ∈ rest, event.time ≤ other.time) :
    event.consumed = (event.address, values event.address, times event.address) := by
  have hmem : event.consumed ∈ cells values times +
      ((event :: rest).map Event.produced : Multiset (Token α β)) := by
    rw [h, Multiset.mem_add]
    exact Or.inl (Multiset.mem_coe.mpr (List.mem_map_of_mem List.mem_cons_self))
  rcases Multiset.mem_add.mp hmem with hcell | hproduced
  · obtain ⟨address, _, heq⟩ := Multiset.mem_map.mp hcell
    have haddress : address = event.address := congrArg Prod.fst heq
    rw [← heq, haddress]
  · -- A token of its own or of a later event carries a later time than the one that is consumed.
    obtain ⟨other, hother, heq⟩ := List.mem_map.mp (Multiset.mem_coe.mp hproduced)
    have htime : other.time = event.predecessor := congrArg (fun token => token.2.2) heq
    rcases List.mem_cons.mp hother with rfl | hrest
    · omega
    · have hlater := hfirst other hrest
      omega

/-- After its earliest event the rest of a history is balanced. -/
theorem Balanced.tail {values final : α → β} {times finalTimes : α → ℕ} {event : Event α β}
    {rest : List (Event α β)} (h : Balanced values times (event :: rest) final finalTimes)
    (hhead : event.consumed = (event.address, values event.address, times event.address)) :
    Balanced (event.write values) (Function.update times event.address event.time) rest final
      finalTimes := by
  unfold Balanced at h ⊢
  rw [List.map_cons, List.map_cons, ← Multiset.cons_coe, ← Multiset.cons_coe, Multiset.cons_add,
    Multiset.add_cons, ← Multiset.cons_add, ← cells_write, ← hhead, Multiset.cons_add] at h
  exact (Multiset.cons_inj_right _).mp h

/-- An event before a balanced history. -/
theorem Balanced.cons {values final : α → β} {times finalTimes : α → ℕ} {event : Event α β}
    {rest : List (Event α β)}
    (hhead : event.consumed = (event.address, values event.address, times event.address))
    (h : Balanced (event.write values) (Function.update times event.address event.time) rest final
      finalTimes) :
    Balanced values times (event :: rest) final finalTimes := by
  unfold Balanced at h ⊢
  rw [List.map_cons, List.map_cons, ← Multiset.cons_coe, ← Multiset.cons_coe, Multiset.cons_add,
    Multiset.add_cons, ← Multiset.cons_add, ← cells_write, ← hhead, Multiset.cons_add, h]

omit [DecidableEq α] in
/-- Without events the final cells are the initial ones. -/
theorem Balanced.nil {values final : α → β} {times finalTimes : α → ℕ}
    (h : Balanced values times [] final finalTimes) (address : α) :
    final address = values address ∧ finalTimes address = times address := by
  unfold Balanced at h
  rw [List.map_nil, List.map_nil, Multiset.coe_nil, add_zero, zero_add] at h
  have hmem : (address, final address, finalTimes address) ∈ cells values times := by
    rw [h]
    exact Multiset.mem_map_of_mem _ (Finset.mem_univ_val address)
  obtain ⟨other, _, heq⟩ := Multiset.mem_map.mp hmem
  have haddress : other = address := congrArg Prod.fst heq
  subst haddress
  have hpair := congrArg Prod.snd heq
  exact ⟨(congrArg Prod.fst hpair).symm, (congrArg Prod.snd hpair).symm⟩

omit [DecidableEq α] in
theorem Balanced.refl (values : α → β) (times : α → ℕ) : Balanced values times [] values times := by
  unfold Balanced
  rw [List.map_nil, List.map_nil, Multiset.coe_nil, add_zero, zero_add]

omit [DecidableEq α] in
/-- The balance does not depend on the order of the events. -/
theorem Balanced.perm {values final : α → β} {times finalTimes : α → ℕ}
    {order events : List (Event α β)} (h : Balanced values times events final finalTimes)
    (hperm : order.Perm events) : Balanced values times order final finalTimes := by
  unfold Balanced at h ⊢
  rw [Multiset.coe_eq_coe.mpr (hperm.map Event.produced),
    Multiset.coe_eq_coe.mpr (hperm.map Event.consumed), h]

/-- A history in the order of its times: every event finds the value that was last written at its
address, and the final values are the last written ones. -/
theorem eq_lastWritten_of_balanced {order : List (Event α β)} {values final : α → β}
    {times finalTimes : α → ℕ} (h : Balanced values times order final finalTimes)
    (hearlier : ∀ event ∈ order, event.predecessor < event.time)
    (hsorted : order.Pairwise (fun first second => first.time ≤ second.time)) :
    (∀ before event after, order = before ++ event :: after →
      event.input = lastWritten values before event.address) ∧
    ∀ address, final address = lastWritten values order address := by
  induction order generalizing values times with
  | nil =>
    refine ⟨?_, fun address => (h.nil address).1⟩
    intro before event after hsplit
    cases before <;> cases hsplit
  | cons first rest ih =>
    rw [List.pairwise_cons] at hsorted
    have hhead := h.head (hearlier first List.mem_cons_self) hsorted.1
    obtain ⟨hinputs, hfinal⟩ := ih (h.tail hhead)
      (fun event hmem => hearlier event (List.mem_cons_of_mem _ hmem)) hsorted.2
    refine ⟨?_, ?_⟩
    · intro before event after hsplit
      cases before with
      | nil =>
        obtain ⟨rfl, rfl⟩ := List.cons.inj hsplit
        have hpair := congrArg Prod.snd hhead
        exact congrArg Prod.fst hpair
      | cons earlier before =>
        obtain ⟨rfl, hrest⟩ := List.cons.inj hsplit
        rw [lastWritten_cons]
        exact hinputs before event after hrest
    · intro address
      rw [lastWritten_cons]
      exact hfinal address

omit [DecidableEq α] in
/-- A function of tokens has one sum over both sides of a balance. -/
theorem Balanced.sum_eq {μ : Type*} [AddCommMonoid μ] {values final : α → β}
    {times finalTimes : α → ℕ} {events : List (Event α β)}
    (h : Balanced values times events final finalTimes) (f : Token α β → μ) :
    ∑ address, f (address, values address, times address) +
        (events.map (fun event => f event.produced)).sum =
      (events.map (fun event => f event.consumed)).sum +
        ∑ address, f (address, final address, finalTimes address) := by
  have hsum := congrArg (fun tokens => (Multiset.map f tokens).sum) h
  simp only [cells, Multiset.map_add, Multiset.map_map, Multiset.map_coe, Multiset.sum_add,
    Multiset.sum_coe, List.map_map] at hsum
  exact hsum

end OfflineMemory
