import Mathlib.Data.List.Nodup
import Mathlib.Data.Nat.Cast.Defs

/-!
# Ledgers that are written in turns

A cursor moves over a ledger in turns. In each turn some events are written, each under the index
that the cursor has reached, and the cursor ends behind them. Over all turns the events then stand
under consecutive indices. Read `getElem_written` first.
-/

namespace Ledger

variable {β F : Type*} [AddMonoidWithOne F]

/-- The events of the first `count` turns. -/
def written (events : ℕ → List β) (count : ℕ) : List β := (List.range count).flatMap events

theorem written_succ (events : ℕ → List β) (count : ℕ) :
    written events (count + 1) = written events count ++ events count := by
  simp [written, List.range_succ]

theorem mem_written {events : ℕ → List β} {count : ℕ} {event : β} :
    event ∈ written events count ↔ ∃ turn < count, event ∈ events turn := by
  simp [written]

/-- Events of different turns differ if the turn can be read off them. -/
theorem nodup_written {events : ℕ → List β} {count : ℕ} (turnOf : β → ℕ)
    (hnodup : ∀ turn < count, (events turn).Nodup)
    (hturn : ∀ turn < count, ∀ event ∈ events turn, turnOf event = turn) :
    (written events count).Nodup := by
  induction count with
  | zero => simp [written]
  | succ count ih =>
    rw [written_succ, List.nodup_append']
    refine ⟨ih (fun turn hlt => hnodup turn (by omega)) (fun turn hlt => hturn turn (by omega)),
      hnodup count (by omega), ?_⟩
    intro event hearlier hlater
    obtain ⟨turn, hlt, hmem⟩ := mem_written.mp hearlier
    have hfirst := hturn turn (by omega) event hmem
    have hsecond := hturn count (by omega) event hlater
    omega

/-- The members of a range before a selected one, counted by its place among the selected ones. -/
theorem length_filter_range_getElem (p : ℕ → Bool) (count place : ℕ)
    (h : place < ((List.range count).filter p).length) :
    ((List.range (((List.range count).filter p)[place])).filter p).length = place := by
  induction count generalizing place with
  | zero => simp at h
  | succ count ih =>
    simp only [List.range_succ, List.filter_append] at h ⊢
    rw [List.getElem_append]
    split
    case isTrue hlt => exact ih place hlt
    case isFalse hge =>
      rw [List.length_append] at h
      by_cases hp : p count = true
      · have hsingle : [count].filter p = [count] := by simp [hp]
        simp only [hsingle, List.length_cons, List.length_nil] at h
        have hplace : place = ((List.range count).filter p).length := by omega
        simp [hsingle, hplace]
      · have hnone : [count].filter p = [] := by simp [hp]
        simp only [hnone, List.length_nil] at h
        omega

section Cursor

variable {events : ℕ → List β} {index : β → F} {cursor : ℕ → F} {count : ℕ}
  (hindex : ∀ turn < count, ∀ (place : ℕ) (h : place < (events turn).length),
    index ((events turn)[place]) = cursor turn + place)
  (hstep : ∀ turn < count, cursor (turn + 1) = cursor turn + ((events turn).length : ℕ))

include hstep

/-- The cursor has moved by the number of events. -/
theorem cursor_eq : cursor count = cursor 0 + ((written events count).length : ℕ) := by
  induction count with
  | zero => simp [written]
  | succ count ih =>
    rw [hstep count (by omega), ih (fun turn hlt => hstep turn (by omega)), written_succ,
      List.length_append, Nat.cast_add, add_assoc]

include hindex

/-- The events stand under consecutive indices. -/
theorem getElem_written (place : ℕ) (h : place < (written events count).length) :
    index ((written events count)[place]) = cursor 0 + place := by
  induction count generalizing place with
  | zero => simp [written] at h
  | succ count ih =>
    have hprevious := ih (fun turn hlt => hindex turn (by omega))
      (fun turn hlt => hstep turn (by omega))
    simp only [written_succ]
    rw [List.getElem_append]
    split
    case isTrue hlt => exact hprevious place hlt
    case isFalse hge =>
      have hlength : place - (written events count).length < (events count).length := by
        rw [written_succ, List.length_append] at h
        omega
      rw [hindex count (by omega) _ hlength,
        cursor_eq (fun turn hlt => hstep turn (Nat.lt_succ_of_lt hlt)), add_assoc, ← Nat.cast_add,
        Nat.add_sub_cancel' (Nat.le_of_not_lt hge)]

end Cursor

end Ledger
