import Zksm83.Library.Telescope

/-!
# Attempts

A machine whose operations may fail. A failed operation may leave traces in the state, but nothing
that counts: there is a view of the state which it leaves unchanged, and which alone decides what
later operations do. Read `Transactional.run` first: what a sequence of attempts leaves behind is
what its successful operations lead to when nothing fails.
-/

section

variable {σ ι ε ν : Type} (attempt : σ → ι → Except ε Unit × σ)

/-- The state after some attempts. -/
def attemptAll : σ → List ι → σ
  | state, [] => state
  | state, label :: labels => attemptAll (attempt state label).2 labels

/-- The attempts that succeeded. -/
def succeeded : σ → List ι → List ι
  | _, [] => []
  | state, label :: labels =>
    match (attempt state label).1 with
    | .ok _ => label :: succeeded (attempt state label).2 labels
    | .error _ => succeeded (attempt state label).2 labels

/-- The attempts of a machine are the steps of another one, which fails without a trace, on a view
of the valid states. -/
structure Transactional (valid : σ → Prop) (view : σ → ν) (step : ν → ι → Except ε ν) :
    Prop where
  keeps {state : σ} (label : ι) : valid state → valid (attempt state label).2
  ok {state : σ} {label : ι} : valid state → (attempt state label).1 = .ok () →
    step (view state) label = .ok (view (attempt state label).2)
  error {state : σ} {label : ι} {error : ε} : valid state →
    (attempt state label).1 = .error error →
    step (view state) label = .error error ∧ view (attempt state label).2 = view state

variable {attempt} {state state' : σ} {label : ι} {labels more : List ι}

theorem succeeded_cons_ok (h : (attempt state label).1 = .ok ()) :
    succeeded attempt state (label :: labels) =
      label :: succeeded attempt (attempt state label).2 labels := by
  rw [succeeded, h]

theorem succeeded_cons_error {error : ε} (h : (attempt state label).1 = .error error) :
    succeeded attempt state (label :: labels) =
      succeeded attempt (attempt state label).2 labels := by
  rw [succeeded, h]

theorem attemptAll_append :
    attemptAll attempt state (labels ++ more) =
      attemptAll attempt (attemptAll attempt state labels) more := by
  induction labels generalizing state with
  | nil => rfl
  | cons label labels ih => exact ih

theorem succeeded_append :
    succeeded attempt state (labels ++ more) = succeeded attempt state labels ++
      succeeded attempt (attemptAll attempt state labels) more := by
  induction labels generalizing state with
  | nil => rfl
  | cons label labels ih =>
    rw [List.cons_append]
    cases h : (attempt state label).1 with
    | ok done =>
      cases done
      rw [succeeded_cons_ok h, succeeded_cons_ok h, ih]
      rfl
    | error error =>
      rw [succeeded_cons_error h, succeeded_cons_error h, ih]
      rfl

namespace Transactional

variable {valid : σ → Prop} {view : σ → ν} {step : ν → ι → Except ε ν}
  (h : Transactional attempt valid view step)

include h

theorem keeps_all (labels : List ι) (hstate : valid state) :
    valid (attemptAll attempt state labels) := by
  induction labels generalizing state with
  | nil => exact hstate
  | cons label labels ih => exact ih (h.keeps label hstate)

/-- What some attempts leave behind is what the successful ones lead to. -/
theorem run (hstate : valid state) : (succeeded attempt state labels).foldlM step (view state) =
    .ok (view (attemptAll attempt state labels)) := by
  induction labels generalizing state with
  | nil => rfl
  | cons label labels ih =>
    cases hresult : (attempt state label).1 with
    | ok done =>
      cases done
      rw [succeeded_cons_ok hresult, List.foldlM_cons, h.ok hstate hresult]
      exact ih (h.keeps label hstate)
    | error error =>
      obtain ⟨-, hview⟩ := h.error hstate hresult
      rw [succeeded_cons_error hresult, ← hview]
      exact ih (h.keeps label hstate)

/-- States with the same view have the same attempts succeed, with the same view in the end. -/
theorem same_view (labels : List ι) (hstate : valid state) (hstate' : valid state')
    (hview : view state = view state') :
    succeeded attempt state labels = succeeded attempt state' labels ∧
      view (attemptAll attempt state labels) = view (attemptAll attempt state' labels) := by
  induction labels generalizing state state' with
  | nil => exact ⟨rfl, hview⟩
  | cons label labels ih =>
    have hnext := @ih _ _ (h.keeps label hstate) (h.keeps label hstate')
    cases hresult : (attempt state label).1 with
    | ok done =>
      cases done
      have hstep := h.ok hstate hresult
      cases hresult' : (attempt state' label).1 with
      | ok done' =>
        cases done'
        have hstep' := h.ok hstate' hresult'
        rw [← hview, hstep] at hstep'
        obtain ⟨hlabels, hlast⟩ := hnext (Except.ok.inj hstep')
        rw [succeeded_cons_ok hresult, succeeded_cons_ok hresult', hlabels]
        exact ⟨rfl, hlast⟩
      | error error' =>
        have hstep' := (h.error hstate' hresult').1
        rw [← hview, hstep] at hstep'
        cases hstep'
    | error error =>
      obtain ⟨hstep, hsame⟩ := h.error hstate hresult
      cases hresult' : (attempt state' label).1 with
      | ok done' =>
        cases done'
        have hstep' := h.ok hstate' hresult'
        rw [← hview, hstep] at hstep'
        cases hstep'
      | error error' =>
        obtain ⟨-, hsame'⟩ := h.error hstate' hresult'
        obtain ⟨hlabels, hlast⟩ := hnext (hsame.trans (hview.trans hsame'.symm))
        rw [succeeded_cons_error hresult, succeeded_cons_error hresult', hlabels]
        exact ⟨rfl, hlast⟩

/-- The successful attempts alone: all of them succeed again, and lead to the same view. -/
theorem succeeded_again (labels : List ι) (hstate : valid state) :
    succeeded attempt state (succeeded attempt state labels) = succeeded attempt state labels ∧
      view (attemptAll attempt state (succeeded attempt state labels)) =
        view (attemptAll attempt state labels) := by
  induction labels generalizing state with
  | nil => exact ⟨rfl, rfl⟩
  | cons label labels ih =>
    obtain ⟨hagain, hview⟩ := @ih _ (h.keeps label hstate)
    cases hresult : (attempt state label).1 with
    | ok done =>
      cases done
      rw [succeeded_cons_ok hresult, succeeded_cons_ok hresult, hagain]
      exact ⟨rfl, hview⟩
    | error error =>
      -- the failed attempt has not changed the view, so it may be left out
      obtain ⟨-, hsame⟩ := h.error hstate hresult
      obtain ⟨hlabels, hlast⟩ := h.same_view (succeeded attempt (attempt state label).2 labels)
        hstate (h.keeps label hstate) hsame.symm
      rw [succeeded_cons_error hresult, hlabels, hlast]
      exact ⟨hagain, hview⟩

end Transactional

end
