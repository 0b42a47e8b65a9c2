import Mathlib

/-!
# Runs of a labelled step relation

A run takes steps one after another and lists their labels. What every step preserves, every run
preserves; a run over an appended list of labels splits at its middle state.
-/

/-- A run of steps with its list of labels. -/
inductive Runs {σ ι : Type} (step : σ → ι → σ → Prop) : σ → List ι → σ → Prop
  | nil (state : σ) : Runs step state [] state
  | cons {state middle after : σ} {label : ι} {labels : List ι} (hstep : step state label middle)
      (htail : Runs step middle labels after) : Runs step state (label :: labels) after

namespace Runs

variable {σ ι : Type} {step : σ → ι → σ → Prop} {state middle after : σ} {label : ι}
  {labels more : List ι}

theorem single (hstep : step state label after) : Runs step state [label] after :=
  .cons hstep (.nil after)

theorem append (hfirst : Runs step state labels middle) (hrest : Runs step middle more after) :
    Runs step state (labels ++ more) after := by
  induction hfirst with
  | nil => exact hrest
  | cons hstep _ ih => exact .cons hstep (ih hrest)

/-- A run over appended labels passes through a state where the first labels are used up. -/
theorem append_iff : Runs step state (labels ++ more) after ↔
    ∃ middle, Runs step state labels middle ∧ Runs step middle more after := by
  constructor
  · intro hrun
    induction labels generalizing state with
    | nil => exact ⟨state, .nil state, hrun⟩
    | cons label labels ih =>
      cases hrun with
      | cons hstep htail =>
        obtain ⟨middle, hfirst, hrest⟩ := ih htail
        exact ⟨middle, .cons hstep hfirst, hrest⟩
  · rintro ⟨middle, hfirst, hrest⟩
    exact hfirst.append hrest

/-- What every step preserves, every run preserves. -/
theorem invariant (holds : σ → Prop)
    (hpreserved : ∀ {state label next}, holds state → step state label next → holds next)
    (hrun : Runs step state labels after) (hstart : holds state) : holds after := by
  induction hrun with
  | nil => exact hstart
  | cons hstep _ ih => exact ih (hpreserved hstart hstep)

/-- A step relation inside another one has its runs inside the runs of the other one. -/
theorem mono {other : σ → ι → σ → Prop}
    (hinside : ∀ {state label next}, step state label next → other state label next)
    (hrun : Runs step state labels after) : Runs other state labels after := by
  induction hrun with
  | nil => exact .nil _
  | cons hstep _ ih => exact .cons (hinside hstep) ih

end Runs
