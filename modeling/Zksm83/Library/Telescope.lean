import Mathlib.Algebra.BigOperators.Group.List.Basic
import Zksm83.Library.Failure
import Zksm83.Library.Runs

/-!
# Intervals end to end

A list of intervals, each with a point where it starts and a point where it ends, that lead from
one point to another without a gap. What every interval adds to a measure of its points, the whole
list adds (`Linked.sum`). A loop that checks its items one after another and stops at the first
that fails is a run of the checks that succeed (`Runs.foldlM_eq_ok`).
-/

/-- The intervals lie end to end between two points. -/
def Linked {ι π : Type} (source target : ι → π) (first : π) (items : List ι) (last : π) : Prop :=
  items.map source ++ [last] = first :: items.map target

namespace Linked

variable {ι π : Type} {source target : ι → π} {first last : π} {item : ι} {items more : List ι}

@[simp] theorem nil_iff : Linked source target first [] last ↔ last = first := by
  simp [Linked]

@[simp] theorem cons_iff : Linked source target first (item :: items) last ↔
    source item = first ∧ Linked source target (target item) items last := by
  simp [Linked]

theorem append_iff : Linked source target first (items ++ more) last ↔
    ∃ middle, Linked source target first items middle ∧ Linked source target middle more last := by
  induction items generalizing first with
  | nil => simp
  | cons item items ih =>
    rw [List.cons_append, cons_iff, ih]
    simp only [cons_iff, and_assoc, exists_and_left]

theorem source_head (h : Linked source target first items last) (hitem : items.head? = some item) :
    source item = first := by
  obtain ⟨rest, rfl⟩ := List.head?_eq_some_iff.mp hitem
  exact (cons_iff.mp h).1

theorem target_last (h : Linked source target first items last)
    (hitem : items.getLast? = some item) : target item = last := by
  obtain ⟨front, rfl⟩ := List.getLast?_eq_some_iff.mp hitem
  obtain ⟨middle, -, hlast⟩ := append_iff.mp h
  exact (nil_iff.mp (cons_iff.mp hlast).2).symm

/-- An interval starts where the one before it ends. -/
theorem adjacent (h : Linked source target first items last) {index : ℕ}
    (hindex : index + 1 < items.length) :
    target items[index] = source items[index + 1] := by
  have hplace := congrArg (·[index + 1]?) h
  simp only [List.getElem?_append_left (show index + 1 < (items.map source).length by simpa),
    List.getElem?_cons_succ, List.getElem?_map, List.getElem?_eq_getElem hindex,
    List.getElem?_eq_getElem (Nat.lt_of_succ_lt hindex), Option.map_some, Option.some.injEq]
    at hplace
  exact hplace.symm

/-- A measure grows along the list by the sum of what it grows along each interval. -/
theorem sum {μ : Type} [AddMonoid μ] (measure : π → μ) (size : ι → μ)
    (h : Linked source target first items last)
    (hsize : ∀ item ∈ items, measure (source item) + size item = measure (target item)) :
    measure first + (items.map size).sum = measure last := by
  induction items generalizing first with
  | nil => simp [nil_iff.mp h]
  | cons item items ih =>
    obtain ⟨rfl, htail⟩ := cons_iff.mp h
    rw [List.forall_mem_cons] at hsize
    rw [List.map_cons, List.sum_cons, ← add_assoc, hsize.1]
    exact ih htail hsize.2

end Linked

namespace Runs

variable {ε σ ι : Type} {step : σ → ι → Except ε σ} {state after : σ} {labels : List ι}

/-- A loop that may stop at any item gets through where its steps make a run. -/
theorem foldlM_eq_ok : labels.foldlM step state = .ok after ↔
    Runs (fun state label next => step state label = .ok next) state labels after := by
  induction labels generalizing state with
  | nil =>
    rw [List.foldlM_nil]
    constructor
    · intro h
      cases h
      exact .nil _
    · intro h
      cases h
      rfl
  | cons label labels ih =>
    rw [List.foldlM_cons, Except.bind_eq_ok]
    constructor
    · rintro ⟨middle, hstep, htail⟩
      exact .cons hstep (ih.mp htail)
    · intro h
      cases h with
      | cons hstep htail => exact ⟨_, hstep, ih.mpr htail⟩

end Runs

namespace Linked

variable {ι κ π σ : Type} {source target : ι → π} {first last : π} {items : List ι}

/-- Steps along the intervals make a run between what belongs to their ends. -/
theorem runs {step : σ → κ → σ → Prop} (place : π → σ) (label : ι → κ)
    (h : Linked source target first items last)
    (hstep : ∀ item ∈ items, step (place (source item)) (label item) (place (target item))) :
    Runs step (place first) (items.map label) (place last) := by
  induction items generalizing first with
  | nil =>
    rw [nil_iff.mp h]
    exact .nil _
  | cons item items ih =>
    obtain ⟨rfl, htail⟩ := cons_iff.mp h
    rw [List.forall_mem_cons] at hstep
    exact .cons hstep.1 (ih htail hstep.2)

end Linked

namespace Runs

variable {σ ι : Type} {step : σ → ι → σ → Prop} {start after : σ} {labels labels' : List ι}

/-- What grows with every step is not smaller at the end of a run, and larger unless the run is
empty. -/
theorem measure_lt {measure : σ → ℕ}
    (hgrows : ∀ state label next, step state label next → measure state < measure next)
    (hrun : Runs step start labels after) (hne : labels ≠ []) : measure start < measure after := by
  induction hrun with
  | nil => exact absurd rfl hne
  | @cons state middle after label labels hstep htail ih =>
    cases labels with
    | nil =>
      cases htail
      exact hgrows _ _ _ hstep
    | cons => exact (hgrows _ _ _ hstep).trans (ih (List.cons_ne_nil _ _))

/-- If a state determines the step that led to it, and something grows with every step, then two
runs between the same states have the same labels. -/
theorem labels_unique (measure : σ → ℕ)
    (hgrows : ∀ state label next, step state label next → measure state < measure next)
    (hdetermined : ∀ state state' label label' next, step state label next →
      step state' label' next → state = state' ∧ label = label')
    (hrun : Runs step start labels after) (hrun' : Runs step start labels' after) :
    labels = labels' := by
  induction labels using List.reverseRecOn generalizing labels' after with
  | nil =>
    cases hrun
    by_contra hne
    exact absurd (hrun'.measure_lt hgrows (Ne.symm hne)) (lt_irrefl _)
  | append_singleton labels label ih =>
    rcases List.eq_nil_or_concat labels' with rfl | ⟨labels'', label', hconcat⟩
    · cases hrun'
      exact absurd (hrun.measure_lt hgrows (by simp)) (lt_irrefl _)
    · rw [List.concat_eq_append] at hconcat
      subst hconcat
      obtain ⟨middle, hfirst, hlast⟩ := append_iff.mp hrun
      obtain ⟨middle', hfirst', hlast'⟩ := append_iff.mp hrun'
      cases hlast with
      | cons hstep hnil =>
        cases hlast' with
        | cons hstep' hnil' =>
          cases hnil
          cases hnil'
          obtain ⟨rfl, rfl⟩ := hdetermined _ _ _ _ _ hstep hstep'
          rw [ih hfirst hfirst']

end Runs
