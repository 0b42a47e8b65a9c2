import Mathlib.Data.List.Forall2

/-!
# Actions that may fail

An action ends with a value or with an error. The rules take apart when a sequence of actions
succeeds, and which errors it may end with.
-/

/-- From a sequence that succeeds, both of its parts. -/
theorem Except.of_bind_eq_ok {ε α β : Type} {action : Except ε α} {next : α → Except ε β}
    {result : β} (h : action >>= next = .ok result) :
    ∃ value, action = .ok value ∧ next value = .ok result := by
  cases action with
  | error => cases h
  | ok value => exact ⟨value, rfl, h⟩

theorem Except.bind_eq_ok {ε α β : Type} {action : Except ε α} {next : α → Except ε β}
    {result : β} : action >>= next = .ok result ↔
      ∃ value, action = .ok value ∧ next value = .ok result := by
  refine ⟨Except.of_bind_eq_ok, ?_⟩
  rintro ⟨value, rfl, hnext⟩
  exact hnext

/-- The same for an action without a value. -/
theorem Except.check_eq_ok {ε β : Type} {action : Except ε Unit} {next : Unit → Except ε β}
    {result : β} : action >>= next = .ok result ↔ action = .ok () ∧ next () = .ok result :=
  Except.bind_eq_ok.trans ⟨fun ⟨_, h⟩ => h, fun h => ⟨(), h⟩⟩

theorem Except.forM_eq_ok {ε α : Type} {check : α → Except ε Unit} {values : List α} :
    values.forM check = .ok () ↔ ∀ value ∈ values, check value = .ok () := by
  induction values with
  | nil => exact ⟨fun _ => by simp, fun _ => rfl⟩
  | cons value values ih =>
    rw [List.forall_mem_cons, ← ih]
    exact Except.check_eq_ok

/-- A list of results is a result for every value. -/
theorem Except.mapM_eq_ok {ε α β : Type} {action : α → Except ε β} {values : List α}
    {results : List β} :
    values.mapM action = .ok results ↔
      List.Forall₂ (fun value result => action value = .ok result) values results := by
  induction values generalizing results with
  | nil =>
    rw [List.mapM_nil, List.forall₂_nil_left_iff]
    exact ⟨fun h => (Except.ok.inj h).symm, fun h => by rw [h]; rfl⟩
  | cons value values ih =>
    rw [List.mapM_cons, Except.bind_eq_ok]
    constructor
    · rintro ⟨result, hresult, hrest⟩
      obtain ⟨rest, hvalues, heq⟩ := Except.of_bind_eq_ok hrest
      rw [← Except.ok.inj heq]
      exact List.Forall₂.cons hresult (ih.mp hvalues)
    · rintro (_ | ⟨hresult, hvalues⟩)
      exact ⟨_, hresult, Except.bind_eq_ok.mpr ⟨_, ih.mpr hvalues, rfl⟩⟩

theorem Except.mapError_eq_ok {ε ε' α : Type} {error : ε → ε'} {result : Except ε α} {value : α} :
    result.mapError error = .ok value ↔ result = .ok value := by
  cases result with
  | error => exact ⟨nofun, nofun⟩
  | ok other =>
    show (Except.ok other : Except ε' α) = .ok value ↔ _
    rw [Except.ok.injEq, Except.ok.injEq]

/-- An action fails with these errors only. -/
def Except.FailsOnly {ε α : Type} (allowed : ε → Prop) (action : Except ε α) : Prop :=
  ∀ error, action = .error error → allowed error

namespace Except.FailsOnly

variable {ε α β : Type} {allowed : ε → Prop}

theorem of_ok {action : Except ε α} {value : α} (hok : action = .ok value) :
    action.FailsOnly allowed := by
  rintro error herror
  rw [hok] at herror
  cases herror

theorem of_error {error : ε} (herror : allowed error) :
    (Except.error error : Except ε α).FailsOnly allowed := by
  rintro _ hequal
  cases hequal
  exact herror

/-- A sequence fails with the errors of its parts. -/
theorem bind {action : Except ε α} {next : α → Except ε β} (haction : action.FailsOnly allowed)
    (hnext : ∀ value, action = .ok value → (next value).FailsOnly allowed) :
    (action >>= next).FailsOnly allowed := by
  intro error herror
  cases haction' : action with
  | error other =>
    rw [haction'] at herror
    cases herror
    exact haction error haction'
  | ok value =>
    rw [haction'] at herror
    exact hnext value haction' error herror

/-- A sequence whose first part succeeds. -/
theorem ok_bind {action : Except ε α} {next : α → Except ε β} {value : α}
    (hok : action = .ok value) (hnext : (next value).FailsOnly allowed) :
    (action >>= next).FailsOnly allowed := by
  subst hok
  exact hnext

theorem mapM {action : α → Except ε β} {values : List α}
    (hstep : ∀ value ∈ values, (action value).FailsOnly allowed) :
    (values.mapM action).FailsOnly allowed := by
  induction values with
  | nil => exact of_ok rfl
  | cons value values ih =>
    rw [List.mapM_cons]
    refine bind (hstep value List.mem_cons_self) fun result _ => ?_
    refine bind (ih fun value hvalue => hstep value (List.mem_cons_of_mem _ hvalue)) ?_
    exact fun results _ => of_ok rfl

end Except.FailsOnly
