import Zksm83.Library.Rejecting

/-!
# Simulation between stateful actions

Two actions over different states run side by side. `Follows` compares how they end: both with
related results, or both rejected for one reason, unless the first is rejected for a reason that is
tolerated. `Simulates` asks for this from all related states, with related states afterwards, and
composes along sequences. With nothing tolerated the two actions end in the same way.
-/

namespace Rejecting

variable {ε σ ς α β α' β' : Type} {tolerated : ε → Prop}

/-- How one result follows another. -/
inductive Follows (tolerated : ε → Prop) (related : α → β → Prop) : Except ε α → Except ε β → Prop
  | accepted {value : α} {other : β} (hrelated : related value other) :
      Follows tolerated related (.ok value) (.ok other)
  | rejected {error : ε} : Follows tolerated related (.error error) (.error error)
  | escaped {error : ε} {result : Except ε β} (htolerated : tolerated error) :
      Follows tolerated related (.error error) result

namespace Follows

variable {related : α → β → Prop} {first : Except ε α} {second : Except ε β}

theorem refl {same : α → α → Prop} (hsame : ∀ value, same value value) (result : Except ε α) :
    Follows tolerated same result result := by
  cases result with
  | ok value => exact .accepted (hsame value)
  | error error => exact .rejected

theorem mono {weaker : α → β → Prop} (h : Follows tolerated related first second)
    (hweaker : ∀ {value other}, related value other → weaker value other) :
    Follows tolerated weaker first second := by
  cases h with
  | accepted hrelated => exact .accepted (hweaker hrelated)
  | rejected => exact .rejected
  | escaped htolerated => exact .escaped htolerated

/-- What follows an accepted result is accepted. -/
theorem of_ok {value : α} (h : Follows tolerated related (.ok value) second) :
    ∃ other, second = .ok other ∧ related value other := by
  cases h with
  | accepted hrelated => exact ⟨_, rfl, hrelated⟩

/-- What follows a rejection that is not tolerated is the same rejection. -/
theorem of_error {error : ε} (h : Follows tolerated related (.error error) second)
    (hstrict : ¬ tolerated error) : second = .error error := by
  cases h with
  | rejected => rfl
  | escaped htolerated => exact absurd htolerated hstrict

theorem bind {related' : α' → β' → Prop} {continuation : α → Except ε α'}
    {other : β → Except ε β'} (h : Follows tolerated related first second)
    (hrest : ∀ value value', related value value' →
      Follows tolerated related' (continuation value) (other value')) :
    Follows tolerated related' (first >>= continuation) (second >>= other) := by
  cases h with
  | accepted hrelated => exact hrest _ _ hrelated
  | rejected => exact .rejected
  | escaped htolerated => exact .escaped htolerated

end Follows

/-- What an action ends with, together with the state that it leaves if it is accepted. -/
def settled (ended : Except ε α × σ) : Except ε (α × σ) :=
  match ended with
  | (.ok value, state) => .ok (value, state)
  | (.error error, _) => .error error

theorem settled_bind (action : Action ε σ α) (continuation : α → Action ε σ β) (before : σ) :
    settled (outcome (action >>= continuation) before) =
      settled (outcome action before) >>= fun ended =>
        settled (outcome (continuation ended.1) ended.2) := by
  rw [outcome_bind]
  rcases outcome action before with ⟨_ | _, _⟩ <;> rfl

theorem settled_eq_ok {action : Action ε σ α} {before after : σ} {value : α} :
    settled (outcome action before) = .ok (value, after) ↔ Accepts action before value after := by
  unfold Accepts
  rcases outcome action before with ⟨_ | _, _⟩ <;> simp [settled]

/-- From related states, the end of an action is followed by that of the other. -/
def Simulates (tolerated : ε → Prop) (states : σ → ς → Prop) (values : α → β → Prop)
    (action : Action ε σ α) (other : Action ε ς β) : Prop :=
  ∀ ⦃first second⦄, states first second →
    Follows tolerated (fun ended ended' => values ended.1 ended'.1 ∧ states ended.2 ended'.2)
      (settled (outcome action first)) (settled (outcome other second))

namespace Simulates

variable {states : σ → ς → Prop} {values : α → β → Prop}

theorem pure {value : α} {other : β} (hvalues : values value other) :
    Simulates tolerated states values (Pure.pure value : Action ε σ α) (Pure.pure other) :=
  fun _ _ hstates => .accepted ⟨hvalues, hstates⟩

theorem throw (error : ε) :
    Simulates tolerated states values (MonadExcept.throw error : Action ε σ α)
      (MonadExcept.throw error) :=
  fun _ _ _ => .rejected

theorem of_modify {change : σ → σ} {change' : ς → ς}
    (hchange : ∀ {first second}, states first second → states (change first) (change' second)) :
    Simulates tolerated states (fun _ _ => True) (modify change : Action ε σ PUnit)
      (modify change') :=
  fun _ _ hstates => .accepted ⟨trivial, hchange hstates⟩

theorem mono {weaker : α → β → Prop} {action : Action ε σ α} {other : Action ε ς β}
    (h : Simulates tolerated states values action other)
    (hweaker : ∀ {value value'}, values value value' → weaker value value') :
    Simulates tolerated states weaker action other :=
  fun _ _ hstates => (h hstates).mono (fun hended => ⟨hweaker hended.1, hended.2⟩)

/-- Related ends go on from related states with related values. -/
theorem bind {values' : α' → β' → Prop} {action : Action ε σ α} {other : Action ε ς β}
    {continuation : α → Action ε σ α'} {continuation' : β → Action ε ς β'}
    (hfirst : Simulates tolerated states values action other)
    (hrest : ∀ value value', values value value' →
      Simulates tolerated states values' (continuation value) (continuation' value')) :
    Simulates tolerated states values' (action >>= continuation) (other >>= continuation') := by
  intro first second hstates
  rw [settled_bind, settled_bind]
  refine (hfirst hstates).bind (fun ended ended' hended => ?_)
  exact hrest _ _ hended.1 hended.2

/-- Two rejections for one reason; the rest is not reached. -/
theorem throw_bind {values' : α' → β' → Prop} (error : ε) {continuation : α → Action ε σ α'}
    {continuation' : β → Action ε ς β'} :
    Simulates tolerated states values' (MonadExcept.throw error >>= continuation)
      (MonadExcept.throw error >>= continuation') :=
  fun _ _ _ => .rejected

/-- Both actions read their states and go on. -/
theorem get_bind {values' : α' → β' → Prop} {continuation : σ → Action ε σ α'}
    {continuation' : ς → Action ε ς β'}
    (hrest : ∀ first second, states first second →
      Simulates tolerated states values' (continuation first) (continuation' second)) :
    Simulates tolerated states values' (get >>= continuation) (get >>= continuation') :=
  fun first second hstates => hrest first second hstates hstates

end Simulates

end Rejecting
