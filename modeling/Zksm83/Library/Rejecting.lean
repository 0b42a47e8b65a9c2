import Mathlib

/-!
# Stateful actions that may be rejected

An action runs over a state and ends with a value or a rejection; the state it had reached survives
either way. `Accepts action before value after` says that a run from `before` ends with `value` in
`after`. The rules below take an accepted run of a composed action apart into the accepted runs of
its parts, so that facts about whole runs are proved from facts about single operations. `Keeps` and
`Lockstep` are the two relational forms: what one run keeps between its ends, and how two runs from
related states go together.
-/

namespace Rejecting

/-- An action over states `σ` that ends with a value or is rejected with an error. -/
abbrev Action (ε σ α : Type) := ExceptT ε (StateM σ) α

variable {ε σ α β : Type}

/-- What an action ends with, and the state it leaves. -/
def outcome (action : Action ε σ α) (before : σ) : Except ε α × σ := action before

/-- A run from `before` is accepted with `value` and leaves `after`. -/
def Accepts (action : Action ε σ α) (before : σ) (value : α) (after : σ) : Prop :=
  outcome action before = (.ok value, after)

@[simp] theorem accepts_pure (value result : α) (before after : σ) :
    Accepts (pure value : Action ε σ α) before result after ↔ result = value ∧ after = before := by
  show ((Except.ok value : Except ε α), before) = (.ok result, after) ↔ _
  rw [Prod.mk.injEq, Except.ok.injEq]
  exact ⟨fun h => ⟨h.1.symm, h.2.symm⟩, fun h => ⟨h.1.symm, h.2.symm⟩⟩

@[simp] theorem accepts_throw (error : ε) (before after : σ) (value : α) :
    ¬ Accepts (throw error : Action ε σ α) before value after := by
  show ¬ ((Except.error error : Except ε α), before) = (.ok value, after)
  simp

/-- A rejection ends a sequence. -/
theorem outcome_bind (action : Action ε σ α) (continuation : α → Action ε σ β) (before : σ) :
    outcome (action >>= continuation) before =
      match outcome action before with
      | (.ok value, middle) => outcome (continuation value) middle
      | (.error error, middle) => (.error error, middle) := by
  simp only [outcome, bind, ExceptT.bind, ExceptT.mk, StateT.bind]
  rcases action before with ⟨_ | _, middle⟩ <;> rfl

/-- An accepted run of a sequence is an accepted run of its first action followed by one of the
rest. -/
@[simp] theorem accepts_bind (action : Action ε σ α) (continuation : α → Action ε σ β)
    (before after : σ) (result : β) :
    Accepts (action >>= continuation) before result after ↔
      ∃ value middle, Accepts action before value middle ∧
        Accepts (continuation value) middle result after := by
  unfold Accepts
  rw [outcome_bind]
  rcases outcome action before with ⟨error | value, middle⟩
  · simp
  · constructor
    · intro h
      exact ⟨value, middle, rfl, h⟩
    · rintro ⟨other, last, heq, h⟩
      rw [Prod.mk.injEq, Except.ok.injEq] at heq
      rw [heq.1, heq.2]
      exact h

@[simp] theorem accepts_map (action : Action ε σ α) (f : α → β) (before after : σ) (result : β) :
    Accepts (f <$> action) before result after ↔
      ∃ value, Accepts action before value after ∧ result = f value := by
  rw [← bind_pure_comp, accepts_bind]
  constructor
  · rintro ⟨value, middle, hrun, hpure⟩
    obtain ⟨rfl, rfl⟩ := (accepts_pure _ _ _ _).mp hpure
    exact ⟨value, hrun, rfl⟩
  · rintro ⟨value, hrun, rfl⟩
    exact ⟨value, after, hrun, (accepts_pure _ _ _ _).mpr ⟨rfl, rfl⟩⟩

@[simp] theorem accepts_get (before after value : σ) :
    Accepts (get : Action ε σ σ) before value after ↔ value = before ∧ after = before := by
  show ((Except.ok before : Except ε σ), before) = (.ok value, after) ↔ _
  rw [Prod.mk.injEq, Except.ok.injEq]
  exact ⟨fun h => ⟨h.1.symm, h.2.symm⟩, fun h => ⟨h.1.symm, h.2.symm⟩⟩

@[simp] theorem accepts_modify (change : σ → σ) (before after : σ) (value : Unit) :
    Accepts (modify change : Action ε σ PUnit) before value after ↔ after = change before := by
  show ((Except.ok () : Except ε Unit), change before) = (.ok value, after) ↔ _
  rw [Prod.mk.injEq]
  exact ⟨fun h => h.2.symm, fun h => ⟨rfl, h.symm⟩⟩

theorem Accepts.bind {action : Action ε σ α} {continuation : α → Action ε σ β}
    {before middle after : σ} {value : α} {result : β} (hrun : Accepts action before value middle)
    (hrest : Accepts (continuation value) middle result after) :
    Accepts (action >>= continuation) before result after :=
  (accepts_bind _ _ _ _ _).mpr ⟨value, middle, hrun, hrest⟩

theorem Accepts.get_bind {continuation : σ → Action ε σ β} {before after : σ} {result : β}
    (hrest : Accepts (continuation before) before result after) :
    Accepts (get >>= continuation) before result after :=
  Accepts.bind ((accepts_get _ _ _).mpr ⟨rfl, rfl⟩) hrest

theorem Accepts.modify_bind {change : σ → σ} {continuation : Unit → Action ε σ β}
    {before after : σ} {result : β}
    (hrest : Accepts (continuation ()) (change before) result after) :
    Accepts (modify change >>= continuation) before result after :=
  @Accepts.bind _ _ _ _ _ _ _ _ _ () _ ((accepts_modify _ _ _ _).mpr rfl) hrest

theorem Accepts.ofExcept_bind {check : Except ε α} {value : α} {continuation : α → Action ε σ β}
    {before after : σ} {result : β} (hcheck : check = .ok value)
    (hrest : Accepts (continuation value) before result after) :
    Accepts (ofExcept check >>= continuation) before result after := by
  subst hcheck
  exact Accepts.bind rfl hrest

/-- A check in front of an action. -/
@[simp] theorem accepts_ofExcept (check : Except ε α) (before after : σ) (value : α) :
    Accepts (ofExcept check : Action ε σ α) before value after ↔
      check = .ok value ∧ after = before := by
  cases check with
  | error error =>
    show ((Except.error error : Except ε α), before) = (.ok value, after) ↔ _
    exact ⟨nofun, nofun⟩
  | ok result =>
    show ((Except.ok result : Except ε α), before) = (.ok value, after) ↔ _
    rw [Prod.mk.injEq]
    exact ⟨fun h => ⟨h.1, h.2.symm⟩, fun h => ⟨h.1, h.2.symm⟩⟩

/-- Another name for the errors changes nothing about the accepted runs. -/
@[simp] theorem accepts_adapt {ε' : Type} (rename : ε → ε') (action : Action ε σ α)
    (before after : σ) (value : α) :
    Accepts (ExceptT.adapt rename action : Action ε' σ α) before value after ↔
      Accepts action before value after := by
  have hrun : outcome (ExceptT.adapt rename action : Action ε' σ α) before =
      ((outcome action before).1.mapError rename, (outcome action before).2) := rfl
  unfold Accepts
  rw [hrun]
  rcases outcome action before with ⟨error | result, last⟩
  · exact ⟨nofun, nofun⟩
  · show (Except.ok result, last) = (Except.ok value, after) ↔ _
    rw [Prod.mk.injEq, Prod.mk.injEq, Except.ok.injEq, Except.ok.injEq]

/-- From `before`, an action is rejected with these errors only. -/
def RejectsOnly (allowed : ε → Prop) (action : Action ε σ α) (before : σ) : Prop :=
  ∀ ⦃error after⦄, outcome action before = (.error error, after) → allowed error

namespace RejectsOnly

variable {allowed : ε → Prop} {before : σ}

theorem pure (value : α) : RejectsOnly allowed (Pure.pure value : Action ε σ α) before := nofun

theorem throw {error : ε} (herror : allowed error) :
    RejectsOnly allowed (MonadExcept.throw error : Action ε σ α) before := by
  intro other after hrun
  obtain ⟨hequal, -⟩ := Prod.mk.inj hrun
  rwa [← Except.error.inj hequal]

/-- A check in front of an action. -/
theorem ofExcept {check : Except ε α} (hcheck : ∀ error, check = .error error → allowed error) :
    RejectsOnly allowed (MonadExcept.ofExcept check : Action ε σ α) before := by
  cases check with
  | error error => exact throw (hcheck error rfl)
  | ok value => exact pure value

theorem adapt {ε' : Type} {rename : ε' → ε} (hrename : ∀ error, allowed (rename error))
    (action : Action ε' σ α) :
    RejectsOnly allowed (ExceptT.adapt rename action : Action ε σ α) before := by
  intro error after hrun
  have hrun' : ((outcome action before).1.mapError rename, (outcome action before).2) =
      (Except.error error, after) := hrun
  rcases hpair : outcome action before with ⟨first | value, last⟩
  · rw [hpair] at hrun'
    rw [← Except.error.inj (Prod.mk.inj hrun').1]
    exact hrename first
  · rw [hpair] at hrun'
    cases (Prod.mk.inj hrun').1

/-- A sequence is rejected by its first action or by what an accepted run goes on with. -/
theorem bind {action : Action ε σ α} {continuation : α → Action ε σ β}
    (hfirst : RejectsOnly allowed action before)
    (hrest : ∀ value middle, Accepts action before value middle →
      RejectsOnly allowed (continuation value) middle) :
    RejectsOnly allowed (action >>= continuation) before := by
  intro error after hrun
  rw [outcome_bind] at hrun
  rcases hpair : outcome action before with ⟨first | value, middle⟩
  · rw [hpair] at hrun
    obtain ⟨hequal, -⟩ := Prod.mk.inj hrun
    rw [← Except.error.inj hequal]
    exact hfirst hpair
  · rw [hpair] at hrun
    exact hrest value middle hpair hrun

end RejectsOnly

/-- Every accepted run leaves a state related to the one it started from. -/
def Keeps (rel : σ → σ → Prop) (action : Action ε σ α) : Prop :=
  ∀ ⦃before value after⦄, Accepts action before value after → rel before after

namespace Keeps

variable {rel : σ → σ → Prop}

theorem pure (hrefl : ∀ state, rel state state) (value : α) :
    Keeps rel (Pure.pure value : Action ε σ α) := by
  intro before result after hrun
  obtain ⟨_, rfl⟩ := (accepts_pure _ _ _ _).mp hrun
  exact hrefl _

theorem throw (error : ε) : Keeps rel (MonadExcept.throw error : Action ε σ α) := by
  intro before value after hrun
  exact absurd hrun (accepts_throw _ _ _ _)

/-- What two actions keep, their sequence keeps. -/
theorem bind (htrans : ∀ {first second third}, rel first second → rel second third →
      rel first third) {action : Action ε σ α} {continuation : α → Action ε σ β}
    (hfirst : Keeps rel action) (hrest : ∀ value, Keeps rel (continuation value)) :
    Keeps rel (action >>= continuation) := by
  intro before result after hrun
  obtain ⟨value, middle, hrun, hcontinued⟩ := (accepts_bind _ _ _ _ _).mp hrun
  exact htrans (hfirst hrun) (hrest value hcontinued)

end Keeps

/-- Two outcomes match: both are rejections for one reason, or both end with one value in states
that `post` relates. -/
inductive Matches (post : σ → σ → Prop) : Except ε α × σ → Except ε α × σ → Prop
  | accepted {value : α} {first second : σ} (hpost : post first second) :
      Matches post (.ok value, first) (.ok value, second)
  | rejected {error : ε} {first second : σ} :
      Matches post (.error error, first) (.error error, second)

/-- From states that `pre` relates, the outcomes of an action match. -/
def Lockstep (pre : σ → σ → Prop) (action : Action ε σ α) (post : σ → σ → Prop) : Prop :=
  ∀ ⦃first second⦄, pre first second → Matches post (outcome action first) (outcome action second)

namespace Lockstep

variable {pre middle post : σ → σ → Prop}

theorem pure (hpost : ∀ {first second}, pre first second → post first second) (value : α) :
    Lockstep pre (Pure.pure value : Action ε σ α) post := by
  intro first second hpre
  exact .accepted (hpost hpre)

theorem throw (error : ε) : Lockstep pre (MonadExcept.throw error : Action ε σ α) post := by
  intro first second _
  exact .rejected

theorem of_modify {change : σ → σ}
    (hpost : ∀ {first second}, pre first second → post (change first) (change second)) :
    Lockstep pre (modify change : Action ε σ PUnit) post := by
  intro first second hpre
  exact .accepted (hpost hpre)

/-- Runs that match go on from matching states with one value. -/
theorem bind {action : Action ε σ α} {continuation : α → Action ε σ β}
    (hfirst : Lockstep pre action middle)
    (hrest : ∀ value, Lockstep middle (continuation value) post) :
    Lockstep pre (action >>= continuation) post := by
  intro first second hpre
  have hmatch := hfirst hpre
  rw [outcome_bind, outcome_bind]
  generalize outcome action first = left at hmatch ⊢
  generalize outcome action second = right at hmatch ⊢
  cases hmatch with
  | accepted hpost => exact hrest _ hpost
  | rejected => exact .rejected

/-- An action that reads the state and goes on in the same way from related states. -/
theorem get_bind {continuation : σ → Action ε σ β}
    (hsame : ∀ {first second}, pre first second → continuation first = continuation second)
    (hrest : ∀ state, Lockstep pre (continuation state) post) :
    Lockstep pre (get >>= continuation) post := by
  intro first second hpre
  show Matches post (outcome (continuation first) first) (outcome (continuation second) second)
  rw [hsame hpre]
  exact hrest second hpre

theorem mono {weaker : σ → σ → Prop} {action : Action ε σ α} (h : Lockstep pre action middle)
    (hpost : ∀ {first second}, middle first second → weaker first second) :
    Lockstep pre action weaker := by
  intro first second hpre
  have hmatch := h hpre
  generalize outcome action first = left at hmatch ⊢
  generalize outcome action second = right at hmatch ⊢
  cases hmatch with
  | accepted hmiddle => exact .accepted (hpost hmiddle)
  | rejected => exact .rejected

end Lockstep

end Rejecting
