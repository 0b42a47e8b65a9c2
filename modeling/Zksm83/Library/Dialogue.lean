import Zksm83.Library.Simulation

/-!
# Actions that ask for their inputs

An action takes its inputs from a list in its state, and is rejected with a request when the list is
used up. Someone who holds a memory answers the requests one after another and lets the action run
again from its start with one more answer. `Converges` says that this ends: after a bounded number
of answers the action is accepted or is rejected for a reason that does not blame the answers.
-/

namespace Rejecting

variable {ε σ ς ρ ω μ α β : Type}

/-- A way to supply answers and to be asked for them, and one who answers. -/
structure Respondent (ε σ ρ ω μ : Type) where
  stock : σ → List ω → σ
  missing : ρ → ε
  blames : ε → Prop
  answer : μ → ρ → Option (ω × μ)
  fits : μ → σ → Prop

namespace Respondent

variable (respondent : Respondent ε σ ρ ω μ)

/-- What an action ends with from a state, for given answers. -/
def answered (action : Action ε σ α) (state : σ) (answers : List ω) : Except ε (α × σ) :=
  settled (outcome action (respondent.stock state answers))

/-- With the right answers, of which it asks for at most `count`, a run is accepted with a result
that satisfies `post`, in a state that fits the memory and with all further answers left over; or it
is rejected for a reason that does not blame the answers, or no one can answer. -/
inductive Converges (post : α → Prop) : ℕ → μ → (List ω → Except ε (α × σ)) → Prop
  | accepted {count : ℕ} {memory : μ} {run : List ω → Except ε (α × σ)} (value : α) (state : σ)
      (hrun : ∀ answers, run answers = .ok (value, respondent.stock state answers))
      (hpost : post value) (hfits : respondent.fits memory state) :
      Converges post count memory run
  | rejected {count : ℕ} {memory : μ} {run : List ω → Except ε (α × σ)} (error : ε)
      (hrun : ∀ answers, run answers = .error error) (herror : ¬ respondent.blames error) :
      Converges post count memory run
  | asks {count : ℕ} {memory : μ} {run : List ω → Except ε (α × σ)} (request : ρ)
      (hrun : run [] = .error (respondent.missing request))
      (hrest : ∀ answer next, respondent.answer memory request = some (answer, next) →
        Converges post count next (fun answers => run (answer :: answers))) :
      Converges post (count + 1) memory run

variable {respondent} {post : α → Prop} {post' : β → Prop} {count more : ℕ} {memory : μ}
  {run : List ω → Except ε (α × σ)}

theorem Converges.mono (h : respondent.Converges post count memory run) (hcount : count ≤ more) :
    respondent.Converges post more memory run := by
  induction h generalizing more with
  | accepted value state hrun hpost hfits => exact .accepted value state hrun hpost hfits
  | rejected error hrun herror => exact .rejected error hrun herror
  | asks request hrun _ ih =>
    obtain ⟨more, rfl⟩ := Nat.exists_eq_add_of_le' (Nat.one_le_of_lt hcount)
    refine .asks request hrun (fun answer next hanswer => ?_)
    exact ih answer next hanswer (Nat.le_of_succ_le_succ hcount)

theorem Converges.weaken {weaker : α → Prop} (h : respondent.Converges post count memory run)
    (hweaker : ∀ {value}, post value → weaker value) :
    respondent.Converges weaker count memory run := by
  induction h with
  | accepted value state hrun hpost hfits => exact .accepted value state hrun (hweaker hpost) hfits
  | rejected error hrun herror => exact .rejected error hrun herror
  | asks request hrun _ ih => exact .asks request hrun ih

/-- A run goes on with another, which asks on. -/
theorem Converges.bind {rest : α × σ → Except ε (β × σ)}
    (hfirst : respondent.Converges post count memory run)
    (hrest : ∀ value state next, post value → respondent.fits next state →
      respondent.Converges post' more next
        (fun answers => rest (value, respondent.stock state answers))) :
    respondent.Converges post' (more + count) memory (fun answers => run answers >>= rest) := by
  induction hfirst with
  | @accepted count memory run value state hrun hpost hfits =>
    have heq : (fun answers => run answers >>= rest) =
        fun answers => rest (value, respondent.stock state answers) := by
      funext answers
      rw [hrun]
      rfl
    rw [heq]
    exact (hrest value state memory hpost hfits).mono (Nat.le_add_right _ _)
  | rejected error hrun herror =>
    exact .rejected error (fun answers => by rw [hrun]; rfl) herror
  | asks request hrun _ ih =>
    refine .asks request (by rw [hrun]; rfl) (fun answer next hanswer => ?_)
    exact ih answer next hanswer

/-- The embedding of a run into a larger state. -/
theorem Converges.embed {other : Respondent ε ς ρ ω μ} {embed : σ → ς}
    (hstock : ∀ state answers, other.stock (embed state) answers =
      embed (respondent.stock state answers))
    (hmissing : other.missing = respondent.missing) (hblames : other.blames = respondent.blames)
    (hanswer : other.answer = respondent.answer)
    (hfits : ∀ {memory state}, respondent.fits memory state → other.fits memory (embed state))
    (h : respondent.Converges post count memory run) :
    other.Converges post count memory
      (fun answers => run answers >>= fun ended => .ok (ended.1, embed ended.2)) := by
  induction h with
  | accepted value state hrun hpost hfits' =>
    refine .accepted value (embed state) (fun answers => ?_) hpost (hfits hfits')
    rw [hrun, hstock]
    rfl
  | rejected error hrun herror =>
    exact .rejected error (fun answers => by rw [hrun]; rfl) (hblames ▸ herror)
  | asks request hrun _ ih =>
    refine .asks request (by rw [hrun, hmissing]; rfl) (fun answer next hgiven => ?_)
    exact ih answer next (hanswer ▸ hgiven)

section Actions

variable (respondent) {action : Action ε σ α} {state : σ}

/-- From every state that fits its memory, an action converges. -/
def Answers (count : ℕ) (post : α → Prop) (action : Action ε σ α) : Prop :=
  ∀ memory state, respondent.fits memory state →
    respondent.Converges post count memory (respondent.answered action state)

variable {respondent}

theorem Answers.pure {value : α} (hpost : post value) :
    respondent.Answers count post (Pure.pure value : Action ε σ α) :=
  fun _ state hfits => .accepted value state (fun _ => rfl) hpost hfits

theorem Answers.throw {error : ε} (herror : ¬ respondent.blames error) :
    respondent.Answers count post (MonadExcept.throw error : Action ε σ α) :=
  fun _ _ _ => .rejected error (fun _ => rfl) herror

theorem Answers.weaken {weaker : α → Prop} (h : respondent.Answers count post action)
    (hweaker : ∀ {value}, post value → weaker value) : respondent.Answers count weaker action :=
  fun memory state hfits => (h memory state hfits).weaken hweaker

/-- A change that leaves the answers. -/
theorem Answers.modify {done : Unit → Prop} {change : σ → σ} (hdone : done ())
    (hstock : ∀ state answers, change (respondent.stock state answers) =
      respondent.stock (change state) answers)
    (hfits : ∀ {memory state}, respondent.fits memory state →
      respondent.fits memory (change state)) :
    respondent.Answers count done (modify change : Action ε σ PUnit) := by
  intro memory state hstate
  refine .accepted () (change state) (fun answers => ?_) hdone (hfits hstate)
  show Except.ok ((), change (respondent.stock state answers)) = _
  rw [hstock]

theorem Answers.bind {continuation : α → Action ε σ β}
    (hfirst : respondent.Answers count post action)
    (hrest : ∀ value, post value → respondent.Answers more post' (continuation value)) :
    respondent.Answers (more + count) post' (action >>= continuation) := by
  intro memory state hstate
  have hrun : respondent.answered (action >>= continuation) state =
      fun answers => respondent.answered action state answers >>= fun ended =>
        settled (outcome (continuation ended.1) ended.2) :=
    funext (fun answers => settled_bind action continuation _)
  rw [hrun]
  refine (hfirst memory state hstate).bind (fun value next memory' hpost hnext => ?_)
  exact hrest value hpost memory' next hnext

/-- An action that reads what the answers do not change. -/
theorem Answers.get_bind {continuation : σ → Action ε σ β}
    (hsame : ∀ state answers, continuation (respondent.stock state answers) = continuation state)
    (hrest : ∀ state, respondent.Answers count post' (continuation state)) :
    respondent.Answers count post' (get >>= continuation) := by
  intro memory state hstate
  have hrun : respondent.answered (get >>= continuation) state =
      respondent.answered (continuation state) state := by
    funext answers
    show settled (outcome (continuation (respondent.stock state answers)) _) = _
    rw [hsame]
    rfl
  rw [hrun]
  exact hrest state memory state hstate

end Actions

end Respondent

end Rejecting
