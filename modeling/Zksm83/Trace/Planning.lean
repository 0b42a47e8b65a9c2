import Zksm83.Core.Planning
import Zksm83.Trace.LookupBuilder

/-!
# The plan loop converges

A builder whose witnesses the relation takes gets through the plan loop with at most five of them,
each the answer to what the relation asked for after the ones before. What the loop rejects, it
rejects for a reason of the machine or of the images, never for the plan.
-/

namespace Zksm83

open Rejecting

namespace Planner

variable {ε : Type} (planner : Planner ε)

/-- A plan each of whose accesses is the answer to what the relation missed after the accesses
before it. -/
inductive Asked : List PlannedWitness → Prop
  | nil : Asked []
  | concat {existing : List PlannedWitness} {input : List (BusWitness MerklePath)}
      {request : WitnessRequest} {planned : PlannedWitness} (hasked : Asked existing)
      (hinput : planner.materialize existing = .ok input)
      (hmissing : planner.apply input = .error (.missingWitness request))
      (hplanned : planner.plan request existing = .ok planned) : Asked (existing ++ [planned])

/-- Plans materialize access by access. -/
structure Incremental where
  witness : List PlannedWitness → PlannedWitness → Except ε (BusWitness MerklePath)
  nil : planner.materialize [] = .ok []
  concat : ∀ existing planned, planner.materialize (existing ++ [planned]) = (do
    let input ← planner.materialize existing
    let added ← witness existing planned
    return input ++ [added])

variable {planner}

/-- The answer to a request, and the plan with it. -/
def Incremental.answer (incremental : planner.Incremental) (existing : List PlannedWitness)
    (request : WitnessRequest) : Option (BusWitness MerklePath × List PlannedWitness) :=
  match planner.plan request existing with
  | .error _ => none
  | .ok planned =>
    match incremental.witness existing planned with
    | .error _ => none
    | .ok witness => some (witness, existing ++ [planned])

theorem Incremental.answer_eq_some {incremental : planner.Incremental}
    {existing next : List PlannedWitness} {request : WitnessRequest}
    {witness : BusWitness MerklePath}
    (h : incremental.answer existing request = some (witness, next)) :
    ∃ planned, planner.plan request existing = .ok planned ∧
      incremental.witness existing planned = .ok witness ∧ next = existing ++ [planned] := by
  unfold answer at h
  cases hplanned : planner.plan request existing with
  | error error => simp [hplanned] at h
  | ok planned =>
    cases hwitness : incremental.witness existing planned with
    | error error => simp [hplanned, hwitness] at h
    | ok found =>
      simp only [hplanned, hwitness, Option.some.injEq, Prod.mk.injEq] at h
      exact ⟨planned, rfl, hwitness.trans (congrArg _ h.1), h.2.symm⟩

/-- A planned input byte is a byte of the private input. -/
theorem plan_input {existing : List PlannedWitness} {planned : PlannedWitness}
    (h : planner.plan .inputByte existing = .ok planned) : ∃ value, planned = .inputByte value := by
  unfold plan at h
  dsimp only at h
  split at h
  · cases h
  · split at h
    · exact ⟨_, (Except.ok.inj h).symm⟩
    · cases h

/-- A request for a byte of memory or ROM is planned as it is. -/
theorem plan_error {request : WitnessRequest} {existing : List PlannedWitness} {error : ε}
    (h : planner.plan request existing = .error error) :
    error = planner.inputIndexOverflow ∨ ∃ index, error = planner.inputExhausted index := by
  cases request with
  | rom | memoryRead | memoryWrite => cases h
  | inputByte =>
    unfold plan at h
    dsimp only at h
    split at h
    · exact .inl (Except.error.inj h).symm
    · split at h
      · cases h
      · exact .inr ⟨_, (Except.error.inj h).symm⟩

section Loop

variable {remaining : ℕ} {existing : List PlannedWitness} {input : List (BusWitness MerklePath)}

theorem planLoop_ok {result : AuthenticatedState × StepEffects MerklePath}
    (hinput : planner.materialize existing = .ok input) (happly : planner.apply input = .ok result) :
    planner.planLoop remaining existing = .ok result := by
  unfold planLoop
  simp only [hinput, happly, bind, Except.bind]

theorem planLoop_rejected {error : StepError}
    (hinput : planner.materialize existing = .ok input)
    (happly : planner.apply input = .error error) (herror : error.blamesWitness = false) :
    planner.planLoop remaining existing = .error (planner.step error) := by
  unfold planLoop
  simp only [hinput, happly, bind, Except.bind]
  cases error <;> first | rfl | cases herror

theorem planLoop_asks {request : WitnessRequest}
    (hinput : planner.materialize existing = .ok input)
    (happly : planner.apply input = .error (.missingWitness request)) :
    planner.planLoop (remaining + 1) existing =
      planner.plan request existing >>= fun planned =>
        planner.planLoop remaining (existing ++ [planned]) := by
  rw [planLoop]
  simp only [hinput, happly, bind, Except.bind]

/-- How a plan loop ends with a result: at once, or after one more planned access. -/
theorem planLoop_eq_ok {result : AuthenticatedState × StepEffects MerklePath}
    (h : planner.planLoop remaining existing = .ok result) :
    ∃ input, planner.materialize existing = .ok input ∧
      (planner.apply input = .ok result ∨
        ∃ request planned more, remaining = more + 1 ∧
          planner.apply input = .error (.missingWitness request) ∧
          planner.plan request existing = .ok planned ∧
          planner.planLoop more (existing ++ [planned]) = .ok result) := by
  cases hinput : planner.materialize existing with
  | error error =>
    unfold planLoop at h
    simp only [hinput, bind, Except.bind] at h
    cases h
  | ok input =>
    refine ⟨input, rfl, ?_⟩
    cases happly : planner.apply input with
    | ok found =>
      rw [planLoop_ok hinput happly] at h
      exact .inl (congrArg _ (Except.ok.inj h))
    | error error =>
      by_cases hmissing : ∃ request, error = .missingWitness request
      · obtain ⟨request, rfl⟩ := hmissing
        cases remaining with
        | zero =>
          unfold planLoop at h
          simp only [hinput, happly, bind, Except.bind] at h
          cases h
        | succ more =>
          rw [planLoop_asks hinput happly] at h
          cases hplanned : planner.plan request existing with
          | error error =>
            rw [hplanned] at h
            cases h
          | ok planned =>
            rw [hplanned] at h
            exact .inr ⟨request, planned, more, rfl, rfl, hplanned, h⟩
      · have hrejected : planner.planLoop remaining existing = .error (planner.step error) := by
          unfold planLoop
          simp only [hinput, happly, bind, Except.bind]
          cases error <;> first | rfl | exact absurd ⟨_, rfl⟩ hmissing
        rw [hrejected] at h
        cases h

/-- The plan depends on the planner only by its input. -/
theorem plan_congr {ε' : Type} {planner' : Planner ε'} {request : WitnessRequest}
    {planned : PlannedWitness} (hnext : planner'.inputNext = planner.inputNext)
    (hinput : planner'.privateInput = planner.privateInput)
    (h : planner.plan request existing = .ok planned) :
    planner'.plan request existing = .ok planned := by
  cases request with
  | rom | memoryRead | memoryWrite => exact congrArg _ (Except.ok.inj h)
  | inputByte =>
    unfold plan at h ⊢
    rw [hnext, hinput]
    dsimp only at h ⊢
    split at h
    · cases h
    · rename_i hindex
      rw [if_neg hindex]
      split at h
      · exact congrArg _ (Except.ok.inj h)
      · cases h

end Loop

section Convergence

variable {authentication : BusAuthentication MerklePath AuthenticationRoots}
  {state : AuthenticatedState} (incremental : planner.Incremental)

/-- The witnesses of a planner fit a relation, whose rejections by its commitments do not blame the
witnesses; and no rejection of the planner itself is internal to it. -/
structure Honest (authentication : BusAuthentication MerklePath AuthenticationRoots)
    (state : AuthenticatedState) (incremental : planner.Incremental) (internal : ε → Prop) where
  answerer : Answerer authentication (List PlannedWitness)
  answer_eq : answerer.answer = incremental.answer
  start : answerer.fits [] state.roots
  apply_eq : planner.apply = applyAuthenticated authentication state
  commit : ∀ {roots : AuthenticationRoots} {events : List (BusEvent MerklePath)}
    {instruction : DecodedInstruction} {error : StepError},
    authentication.commit roots events instruction = .error error → error.blamesWitness = false
  step : ∀ {error : StepError}, error.blamesWitness = false → ¬ internal (planner.step error)
  plan : ∀ {request : WitnessRequest} {existing : List PlannedWitness} {error : ε},
    planner.plan request existing = .error error → ¬ internal error
  materialize : ∀ {existing : List PlannedWitness} {error : ε},
    planner.materialize existing = .error error → ¬ internal error

variable {incremental} {internal : ε → Prop}

/-- An accepted result of the plan loop. -/
structure Planned (honest : Honest authentication state incremental internal)
    (existing : List PlannedWitness) (input : List (BusWitness MerklePath))
    (result : AuthenticatedState × StepEffects MerklePath) : Prop where
  asked : planner.Asked existing
  length_le : existing.length ≤ maxWitnessesPerStep
  materialized : planner.materialize existing = .ok input
  applied : planner.apply input = .ok result
  fits : ∃ roots, honest.answerer.fits existing roots ∧
    authentication.commit roots result.2.busEvents result.2.instruction = .ok result.1.roots

/-- How the plan loop ends. -/
inductive Ends (honest : Honest authentication state incremental internal) :
    Except ε (AuthenticatedState × StepEffects MerklePath) → Prop
  | planned {existing : List PlannedWitness} {input : List (BusWitness MerklePath)}
      {result : AuthenticatedState × StepEffects MerklePath}
      (hplanned : Planned honest existing input result) : Ends honest (.ok result)
  | rejected {error : ε} (herror : ¬ internal error) : Ends honest (.error error)

/-- A step under given witnesses: its action, then its end. -/
theorem Honest.apply_input (honest : Honest authentication state incremental internal)
    (input : List (BusWitness MerklePath)) :
    planner.apply input =
      settled (outcome (Step.chosen authentication state.vm)
        (Step.start state.vm state.roots input)) >>= fun ended =>
          Step.concluded authentication ended >>= fun result =>
            .ok (⟨result.1.1, result.1.2⟩, result.2) := by
  rw [honest.apply_eq, applyAuthenticated, Step.apply_eq, bind_assoc]
  rfl

/-- The plan loop ends with a plan that the relation accepts, or rejects for another reason. -/
theorem Honest.planLoop_ends (honest : Honest authentication state incremental internal)
    {post : Step.Outcome → Prop} {count : ℕ} {existing : List PlannedWitness}
    {run : List (BusWitness MerklePath) →
      Except StepError (Step.Outcome × Executor (BusState MerklePath AuthenticationRoots))}
    (hconverges : honest.answerer.onStep.Converges post count existing run) :
    ∀ input, planner.Asked existing → planner.materialize existing = .ok input →
      existing.length + count = maxWitnessesPerStep →
      (∀ rest, run rest = settled (outcome (Step.chosen authentication state.vm)
        (Step.start state.vm state.roots (input ++ rest)))) →
      Ends honest (planner.planLoop count existing) := by
  induction hconverges with
  | @accepted count existing run value executor haccepted _ hfits =>
    intro input hasked hinput hcount hrun
    have happly := honest.apply_input input
    rw [← List.append_nil input, ← hrun [], haccepted, List.append_nil] at happly
    cases hcommit : authentication.commit executor.bus.roots executor.bus.events value.2.1 with
    | error error =>
      have hrejected : planner.apply input = .error error := by
        rw [happly]
        simp [Step.concluded, Step.finish, Answerer.onStep, BusState.stocked, hcommit, bind,
          Except.bind]
      rw [planLoop_rejected hinput hrejected (honest.commit hcommit)]
      exact .rejected (honest.step (honest.commit hcommit))
    | ok roots =>
      have happlied : planner.apply input = .ok (⟨Step.reached executor, roots⟩,
          ⟨value.1, value.2.1, value.2.2, executor.bus.events⟩) := by
        rw [happly]
        simp [Step.concluded, Step.finish, Answerer.onStep, BusState.stocked, hcommit, bind,
          Except.bind, pure, Except.pure, Step.reached]
      rw [planLoop_ok hinput happlied]
      exact .planned ⟨hasked, by omega, hinput, happlied, _, hfits, hcommit⟩
  | @rejected count existing run error hrejected herror =>
    intro input _ hinput _ hrun
    have happly := honest.apply_input input
    rw [← List.append_nil input, ← hrun [], hrejected, List.append_nil] at happly
    have hblames : error.blamesWitness = false := Bool.eq_false_iff.mpr herror
    rw [planLoop_rejected hinput happly hblames]
    exact .rejected (honest.step hblames)
  | @asks count existing run request hmissing _ ih =>
    intro input hasked hinput hcount hrun
    have happly := honest.apply_input input
    rw [← List.append_nil input, ← hrun [], hmissing, List.append_nil] at happly
    rw [planLoop_asks hinput happly]
    cases hplan : planner.plan request existing with
    | error error => exact .rejected (honest.plan hplan)
    | ok planned =>
      have hconcat := incremental.concat existing planned
      rw [hinput] at hconcat
      cases hwitness : incremental.witness existing planned with
      | error error =>
        have hfailed : planner.materialize (existing ++ [planned]) = .error error := by
          rw [hconcat]
          simp only [hwitness, bind, Except.bind]
        have hloop : planner.planLoop count (existing ++ [planned]) = .error error := by
          unfold planLoop
          simp only [hfailed, bind, Except.bind]
        show Ends honest (planner.planLoop count (existing ++ [planned]))
        rw [hloop]
        exact .rejected (honest.materialize hfailed)
      | ok witness =>
        have hanswer : honest.answerer.answer existing request =
            some (witness, existing ++ [planned]) := by
          rw [honest.answer_eq, Incremental.answer, hplan]
          simp only [hwitness]
        refine ih witness _ hanswer (input ++ [witness]) (.concat hasked hinput happly hplan) ?_ ?_ ?_
        · rw [hconcat]
          simp only [hwitness, bind, Except.bind, pure, Except.pure]
        · rw [List.length_append, List.length_singleton]
          omega
        · intro rest
          refine (hrun (witness :: rest)).trans ?_
          rw [List.append_assoc, List.singleton_append]

/-- The plan loop of a step ends with a plan that the relation accepts, or rejects for another
reason. -/
theorem Honest.ends (honest : Honest authentication state incremental internal) :
    Ends honest (planner.planLoop maxWitnessesPerStep []) :=
  honest.planLoop_ends (honest.answerer.converges_chosen state.vm honest.start) [] .nil
    incremental.nil rfl (fun _ => rfl)

end Convergence

end Planner

end Zksm83
