import Zksm83.Trace.ImagePlans

/-!
# Plans over byte tables

A byte that a plan has written is found in the plan, so the witnesses of a plan are those of its
accesses made one after another on the byte table. The lookup relation takes them, and the events of
the accepted step enter the same writes into the table again.
-/

namespace Zksm83

open Rejecting

/-- The failures that are internal to the planner. -/
def LookupTraceBuilderError.plannerInternal : LookupTraceBuilderError → Bool
  | .step error => error.blamesWitness
  | .witnessBoundExceeded _ | .witnessPlanInvariant | .memoryEffectDivergence => true
  | _ => false

theorem tableByte_eq_ok {bytes : List Byte} {address : ℕ} {value : Byte} :
    tableByte bytes address = .ok value ↔ bytes[address]? = some value := by
  unfold tableByte
  cases bytes[address]? <;> simp

theorem tableByte_error {bytes : List Byte} {address : ℕ} {error : LookupTraceBuilderError}
    (h : tableByte bytes address = .error error) : error.plannerInternal = false := by
  unfold tableByte at h
  split at h
  · cases h
  · exact Except.error.inj h ▸ rfl

namespace LookupTraceBuilder

variable {builder : LookupTraceBuilder}

section Accesses

/-- What a planned access yields on a table. -/
inductive TableAccess (rom bytes : List Byte) :
    PlannedWitness → BusWitness MerklePath → List Byte → Prop
  | rom {address physicalAddress : ℕ} {value : Byte}
      (hvalue : rom[physicalAddress]? = some value) :
      TableAccess rom bytes (.rom address physicalAddress)
        (.rom ⟨address, physicalAddress, value, .lookupPlaceholder⟩) bytes
  | memoryRead {address physicalAddress : ℕ} {value : Byte}
      (hvalue : bytes[physicalAddress]? = some value) :
      TableAccess rom bytes (.memoryRead address physicalAddress)
        (.memoryRead ⟨address, physicalAddress, value, .lookupPlaceholder⟩) bytes
  | memoryWrite {address physicalAddress : ℕ} {before : Byte} (after : Byte)
      (hbefore : bytes[physicalAddress]? = some before) :
      TableAccess rom bytes (.memoryWrite address physicalAddress after)
        (.memoryWrite ⟨address, physicalAddress, before, after, .lookupPlaceholder⟩)
        (bytes.set physicalAddress after)
  | inputByte (value : Byte) : TableAccess rom bytes (.inputByte value) (.inputByte value) bytes

/-- The witnesses of a plan, and the table after its accesses. -/
inductive TableAccesses (rom : List Byte) :
    List Byte → List PlannedWitness → List (BusWitness MerklePath) → List Byte → Prop
  | nil (bytes : List Byte) : TableAccesses rom bytes [] [] bytes
  | cons {bytes middle next : List Byte} {planned : PlannedWitness}
      {witness : BusWitness MerklePath} {plan : List PlannedWitness}
      {witnesses : List (BusWitness MerklePath)}
      (hfirst : TableAccess rom bytes planned witness middle)
      (hrest : TableAccesses rom middle plan witnesses next) :
      TableAccesses rom bytes (planned :: plan) (witness :: witnesses) next

/-- The byte table holds what the plan has written. -/
def Holds (builder : LookupTraceBuilder) (preceding : List PlannedWitness) (bytes : List Byte) :
    Prop :=
  ∀ physicalAddress, builder.plannedMemoryByte preceding physicalAddress =
    tableByte bytes physicalAddress

theorem plannedMemoryByte_concat (preceding : List PlannedWitness) (planned : PlannedWitness)
    (physicalAddress : ℕ) :
    builder.plannedMemoryByte (preceding ++ [planned]) physicalAddress =
      match planned.writes physicalAddress with
      | some value => .ok value
      | none => builder.plannedMemoryByte preceding physicalAddress := by
  unfold plannedMemoryByte
  rw [List.reverse_append, List.reverse_singleton, List.singleton_append, List.findSome?_cons]
  cases planned.writes physicalAddress <;> rfl

/-- A planned access on a table is materialized from the plan before it. -/
theorem materializeOne_eq_ok {preceding : List PlannedWitness} {bytes : List Byte}
    {planned : PlannedWitness} {witness : BusWitness MerklePath}
    (hholds : builder.Holds preceding bytes) :
    builder.materializeOne preceding planned = .ok witness ↔
      ∃ next, TableAccess builder.rom bytes planned witness next := by
  cases planned with
  | rom address physicalAddress =>
    rw [materializeOne]
    constructor
    · intro h
      cases hvalue : tableByte builder.rom physicalAddress with
      | error error =>
        rw [hvalue] at h
        cases h
      | ok value =>
        rw [hvalue] at h
        cases h
        exact ⟨bytes, .rom (tableByte_eq_ok.mp hvalue)⟩
    · rintro ⟨_, hvalue | _⟩
      rw [tableByte_eq_ok.mpr hvalue]
      rfl
  | memoryRead address physicalAddress =>
    rw [materializeOne, hholds]
    constructor
    · intro h
      cases hvalue : tableByte bytes physicalAddress with
      | error error =>
        rw [hvalue] at h
        cases h
      | ok value =>
        rw [hvalue] at h
        cases h
        exact ⟨bytes, .memoryRead (tableByte_eq_ok.mp hvalue)⟩
    · rintro ⟨_, _ | hvalue⟩
      rw [tableByte_eq_ok.mpr hvalue]
      rfl
  | memoryWrite address physicalAddress after =>
    rw [materializeOne, hholds]
    constructor
    · intro h
      cases hvalue : tableByte bytes physicalAddress with
      | error error =>
        rw [hvalue] at h
        cases h
      | ok value =>
        rw [hvalue] at h
        cases h
        exact ⟨_, .memoryWrite after (tableByte_eq_ok.mp hvalue)⟩
    · rintro ⟨_, _ | _ | ⟨_, hvalue⟩⟩
      rw [tableByte_eq_ok.mpr hvalue]
      rfl
  | inputByte value =>
    rw [materializeOne]
    constructor
    · intro h
      cases h
      exact ⟨bytes, .inputByte value⟩
    · rintro ⟨_, _ | _ | _ | _⟩
      rfl

/-- After an access the table holds what the longer plan has written. -/
theorem Holds.concat {preceding : List PlannedWitness} {bytes next : List Byte}
    {planned : PlannedWitness} {witness : BusWitness MerklePath}
    (hholds : builder.Holds preceding bytes)
    (haccess : TableAccess builder.rom bytes planned witness next) :
    builder.Holds (preceding ++ [planned]) next := by
  intro physicalAddress
  rw [plannedMemoryByte_concat]
  cases haccess with
  | rom | memoryRead | inputByte => exact hholds physicalAddress
  | @memoryWrite address written before after hbefore =>
    by_cases haddress : written = physicalAddress
    · subst haddress
      have hlt : written < bytes.length := (List.getElem?_eq_some_iff.mp hbefore).1
      simp [PlannedWitness.writes, tableByte, hlt]
    · simp only [PlannedWitness.writes, if_neg haddress]
      rw [hholds, tableByte, tableByte, List.getElem?_set_ne haddress]

theorem precedingPlan_append (preceding rest : List PlannedWitness) :
    precedingPlan (preceding ++ rest) preceding.length = .ok preceding := by
  rw [precedingPlan, if_pos (by rw [List.length_append]; omega), List.take_left]

theorem materializeFrom_cons (preceding : List PlannedWitness) (planned : PlannedWitness)
    (rest : List PlannedWitness) :
    builder.materializeFrom (preceding ++ planned :: rest) preceding.length (planned :: rest) =
      builder.materializeOne preceding planned >>= fun witness =>
        builder.materializeFrom ((preceding ++ [planned]) ++ rest) (preceding ++ [planned]).length
          rest >>= fun witnesses => .ok (witness :: witnesses) := by
  rw [materializeFrom, precedingPlan_append, List.append_assoc, List.singleton_append,
    List.length_append, List.length_singleton]
  rfl

/-- The witnesses of a plan are those of its accesses on one table. -/
theorem materializeFrom_eq_ok {preceding rest : List PlannedWitness} {bytes : List Byte}
    {witnesses : List (BusWitness MerklePath)} (hholds : builder.Holds preceding bytes) :
    builder.materializeFrom (preceding ++ rest) preceding.length rest = .ok witnesses ↔
      ∃ next, TableAccesses builder.rom bytes rest witnesses next := by
  induction rest generalizing preceding bytes witnesses with
  | nil =>
    constructor
    · intro h
      cases h
      exact ⟨bytes, .nil bytes⟩
    · rintro ⟨_, _ | _⟩
      rfl
  | cons planned rest ih =>
    rw [materializeFrom_cons]
    constructor
    · intro h
      cases hfirst : builder.materializeOne preceding planned with
      | error error =>
        rw [hfirst] at h
        cases h
      | ok witness =>
        obtain ⟨middle, haccess⟩ := (materializeOne_eq_ok hholds).mp hfirst
        rw [hfirst] at h
        simp only [bind, Except.bind] at h
        cases hrest : builder.materializeFrom (preceding ++ [planned] ++ rest)
            (preceding ++ [planned]).length rest with
        | error error =>
          rw [hrest] at h
          cases h
        | ok found =>
          rw [hrest] at h
          cases h
          obtain ⟨next, haccesses⟩ := (ih (hholds.concat haccess)).mp hrest
          exact ⟨next, .cons haccess haccesses⟩
    · rintro ⟨next, _ | ⟨hfirst, hrest⟩⟩
      rw [(materializeOne_eq_ok hholds).mpr ⟨_, hfirst⟩]
      simp only [bind, Except.bind]
      rw [(ih (hholds.concat hfirst)).mpr ⟨next, hrest⟩]

theorem holds_nil : builder.Holds [] builder.memory := fun _ => rfl

theorem materialize_eq_ok {plan : List PlannedWitness} {witnesses : List (BusWitness MerklePath)} :
    builder.materialize plan = .ok witnesses ↔
      ∃ next, TableAccesses builder.rom builder.memory plan witnesses next :=
  materializeFrom_eq_ok holds_nil

theorem materializeFrom_concat (preceding rest : List PlannedWitness) (planned : PlannedWitness) :
    builder.materializeFrom (preceding ++ (rest ++ [planned])) preceding.length
        (rest ++ [planned]) =
      builder.materializeFrom (preceding ++ rest) preceding.length rest >>= fun witnesses =>
        builder.materializeOne (preceding ++ rest) planned >>= fun witness =>
          .ok (witnesses ++ [witness]) := by
  induction rest generalizing preceding with
  | nil =>
    rw [List.nil_append, materializeFrom_cons]
    simp only [List.append_nil]
    rfl
  | cons first rest ih =>
    rw [List.cons_append, materializeFrom_cons, materializeFrom_cons, ih, List.append_assoc,
      List.singleton_append]
    cases builder.materializeOne preceding first with
    | error error => rfl
    | ok witness =>
      simp only [bind, Except.bind]
      cases builder.materializeFrom (preceding ++ first :: rest) (preceding ++ [first]).length
          rest with
      | error error => rfl
      | ok witnesses =>
        dsimp only
        cases builder.materializeOne (preceding ++ first :: rest) planned <;> rfl

end Accesses

section Effects

/-- The events that carry the witnesses of some accesses enter the writes of these accesses into the
table, which is then the memory that they describe. -/
theorem outcome_applyMemoryEffects {bytes next : List Byte} {plan : List PlannedWitness}
    {witnesses : List (BusWitness MerklePath)}
    (haccesses : TableAccesses builder.rom bytes plan witnesses next)
    {events : List (BusEvent MerklePath)}
    (hevents : events.filterMap BusEvent.witness = witnesses) :
    outcome (applyMemoryEffects events) { builder with memory := bytes } =
        (.ok (), { builder with memory := next }) ∧
      next = describedMemory bytes events := by
  induction events generalizing bytes plan witnesses with
  | nil =>
    subst hevents
    cases haccesses
    exact ⟨rfl, rfl⟩
  | cons event events ih =>
    cases hwitness : event.witness with
    | none =>
      have heffect : event.memoryEffect = none := by
        rw [event.memoryEffect_eq, hwitness]
        rfl
      rw [List.filterMap_cons_none hwitness] at hevents
      obtain ⟨hrest, hdescribed⟩ := ih haccesses hevents
      refine ⟨?_, ?_⟩
      · rw [applyMemoryEffects, heffect]
        exact hrest
      · rw [hdescribed, describedMemory, describedMemory, List.foldl_cons, heffect]
    | some witness =>
      rw [List.filterMap_cons_some hwitness] at hevents
      subst hevents
      cases haccesses with
      | cons hfirst hrest =>
        obtain ⟨hrun, hdescribed⟩ := ih hrest rfl
        cases hfirst with
        | @memoryWrite address physicalAddress before after hbefore =>
          have heffect : event.memoryEffect =
              some ⟨address, physicalAddress, before, after, .lookupPlaceholder⟩ := by
            rw [event.memoryEffect_eq, hwitness]
            rfl
          have hlt : physicalAddress < bytes.length := (List.getElem?_eq_some_iff.mp hbefore).1
          refine ⟨?_, ?_⟩
          · rw [applyMemoryEffects, heffect]
            show outcome (applyWrite _ >>= fun _ => applyMemoryEffects events) _ = _
            have hwrite : outcome (applyWrite
                ⟨address, physicalAddress, before, after, .lookupPlaceholder⟩)
                { builder with memory := bytes } =
                  (.ok (), { builder with memory := bytes.set physicalAddress after }) := by
              unfold applyWrite
              rw [outcome_bind]
              show outcome (ofExcept (tableByte bytes physicalAddress) >>= _) _ = _
              rw [tableByte_eq_ok.mpr hbefore]
              show outcome (if before ≠ before then _ else _) _ = _
              rw [if_neg (not_not_intro rfl)]
              show outcome (ofExcept (setTableByte bytes physicalAddress after) >>= _) _ = _
              rw [setTableByte, if_pos hlt]
              rfl
            rw [outcome_bind, hwrite]
            exact hrun
          · rw [hdescribed, describedMemory, describedMemory, List.foldl_cons, heffect]
        | rom | memoryRead | inputByte =>
          have heffect : event.memoryEffect = none := by
            rw [event.memoryEffect_eq, hwitness]
            rfl
          refine ⟨?_, ?_⟩
          · rw [applyMemoryEffects, heffect]
            exact hrun
          · rw [hdescribed, describedMemory, describedMemory, List.foldl_cons, heffect]

end Effects

section Plans

variable {sha256 : List Byte → CommitmentRoot}

/-- The plans of a builder materialize access by access. -/
def incremental (sha256 : List Byte → CommitmentRoot) (builder : LookupTraceBuilder) :
    (builder.planner sha256).Incremental where
  witness existing planned := builder.materializeOne existing planned
  nil := rfl
  concat existing planned := materializeFrom_concat [] existing planned

theorem materializeOne_error {preceding : List PlannedWitness} {planned : PlannedWitness}
    {error : LookupTraceBuilderError}
    (h : builder.materializeOne preceding planned = .error error) :
    error.plannerInternal = false := by
  have hplanned : ∀ {physicalAddress reason},
      builder.plannedMemoryByte preceding physicalAddress = .error reason →
        reason.plannerInternal = false := by
    intro physicalAddress reason hbyte
    unfold plannedMemoryByte at hbyte
    split at hbyte
    · cases hbyte
    · exact tableByte_error hbyte
  cases planned with
  | rom address physicalAddress =>
    rw [materializeOne] at h
    cases hbyte : tableByte builder.rom physicalAddress with
    | error reason =>
      rw [hbyte] at h
      exact Except.error.inj h ▸ tableByte_error hbyte
    | ok value =>
      rw [hbyte] at h
      cases h
  | memoryRead address physicalAddress | memoryWrite address physicalAddress after =>
    rw [materializeOne] at h
    cases hbyte : builder.plannedMemoryByte preceding physicalAddress with
    | error reason =>
      rw [hbyte] at h
      exact Except.error.inj h ▸ hplanned hbyte
    | ok value =>
      rw [hbyte] at h
      cases h
  | inputByte value =>
    rw [materializeOne] at h
    cases h

theorem materializeFrom_error {preceding rest : List PlannedWitness}
    {error : LookupTraceBuilderError}
    (h : builder.materializeFrom (preceding ++ rest) preceding.length rest = .error error) :
    error.plannerInternal = false := by
  induction rest generalizing preceding error with
  | nil => cases h
  | cons planned rest ih =>
    rw [materializeFrom_cons] at h
    cases hfirst : builder.materializeOne preceding planned with
    | error reason =>
      rw [hfirst] at h
      exact Except.error.inj h ▸ materializeOne_error hfirst
    | ok witness =>
      rw [hfirst] at h
      simp only [bind, Except.bind] at h
      cases hrest : builder.materializeFrom (preceding ++ [planned] ++ rest)
          (preceding ++ [planned]).length rest with
      | error reason =>
        rw [hrest] at h
        exact Except.error.inj h ▸ ih hrest
      | ok witnesses =>
        rw [hrest] at h
        cases h

/-- A builder answers with witnesses that the lookup relation takes. -/
def answerer (sha256 : List Byte → CommitmentRoot) (builder : LookupTraceBuilder) :
    Answerer (.lookupRoots sha256) (List PlannedWitness) where
  answer := (incremental sha256 builder).answer
  fits _ _ := True
  rom {existing next roots address physicalAddress role witness} _ hanswer := by
    obtain ⟨planned, hplanned, hwitness, rfl⟩ := Planner.Incremental.answer_eq_some hanswer
    cases hplanned
    change builder.materializeOne existing (.rom address physicalAddress) = _ at hwitness
    rw [materializeOne] at hwitness
    cases hbyte : tableByte builder.rom physicalAddress with
    | error error =>
      rw [hbyte] at hwitness
      cases hwitness
    | ok value =>
      rw [hbyte] at hwitness
      cases hwitness
      exact ⟨trivial, _, rfl, rfl, rfl, rfl⟩
  memoryRead {existing next roots address physicalAddress witness} _ hanswer := by
    obtain ⟨planned, hplanned, hwitness, rfl⟩ := Planner.Incremental.answer_eq_some hanswer
    cases hplanned
    change builder.materializeOne existing (.memoryRead address physicalAddress) = _ at hwitness
    rw [materializeOne] at hwitness
    cases hbyte : builder.plannedMemoryByte existing physicalAddress with
    | error error =>
      rw [hbyte] at hwitness
      cases hwitness
    | ok value =>
      rw [hbyte] at hwitness
      cases hwitness
      exact ⟨trivial, _, rfl, rfl, rfl, rfl⟩
  memoryWrite {existing next roots address physicalAddress value witness} _ hanswer := by
    obtain ⟨planned, hplanned, hwitness, rfl⟩ := Planner.Incremental.answer_eq_some hanswer
    cases hplanned
    change builder.materializeOne existing (.memoryWrite address physicalAddress _) = _ at hwitness
    rw [materializeOne] at hwitness
    cases hbyte : builder.plannedMemoryByte existing physicalAddress with
    | error error =>
      rw [hbyte] at hwitness
      cases hwitness
    | ok before =>
      rw [hbyte] at hwitness
      cases hwitness
      exact ⟨_, roots, trivial, rfl, rfl, rfl, Fin.val_ofNat 256 value, rfl⟩
  input {existing next roots witness} _ hanswer := by
    obtain ⟨planned, hplanned, hwitness, rfl⟩ := Planner.Incremental.answer_eq_some hanswer
    obtain ⟨value, rfl⟩ := Planner.plan_input hplanned
    cases hwitness
    exact ⟨trivial, value, rfl⟩

/-- A builder plans honestly. -/
def honest (sha256 : List Byte → CommitmentRoot) (builder : LookupTraceBuilder) :
    Planner.Honest (.lookupRoots sha256) builder.state (incremental sha256 builder)
      (fun error => error.plannerInternal = true) where
  answerer := answerer sha256 builder
  answer_eq := rfl
  start := trivial
  apply_eq := rfl
  commit h := by cases h
  step {error} hblames := by
    show ¬ error.blamesWitness = true
    rw [hblames]
    exact Bool.false_ne_true
  plan hplan := by
    rcases Planner.plan_error hplan with rfl | ⟨index, rfl⟩ <;> exact Bool.false_ne_true
  materialize {existing error} hmaterialize := by
    have hrun : builder.materializeFrom ([] ++ existing) ([] : List PlannedWitness).length existing =
        .error error := hmaterialize
    rw [materializeFrom_error hrun]
    exact Bool.false_ne_true

end Plans

section Steps

variable {sha256 : List Byte → CommitmentRoot}

theorem outcome_step (builder : LookupTraceBuilder) :
    outcome (step sha256) builder =
      match (builder.planner sha256).planLoop maxWitnessesPerStep [] with
      | .error error => (.error error, builder)
      | .ok (after, effects) =>
        match outcome (applyMemoryEffects effects.busEvents) builder with
        | (.error error, next) => (.error error, next)
        | (.ok (), next) => (.ok ⟨builder.state, after, effects⟩, { next with state := after }) := by
  show outcome (ofExcept ((builder.planner sha256).planLoop maxWitnessesPerStep []) >>= _) builder = _
  rw [outcome_bind]
  cases (builder.planner sha256).planLoop maxWitnessesPerStep [] with
  | error error => rfl
  | ok result =>
    obtain ⟨after, effects⟩ := result
    show outcome (applyMemoryEffects effects.busEvents >>= _) builder = _
    rw [outcome_bind]
    dsimp only
    rcases outcome (applyMemoryEffects effects.busEvents) builder with ⟨_ | _, next⟩ <;> rfl

/-- What a step of a builder did: it planned at most five witnesses, each for what the relation
asked for after those before it; the relation accepted them, and every event used the witness that
was planned for it; the builder is now at the state after the step, and its memory is the one that
the events describe. -/
structure Stepped (sha256 : List Byte → CommitmentRoot) (builder : LookupTraceBuilder)
    (row : TraceRow) (next : LookupTraceBuilder) (existing : List PlannedWitness)
    (input : List (BusWitness MerklePath)) : Prop where
  asked : (builder.planner sha256).Asked existing
  length_le : existing.length ≤ maxWitnessesPerStep
  materialized : builder.materialize existing = .ok input
  before : row.before = builder.state
  applied : LookupStepRelation.apply sha256 builder.state input = .ok (row.after, row.effects)
  used : row.effects.busEvents.filterMap BusEvent.witness = input
  rom : next.rom = builder.rom
  privateInput : next.privateInput = builder.privateInput
  state : next.state = row.after
  memory : next.memory = describedMemory builder.memory row.effects.busEvents

/-- A step whose plan loop ends with a result succeeds as described. -/
theorem step_of_planLoop {after : AuthenticatedState} {effects : StepEffects MerklePath}
    (hloop : (builder.planner sha256).planLoop maxWitnessesPerStep [] = .ok (after, effects)) :
    ∃ next existing input,
      outcome (step sha256) builder = (.ok ⟨builder.state, after, effects⟩, next) ∧
      Stepped sha256 builder ⟨builder.state, after, effects⟩ next existing input := by
  have hends := (honest sha256 builder).ends
  rw [hloop] at hends
  cases hends with
  | @planned existing input _ hplanned =>
    have hused := Step.witnesses_of_apply (applyAuthenticated_ok hplanned.applied)
    obtain ⟨next, haccesses⟩ := materialize_eq_ok.mp hplanned.materialized
    obtain ⟨heffects, hdescribed⟩ := outcome_applyMemoryEffects haccesses hused
    refine ⟨⟨builder.rom, next, builder.privateInput, after⟩, existing, input, ?_, ?_⟩
    · rw [outcome_step, hloop]
      simp only [heffects]
    · exact ⟨hplanned.asked, hplanned.length_le, hplanned.materialized, rfl, hplanned.applied, hused,
        rfl, rfl, rfl, hdescribed⟩

/-- A step of a builder: it succeeds as described, or it fails for a reason that is not internal to
the planner and changes nothing. -/
theorem step_cases (builder : LookupTraceBuilder) :
    (∃ error, outcome (step sha256) builder = (.error error, builder) ∧
      error.plannerInternal = false) ∨
    ∃ row next existing input, outcome (step sha256) builder = (.ok row, next) ∧
      Stepped sha256 builder row next existing input := by
  have hends := (honest sha256 builder).ends
  cases hloop : (builder.planner sha256).planLoop maxWitnessesPerStep [] with
  | error error =>
    rw [hloop] at hends
    cases hends with
    | rejected herror =>
      refine .inl ⟨error, ?_, Bool.eq_false_iff.mpr herror⟩
      rw [outcome_step, hloop]
  | ok result => exact .inr ⟨_, step_of_planLoop hloop⟩

end Steps

end LookupTraceBuilder

end Zksm83
