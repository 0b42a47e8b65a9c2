import Zksm83.Core.Refinement
import Zksm83.Library.Failure
import Zksm83.Trace.Planning

/-!
# Plans over committed images

Whether a builder forks its memory or not, the witnesses of a plan are those of its accesses made
one after another on the memory image. They verify against the roots of the state, and the events of
the accepted step enter the same writes into the memory again, so that the memory after the step is
the one that its events describe.
-/

namespace Zksm83

open Rejecting

/-- The write that a witness carries. -/
def BusWitness.memoryEffect {π : Type} : BusWitness π → Option (MemoryWrite π)
  | .memoryWrite write => some write
  | .rom _ | .memoryRead _ | .inputByte _ => none

/-- An event describes the write of its witness. -/
theorem BusEvent.memoryEffect_eq {π : Type} (event : BusEvent π) :
    event.memoryEffect = event.witness.bind BusWitness.memoryEffect := by
  cases event with
  | inputRead index value | dmgJoypadRead index beforeButtons value visible =>
    unfold BusEvent.witness inputWitness
    dsimp only
    split <;> rfl
  | _ => rfl

/-- The memory that the writes of some events describe. -/
def describedMemory {π : Type} (bytes : List Byte) (events : List (BusEvent π)) : List Byte :=
  events.foldl (fun bytes event =>
    match event.memoryEffect with
    | some write => bytes.set write.physicalAddress write.after
    | none => bytes) bytes

theorem applyAuthenticated_ok {authentication : BusAuthentication MerklePath AuthenticationRoots}
    {before after : AuthenticatedState} {input : List (BusWitness MerklePath)}
    {effects : StepEffects MerklePath}
    (h : applyAuthenticated authentication before input = .ok (after, effects)) :
    Step.apply authentication before.vm before.roots input = .ok ((after.vm, after.roots), effects) := by
  unfold applyAuthenticated at h
  cases happly : Step.apply authentication before.vm before.roots input with
  | error error =>
    rw [happly] at h
    cases h
  | ok result =>
    rw [happly] at h
    cases h
    rfl

/-- The failures that are internal to the planner. -/
def TraceBuilderError.plannerInternal : TraceBuilderError → Bool
  | .step error => error.blamesWitness
  | .witnessBoundExceeded _ | .memoryEffectDivergence => true
  | _ => false

namespace TraceBuilder

variable {sha256 : List Byte → CommitmentRoot} {builder : TraceBuilder}

/-- The images of a builder are trees of their bytes, under the roots of its state. -/
structure Consistent (sha256 : List Byte → CommitmentRoot) (builder : TraceBuilder) : Prop where
  rom : ∃ depth, RomImage.Exact sha256 builder.rom depth
  romRoot : builder.state.roots.romRoot = builder.rom.root
  memory : builder.memory.Exact sha256
  memoryRoot : builder.state.roots.memoryRoot = builder.memory.root

section Forks

theorem map_materializeFrom_cons (fork : Option MemoryImage) (planned : PlannedWitness)
    (plan : List PlannedWitness) :
    (materializeFrom sha256 builder fork (planned :: plan)).map Prod.fst =
      materializeOne sha256 builder fork planned >>= fun first =>
        ((materializeFrom sha256 builder first.2 plan).map Prod.fst).map (first.1 :: ·) := by
  rw [materializeFrom]
  cases materializeOne sha256 builder fork planned with
  | error error => rfl
  | ok first =>
    obtain ⟨witness, next⟩ := first
    simp only [bind, Except.bind]
    cases materializeFrom sha256 builder next plan <;> rfl

/-- Plans without accesses to memory do not read the fork. -/
theorem map_materializeFrom_quiet {plan : List PlannedWitness}
    (hquiet : requiresMemoryForkFrom true plan = false) (fork fork' : Option MemoryImage) :
    (materializeFrom sha256 builder fork plan).map Prod.fst =
      (materializeFrom sha256 builder fork' plan).map Prod.fst := by
  induction plan with
  | nil => rfl
  | cons planned plan ih =>
    rw [map_materializeFrom_cons, map_materializeFrom_cons]
    cases planned with
    | memoryWrite => cases hquiet
    | memoryRead => cases hquiet
    | rom address physicalAddress =>
      simp only [materializeOne]
      cases (builder.rom.readMapped address physicalAddress).mapError TraceBuilderError.rom with
      | error error => rfl
      | ok read => exact congrArg (Except.map _) (ih hquiet)
    | inputByte value => exact congrArg (Except.map _) (ih hquiet)

/-- A plan that needs no fork has the witnesses that it has on one. -/
theorem map_materializeFrom_fork (hexact : builder.memory.Exact sha256)
    {plan : List PlannedWitness} (hplain : requiresMemoryFork plan = false) :
    (materializeFrom sha256 builder none plan).map Prod.fst =
      (materializeFrom sha256 builder (some builder.memory) plan).map Prod.fst := by
  unfold requiresMemoryFork at hplain
  induction plan with
  | nil => rfl
  | cons planned plan ih =>
    rw [map_materializeFrom_cons, map_materializeFrom_cons]
    cases planned with
    | rom address physicalAddress =>
      simp only [materializeOne]
      cases (builder.rom.readMapped address physicalAddress).mapError TraceBuilderError.rom with
      | error error => rfl
      | ok read => exact congrArg (Except.map _) (ih hplain)
    | memoryRead address physicalAddress =>
      simp only [materializeOne, Option.getD]
      cases (builder.memory.readMapped address physicalAddress).mapError
          TraceBuilderError.memory with
      | error error => rfl
      | ok read => exact congrArg (Except.map _) (ih hplain)
    | memoryWrite address physicalAddress value =>
      simp only [materializeOne]
      rw [hexact.outcome_writeMapped, hexact.previewWriteMapped_eq]
      cases validateMutableAddress address with
      | error error => rfl
      | ok _ =>
        by_cases hphysical : physicalAddress < builder.memory.checkpointBytes.length
        · simp only [if_pos hphysical]
          exact congrArg (Except.map _) (map_materializeFrom_quiet hplain _ _)
        · simp only [if_neg hphysical]
          rfl
    | inputByte value => exact congrArg (Except.map _) (ih hplain)

/-- The witnesses of a plan are those of its accesses on one memory. -/
theorem materialize_eq (hexact : builder.memory.Exact sha256) (plan : List PlannedWitness) :
    builder.materialize sha256 plan =
      (materializeFrom sha256 builder (some builder.memory) plan).map Prod.fst := by
  have hmap : ∀ fork, (materializeFrom sha256 builder fork plan >>= fun ended => .ok ended.1) =
      (materializeFrom sha256 builder fork plan).map Prod.fst := by
    intro fork
    cases materializeFrom sha256 builder fork plan <;> rfl
  unfold materialize
  cases hfork : requiresMemoryFork plan with
  | true => exact hmap _
  | false => exact (hmap none).trans (map_materializeFrom_fork hexact hfork)

theorem materializeFrom_concat (fork : Option MemoryImage) (plan : List PlannedWitness)
    (planned : PlannedWitness) :
    materializeFrom sha256 builder fork (plan ++ [planned]) =
      materializeFrom sha256 builder fork plan >>= fun first =>
        materializeOne sha256 builder first.2 planned >>= fun last =>
          .ok (first.1 ++ [last.1], last.2) := by
  induction plan generalizing fork with
  | nil =>
    simp only [List.nil_append, materializeFrom, bind, Except.bind, pure, Except.pure]
  | cons first plan ih =>
    rw [List.cons_append, materializeFrom, materializeFrom]
    cases materializeOne sha256 builder fork first with
    | error error => rfl
    | ok ended =>
      obtain ⟨witness, next⟩ := ended
      simp only [bind, Except.bind, pure, Except.pure, ih]
      cases materializeFrom sha256 builder next plan with
      | error error => rfl
      | ok rest =>
        dsimp only
        cases materializeOne sha256 builder rest.2 planned <;> rfl

end Forks

section Accesses

variable {image : MemoryImage} {planned : PlannedWitness} {witness : BusWitness MerklePath}
  {fork : Option MemoryImage}

/-- What a planned access yields on a memory. -/
inductive Access (sha256 : List Byte → CommitmentRoot) (rom : RomImage) (image : MemoryImage) :
    PlannedWitness → BusWitness MerklePath → MemoryImage → Prop
  | rom {address physicalAddress : ℕ} {read : RomRead MerklePath}
      (hread : rom.readMapped address physicalAddress = .ok read) :
      Access sha256 rom image (.rom address physicalAddress) (.rom read) image
  | memoryRead {address physicalAddress : ℕ} {read : MemoryRead MerklePath}
      (hread : image.readMapped address physicalAddress = .ok read) :
      Access sha256 rom image (.memoryRead address physicalAddress) (.memoryRead read) image
  | memoryWrite {address physicalAddress : ℕ} {value : Byte} {write : MemoryWrite MerklePath}
      {next : MemoryImage}
      (hwrite : Accepts (MemoryImage.writeMapped sha256 address physicalAddress value) image write
        next) :
      Access sha256 rom image (.memoryWrite address physicalAddress value) (.memoryWrite write) next
  | inputByte (value : Byte) : Access sha256 rom image (.inputByte value) (.inputByte value) image

theorem access_of_materializeOne
    (h : materializeOne sha256 builder (some image) planned = .ok (witness, fork)) :
    ∃ next, fork = some next ∧ Access sha256 builder.rom image planned witness next := by
  cases planned with
  | rom address physicalAddress =>
    simp only [materializeOne] at h
    cases hread : (builder.rom.readMapped address physicalAddress).mapError
        TraceBuilderError.rom with
    | error error =>
      rw [hread] at h
      cases h
    | ok read =>
      rw [hread] at h
      cases h
      exact ⟨image, rfl, .rom (Except.mapError_eq_ok.mp hread)⟩
  | memoryRead address physicalAddress =>
    simp only [materializeOne, Option.getD] at h
    cases hread : (image.readMapped address physicalAddress).mapError
        TraceBuilderError.memory with
    | error error =>
      rw [hread] at h
      cases h
    | ok read =>
      rw [hread] at h
      cases h
      exact ⟨image, rfl, .memoryRead (Except.mapError_eq_ok.mp hread)⟩
  | memoryWrite address physicalAddress value =>
    simp only [materializeOne] at h
    cases hwrite : outcome (MemoryImage.writeMapped sha256 address physicalAddress value) image with
    | mk result next =>
      rw [hwrite] at h
      cases result with
      | error error => cases h
      | ok write =>
        cases h
        exact ⟨next, rfl, .memoryWrite hwrite⟩
  | inputByte value =>
    cases h
    exact ⟨image, rfl, .inputByte value⟩

/-- An access leaves an exact image. -/
theorem Access.exact {next : MemoryImage} (hexact : image.Exact sha256)
    (haccess : Access sha256 builder.rom image planned witness next) : next.Exact sha256 := by
  cases haccess with
  | rom | memoryRead | inputByte => exact hexact
  | memoryWrite hwrite =>
    obtain ⟨_, rfl, _⟩ := hexact.writeMapped_ok hwrite
    exact MemoryImage.exact_exactImage sha256 (by rw [List.length_set]; exact hexact.length)

/-- The witnesses of a plan, and the memory after its accesses. -/
inductive Accesses (sha256 : List Byte → CommitmentRoot) (rom : RomImage) :
    MemoryImage → List PlannedWitness → List (BusWitness MerklePath) → MemoryImage → Prop
  | nil (image : MemoryImage) : Accesses sha256 rom image [] [] image
  | cons {image middle next : MemoryImage} {planned : PlannedWitness}
      {witness : BusWitness MerklePath} {plan : List PlannedWitness}
      {witnesses : List (BusWitness MerklePath)}
      (hfirst : Access sha256 rom image planned witness middle)
      (hrest : Accesses sha256 rom middle plan witnesses next) :
      Accesses sha256 rom image (planned :: plan) (witness :: witnesses) next

theorem accesses_of_materializeFrom {plan : List PlannedWitness}
    {witnesses : List (BusWitness MerklePath)}
    (h : materializeFrom sha256 builder (some image) plan = .ok (witnesses, fork)) :
    ∃ next, fork = some next ∧ Accesses sha256 builder.rom image plan witnesses next := by
  induction plan generalizing image witnesses with
  | nil =>
    cases h
    exact ⟨image, rfl, .nil image⟩
  | cons planned plan ih =>
    rw [materializeFrom] at h
    cases hfirst : materializeOne sha256 builder (some image) planned with
    | error error =>
      rw [hfirst] at h
      cases h
    | ok first =>
      obtain ⟨witness, middle⟩ := first
      obtain ⟨middle, rfl, haccess⟩ := access_of_materializeOne hfirst
      rw [hfirst] at h
      simp only [bind, Except.bind, pure, Except.pure] at h
      cases hrest : materializeFrom sha256 builder (some middle) plan with
      | error error =>
        rw [hrest] at h
        cases h
      | ok rest =>
        rw [hrest] at h
        cases h
        obtain ⟨next, hnext, haccesses⟩ := ih hrest
        exact ⟨next, hnext, .cons haccess haccesses⟩

theorem Accesses.exact {next : MemoryImage} {plan : List PlannedWitness}
    {witnesses : List (BusWitness MerklePath)} (hexact : image.Exact sha256)
    (haccesses : Accesses sha256 builder.rom image plan witnesses next) : next.Exact sha256 := by
  induction haccesses with
  | nil => exact hexact
  | cons hfirst _ ih => exact ih (hfirst.exact hexact)

end Accesses

section Effects

/-- A described write that was the next write of the memory is entered without divergence. -/
theorem outcome_applyWrite {image next : MemoryImage} (hexact : image.Exact sha256)
    {address physicalAddress : ℕ} {value : Byte} {write : MemoryWrite MerklePath}
    (hwrite : Accepts (MemoryImage.writeMapped sha256 address physicalAddress value) image write
      next) :
    outcome (applyWrite sha256 write) { builder with memory := image } =
      (.ok (), { builder with memory := next }) := by
  have hfields := hexact.writeMapped_eq hwrite
  have hagain : Accepts (MemoryImage.writeMapped sha256 write.address write.physicalAddress
      write.after) image write next := by
    rw [hfields] at hwrite ⊢
    exact hwrite
  show applyWrite sha256 write { builder with memory := image } = _
  unfold applyWrite
  dsimp only
  rw [show outcome (MemoryImage.writeMapped sha256 write.address write.physicalAddress write.after)
    image = _ from hagain]
  simp

/-- The events that carry the witnesses of some accesses enter the writes of these accesses into the
memory, which is then the memory that they describe. -/
theorem outcome_applyEvents {image next : MemoryImage} (hexact : image.Exact sha256)
    {plan : List PlannedWitness} {witnesses : List (BusWitness MerklePath)}
    (haccesses : Accesses sha256 builder.rom image plan witnesses next)
    {events : List (BusEvent MerklePath)}
    (hevents : events.filterMap BusEvent.witness = witnesses) :
    outcome (applyEvents sha256 events) { builder with memory := image } =
        (.ok (), { builder with memory := next }) ∧
      next.checkpointBytes = describedMemory image.checkpointBytes events := by
  induction events generalizing image plan witnesses with
  | nil =>
    subst hevents
    cases haccesses
    exact ⟨rfl, rfl⟩
  | cons event events ih =>
    cases hwitness : event.witness with
    | none =>
      have heffect : event.memoryEffect = none := by rw [event.memoryEffect_eq, hwitness]; rfl
      rw [List.filterMap_cons_none hwitness] at hevents
      obtain ⟨hrest, hdescribed⟩ := ih hexact haccesses hevents
      refine ⟨?_, ?_⟩
      · rw [applyEvents, heffect]
        exact hrest
      · rw [hdescribed, describedMemory, describedMemory, List.foldl_cons, heffect]
    | some witness =>
      rw [List.filterMap_cons_some hwitness] at hevents
      subst hevents
      cases haccesses with
      | @cons _ middle _ planned _ plan _ hfirst hrest =>
        obtain ⟨hrun, hdescribed⟩ := ih (hfirst.exact hexact) hrest rfl
        cases hfirst with
        | @memoryWrite address physicalAddress value write _ hwrite =>
          have heffect : event.memoryEffect = some write := by
            rw [event.memoryEffect_eq, hwitness]
            rfl
          refine ⟨?_, ?_⟩
          · rw [applyEvents, heffect]
            show outcome (applyWrite sha256 write >>= fun _ => applyEvents sha256 events) _ = _
            rw [outcome_bind, outcome_applyWrite hexact hwrite]
            exact hrun
          · rw [hdescribed, describedMemory, describedMemory, List.foldl_cons, heffect]
            obtain ⟨_, rfl, _⟩ := hexact.writeMapped_ok hwrite
            rw [hexact.writeMapped_eq hwrite]
            rfl
        | rom | memoryRead | inputByte =>
          have heffect : event.memoryEffect = none := by
            rw [event.memoryEffect_eq, hwitness]
            rfl
          refine ⟨?_, ?_⟩
          · rw [applyEvents, heffect]
            exact hrun
          · rw [hdescribed, describedMemory, describedMemory, List.foldl_cons, heffect]

end Effects

section Plans

/-- The plans of a consistent builder materialize access by access. -/
def incremental (hexact : builder.memory.Exact sha256) : (builder.planner sha256).Incremental where
  witness existing planned := do
    let (_, fork) ← materializeFrom sha256 builder (some builder.memory) existing
    let (witness, _) ← materializeOne sha256 builder fork planned
    return witness
  nil := rfl
  concat existing planned := by
    show builder.materialize sha256 (existing ++ [planned]) =
      builder.materialize sha256 existing >>= _
    rw [materialize_eq hexact, materialize_eq hexact, materializeFrom_concat]
    cases materializeFrom sha256 builder (some builder.memory) existing with
    | error error => rfl
    | ok first =>
      simp only [bind, Except.bind, Except.map]
      cases materializeOne sha256 builder first.2 planned <;> rfl

/-- The memory after a plan has the roots of the relation. -/
def Fits (sha256 : List Byte → CommitmentRoot) (builder : TraceBuilder)
    (existing : List PlannedWitness) (roots : AuthenticationRoots) : Prop :=
  ∃ witnesses image,
    materializeFrom sha256 builder (some builder.memory) existing = .ok (witnesses, some image) ∧
      image.root = roots.memoryRoot ∧ builder.rom.root = roots.romRoot

/-- The access behind an answer. -/
theorem access_of_answer (hexact : builder.memory.Exact sha256)
    {existing next : List PlannedWitness} {request : WitnessRequest}
    {witness : BusWitness MerklePath} {roots : AuthenticationRoots}
    (hfits : Fits sha256 builder existing roots)
    (hanswer : (incremental hexact).answer existing request = some (witness, next)) :
    ∃ planned image after, (builder.planner sha256).plan request existing = .ok planned ∧
      image.Exact sha256 ∧ image.root = roots.memoryRoot ∧
      Access sha256 builder.rom image planned witness after ∧
      Fits sha256 builder next { roots with memoryRoot := after.root } := by
  obtain ⟨planned, hplanned, hwitness, rfl⟩ := Planner.Incremental.answer_eq_some hanswer
  obtain ⟨witnesses, image, hrun, hroot, hrom⟩ := hfits
  obtain ⟨_, himage, haccesses⟩ := accesses_of_materializeFrom hrun
  cases himage
  change (materializeFrom sha256 builder (some builder.memory) existing >>= _) = _ at hwitness
  rw [hrun] at hwitness
  cases hone : materializeOne sha256 builder (some image) planned with
  | error error =>
    simp [hone, bind, Except.bind] at hwitness
  | ok last =>
    obtain ⟨found, fork⟩ := last
    simp only [hone, bind, Except.bind, pure, Except.pure, Except.ok.injEq] at hwitness
    subst hwitness
    obtain ⟨after, rfl, haccess⟩ := access_of_materializeOne hone
    refine ⟨planned, image, after, hplanned, haccesses.exact hexact, hroot, haccess,
      witnesses ++ [found], after, ?_, rfl, hrom⟩
    rw [materializeFrom_concat, hrun]
    simp only [hone, bind, Except.bind]

/-- A consistent builder answers with witnesses that the relation takes. -/
def answerer (hconsistent : builder.Consistent sha256) :
    Answerer (.merkle sha256) (List PlannedWitness) where
  answer := (incremental hconsistent.memory).answer
  fits := Fits sha256 builder
  rom {existing next roots address physicalAddress role witness} hfits hanswer := by
    obtain ⟨planned, image, after, hplanned, hexact, hroot, haccess, hnext⟩ :=
      access_of_answer hconsistent.memory hfits hanswer
    cases hplanned
    cases haccess with
    | @rom _ _ read hread =>
      obtain ⟨depth, hrom⟩ := hconsistent.rom
      rw [hroot] at hnext
      refine ⟨hnext, read, rfl, ?_, ?_, ?_⟩
      · rw [(hrom.readMapped_eq_ok hread).2.2]
      · rw [(hrom.readMapped_eq_ok hread).2.2]
      · obtain ⟨_, _, _, _, hromRoot⟩ := hfits
        show (read.derive sha256 roots.romRoot).mapError _ = _
        rw [← hromRoot, hrom.derive_readMapped hread]
        rfl
  memoryRead {existing next roots address physicalAddress witness} hfits hanswer := by
    obtain ⟨planned, image, after, hplanned, hexact, hroot, haccess, hnext⟩ :=
      access_of_answer hconsistent.memory hfits hanswer
    cases hplanned
    cases haccess with
    | @memoryRead _ _ read hread =>
      rw [hroot] at hnext
      refine ⟨hnext, read, rfl, ?_, ?_, ?_⟩
      · rw [(hexact.readMapped_eq_ok hread).2.2]
      · rw [(hexact.readMapped_eq_ok hread).2.2]
      · show (read.derive sha256 roots.memoryRoot).mapError _ = _
        rw [← hroot, hexact.derive_readMapped hread]
        rfl
  memoryWrite {existing next roots address physicalAddress value witness} hfits hanswer := by
    obtain ⟨planned, image, after, hplanned, hexact, hroot, haccess, hnext⟩ :=
      access_of_answer hconsistent.memory hfits hanswer
    cases hplanned
    cases haccess with
    | @memoryWrite _ _ _ write _ hwrite =>
      refine ⟨write, _, hnext, rfl, ?_, ?_, ?_, ?_⟩
      · rw [hexact.writeMapped_eq hwrite]
      · rw [hexact.writeMapped_eq hwrite]
      · rw [hexact.writeMapped_eq hwrite]
        exact Fin.val_ofNat 256 value
      · show ((write.derive sha256 roots.memoryRoot).mapError _ >>= _) = _
        rw [← hroot, (hexact.writeMapped_ok hwrite).2.2]
        rfl
  input {existing next roots witness} hfits hanswer := by
    obtain ⟨planned, image, after, hplanned, hexact, hroot, haccess, hnext⟩ :=
      access_of_answer hconsistent.memory hfits hanswer
    obtain ⟨value, rfl⟩ := Planner.plan_input hplanned
    cases haccess
    rw [hroot] at hnext
    exact ⟨hnext, value, rfl⟩

theorem materializeOne_error {fork : Option MemoryImage} {planned : PlannedWitness}
    {error : TraceBuilderError}
    (h : materializeOne sha256 builder fork planned = .error error) :
    error.plannerInternal = false := by
  have hmap : ∀ {ε α β : Type} {result : Except ε α} {lift : ε → TraceBuilderError}
      {rest : α → Except TraceBuilderError β}, (∀ reason, (lift reason).plannerInternal = false) →
      (∀ value, ∃ next, rest value = .ok next) → result.mapError lift >>= rest = .error error →
      error.plannerInternal = false := by
    intro ε α β result lift rest hlift hrest hbind
    cases result with
    | error reason => exact Except.error.inj hbind ▸ hlift reason
    | ok value =>
      obtain ⟨next, hnext⟩ := hrest value
      have hvalue : rest value = .error error := hbind
      rw [hnext] at hvalue
      cases hvalue
  cases planned with
  | rom | memoryRead =>
    simp only [materializeOne] at h
    exact hmap (fun _ => rfl) (fun _ => ⟨_, rfl⟩) h
  | memoryWrite address physicalAddress value =>
    simp only [materializeOne] at h
    cases fork with
    | none => exact hmap (fun _ => rfl) (fun _ => ⟨_, rfl⟩) h
    | some memory =>
      dsimp only at h
      split at h
      · cases h
      · exact Except.error.inj h ▸ rfl
  | inputByte value => cases h

theorem materializeFrom_error {fork : Option MemoryImage} {plan : List PlannedWitness}
    {error : TraceBuilderError}
    (h : materializeFrom sha256 builder fork plan = .error error) :
    error.plannerInternal = false := by
  induction plan generalizing fork with
  | nil => cases h
  | cons planned plan ih =>
    rw [materializeFrom] at h
    cases hfirst : materializeOne sha256 builder fork planned with
    | error reason =>
      rw [hfirst] at h
      exact Except.error.inj h ▸ materializeOne_error hfirst
    | ok first =>
      rw [hfirst] at h
      simp only [bind, Except.bind, pure, Except.pure] at h
      cases hrest : materializeFrom sha256 builder first.2 plan with
      | error reason =>
        rw [hrest] at h
        cases h
        exact ih hrest
      | ok rest =>
        rw [hrest] at h
        cases h

/-- The commitments of a step do not blame its witnesses. -/
theorem commitStep_error {roots : AuthenticationRoots} {events : List (BusEvent MerklePath)}
    {instruction : DecodedInstruction} {error : StepError}
    (h : commitStep sha256 roots events instruction = .error error) :
    error.blamesWitness = false := by
  rcases commitStep_cases sha256 roots events instruction with
    ⟨found, hfound, _, hblames⟩ | ⟨busTranscript, isaTranscript, hcommit⟩
  · rw [hfound] at h
    exact Except.error.inj h ▸ hblames
  · rw [hcommit] at h
    cases h

/-- A consistent builder plans honestly. -/
def honest (hconsistent : builder.Consistent sha256) :
    Planner.Honest (.merkle sha256) builder.state (incremental hconsistent.memory)
      (fun error => error.plannerInternal = true) where
  answerer := answerer hconsistent
  answer_eq := rfl
  start := ⟨[], builder.memory, rfl, hconsistent.memoryRoot.symm, hconsistent.romRoot.symm⟩
  apply_eq := rfl
  commit := commitStep_error
  step {error} hblames := by
    show ¬ error.blamesWitness = true
    rw [hblames]
    exact Bool.false_ne_true
  plan hplan := by
    rcases Planner.plan_error hplan with rfl | ⟨index, rfl⟩ <;> exact Bool.false_ne_true
  materialize {existing error} hmaterialize := by
    have hrun : builder.materialize sha256 existing = .error error := hmaterialize
    rw [materialize_eq hconsistent.memory] at hrun
    cases hfrom : materializeFrom sha256 builder (some builder.memory) existing with
    | ok ended =>
      rw [hfrom] at hrun
      cases hrun
    | error reason =>
      rw [hfrom] at hrun
      rw [← Except.error.inj hrun, materializeFrom_error hfrom]
      exact Bool.false_ne_true

end Plans

section Steps

theorem appendLogs_roots (events : List (BusEvent MerklePath)) (roots : AuthenticationRoots) :
    (roots.appendLogs sha256 events).romRoot = roots.romRoot ∧
      (roots.appendLogs sha256 events).memoryRoot = roots.memoryRoot := by
  unfold AuthenticationRoots.appendLogs
  induction events generalizing roots with
  | nil => exact ⟨rfl, rfl⟩
  | cons event events ih =>
    rw [List.foldl_cons, (ih _).1, (ih _).2]
    cases event <;> exact ⟨rfl, rfl⟩

/-- The commitments of a step keep the ROM and the memory root. -/
theorem commitStep_roots {roots after : AuthenticationRoots} {events : List (BusEvent MerklePath)}
    {instruction : DecodedInstruction}
    (h : commitStep sha256 roots events instruction = .ok after) :
    after.romRoot = roots.romRoot ∧ after.memoryRoot = roots.memoryRoot := by
  rcases commitStep_cases sha256 roots events instruction with
    ⟨found, hfound, _⟩ | ⟨busTranscript, isaTranscript, hcommit⟩
  · rw [hfound] at h
    cases h
  · rw [hcommit] at h
    obtain rfl := Except.ok.inj h
    exact appendLogs_roots events roots

/-- What a step of a builder did: it planned at most five witnesses, each for what the relation
asked for after those before it; the relation accepted them, and every event used the witness that
was planned for it; the builder is now at the state after the step, and its memory is the one that
the events describe. -/
structure Stepped (sha256 : List Byte → CommitmentRoot) (builder : TraceBuilder) (row : TraceRow)
    (next : TraceBuilder) (existing : List PlannedWitness) (input : List (BusWitness MerklePath)) :
    Prop where
  asked : (builder.planner sha256).Asked existing
  length_le : existing.length ≤ maxWitnessesPerStep
  materialized : builder.materialize sha256 existing = .ok input
  before : row.before = builder.state
  applied : StepRelation.apply sha256 builder.state input = .ok (row.after, row.effects)
  used : row.effects.busEvents.filterMap BusEvent.witness = input
  rom : next.rom = builder.rom
  privateInput : next.privateInput = builder.privateInput
  state : next.state = row.after
  memory : next.memory.checkpointBytes =
    describedMemory builder.memory.checkpointBytes row.effects.busEvents
  memoryRoot : next.memory.root = row.after.roots.memoryRoot

theorem outcome_step (builder : TraceBuilder) :
    outcome (step sha256) builder =
      match (builder.planner sha256).planLoop maxWitnessesPerStep [] with
      | .error error => (.error error, builder)
      | .ok (after, effects) =>
        match outcome (applyImageEffects sha256 effects after.roots.memoryRoot) builder with
        | (.error error, next) => (.error error, next)
        | (.ok (), next) => (.ok ⟨builder.state, after, effects⟩, { next with state := after }) := by
  show outcome (ofExcept ((builder.planner sha256).planLoop maxWitnessesPerStep []) >>= _) builder = _
  rw [outcome_bind]
  cases (builder.planner sha256).planLoop maxWitnessesPerStep [] with
  | error error => rfl
  | ok result =>
    obtain ⟨after, effects⟩ := result
    show outcome (applyImageEffects sha256 effects after.roots.memoryRoot >>= _) builder = _
    rw [outcome_bind]
    dsimp only
    rcases outcome (applyImageEffects sha256 effects after.roots.memoryRoot) builder with
      ⟨_ | _, next⟩ <;> rfl

/-- The writes of an accepted step are entered into the memory, which then has the root of the
step. -/
theorem outcome_applyImageEffects {effects : StepEffects MerklePath} {expectedRoot : CommitmentRoot}
    {next : TraceBuilder}
    (hevents : outcome (applyEvents sha256 effects.busEvents) builder = (.ok (), next))
    (hroot : next.memory.root = expectedRoot) :
    outcome (applyImageEffects sha256 effects expectedRoot) builder = (.ok (), next) := by
  unfold applyImageEffects
  rw [outcome_bind, hevents]
  show outcome (if next.memory.root ≠ expectedRoot then _ else _) next = _
  rw [if_neg (not_not_intro hroot)]
  rfl

/-- A step whose plan loop ends with a result succeeds as described and stays consistent. -/
theorem step_of_planLoop (hconsistent : builder.Consistent sha256) {after : AuthenticatedState}
    {effects : StepEffects MerklePath}
    (hloop : (builder.planner sha256).planLoop maxWitnessesPerStep [] = .ok (after, effects)) :
    ∃ next existing input,
      outcome (step sha256) builder = (.ok ⟨builder.state, after, effects⟩, next) ∧
      Stepped sha256 builder ⟨builder.state, after, effects⟩ next existing input ∧
      next.Consistent sha256 := by
  have hends := (honest hconsistent).ends
  rw [hloop] at hends
  cases hends with
  | @planned existing input _ hplanned =>
    obtain ⟨roots, ⟨witnesses, image, hrun, hroot, hrom⟩, hcommit⟩ := hplanned.fits
    obtain ⟨hromRoot, hmemoryRoot⟩ := commitStep_roots hcommit
    have hused := Step.witnesses_of_apply (applyAuthenticated_ok hplanned.applied)
    have hmaterialized : builder.materialize sha256 existing = .ok input := hplanned.materialized
    obtain ⟨_, himage, haccesses⟩ := accesses_of_materializeFrom hrun
    cases himage
    rw [materialize_eq hconsistent.memory, hrun] at hmaterialized
    cases hmaterialized
    obtain ⟨heffects, hdescribed⟩ :=
      @outcome_applyEvents sha256 builder _ _ hconsistent.memory _ _ haccesses _ hused
    have hafter : image.root = after.roots.memoryRoot := hroot.trans hmemoryRoot.symm
    refine ⟨⟨builder.rom, image, builder.privateInput, after⟩, existing, witnesses, ?_, ?_, ?_⟩
    · rw [outcome_step, hloop]
      simp only [outcome_applyImageEffects heffects hafter]
    · exact ⟨hplanned.asked, hplanned.length_le, hplanned.materialized, rfl, hplanned.applied, hused,
        rfl, rfl, rfl, hdescribed, hafter⟩
    · exact ⟨hconsistent.rom, hromRoot.trans hrom.symm, haccesses.exact hconsistent.memory,
        hafter.symm⟩

/-- A step of a consistent builder: it succeeds as described and stays consistent, or it fails for a
reason that is not internal to the planner and changes nothing. -/
theorem step_cases (hconsistent : builder.Consistent sha256) :
    (∃ error, outcome (step sha256) builder = (.error error, builder) ∧
      error.plannerInternal = false) ∨
    ∃ row next existing input, outcome (step sha256) builder = (.ok row, next) ∧
      Stepped sha256 builder row next existing input ∧ next.Consistent sha256 := by
  have hends := (honest hconsistent).ends
  cases hloop : (builder.planner sha256).planLoop maxWitnessesPerStep [] with
  | error error =>
    rw [hloop] at hends
    cases hends with
    | rejected herror =>
      refine .inl ⟨error, ?_, Bool.eq_false_iff.mpr herror⟩
      rw [outcome_step, hloop]
  | ok result => exact .inr ⟨_, step_of_planLoop hconsistent hloop⟩

/-- The plan loop of a successful step ends with the result of the step. -/
theorem planLoop_of_step {row : TraceRow} {next : TraceBuilder}
    (hstep : Accepts (step sha256) builder row next) :
    (builder.planner sha256).planLoop maxWitnessesPerStep [] = .ok (row.after, row.effects) := by
  rw [Accepts, outcome_step] at hstep
  cases hloop : (builder.planner sha256).planLoop maxWitnessesPerStep [] with
  | error error =>
    rw [hloop] at hstep
    cases hstep
  | ok result =>
    obtain ⟨after, effects⟩ := result
    simp only [hloop] at hstep
    cases happlied : outcome (applyImageEffects sha256 effects after.roots.memoryRoot) builder with
    | mk ended builder' =>
      rw [happlied] at hstep
      cases ended with
      | error error => cases hstep
      | ok value =>
        cases hstep
        rfl

end Steps

end TraceBuilder

end Zksm83
