import Zksm83.Core.StepLogic
import Zksm83.Library.Dialogue

/-!
# Steps with honest witnesses

Who answers the witness requests of a step from the bytes of the machine, with witnesses that the
machine takes, gets through the step with at most five answers: the step is accepted with nothing
left over, or it is rejected for a reason of the machine, never for a witness.
-/

namespace Zksm83

open Rejecting BusState

variable {π τ μ : Type}

/-- The bus with other witnesses. -/
def BusState.stocked (state : BusState π τ) (witnesses : List (BusWitness π)) : BusState π τ :=
  { state with witnesses := witnesses }

/-- Who answers from a memory with witnesses that a machine takes. -/
structure Answerer (authentication : BusAuthentication π τ) (μ : Type) where
  answer : μ → WitnessRequest → Option (BusWitness π × μ)
  fits : μ → τ → Prop
  rom : ∀ {memory next : μ} {roots : τ} {address physicalAddress : ℕ} {role : BusRole}
    {witness : BusWitness π}, fits memory roots →
    answer memory (.rom address physicalAddress role) = some (witness, next) →
    fits next roots ∧ ∃ read, witness = .rom read ∧ read.address = address ∧
      read.physicalAddress = physicalAddress ∧ authentication.verifyRom roots read = .ok ()
  memoryRead : ∀ {memory next : μ} {roots : τ} {address physicalAddress : ℕ}
    {witness : BusWitness π}, fits memory roots →
    answer memory (.memoryRead address physicalAddress) = some (witness, next) →
    fits next roots ∧ ∃ read, witness = .memoryRead read ∧ read.address = address ∧
      read.physicalAddress = physicalAddress ∧ authentication.verifyRead roots read = .ok ()
  memoryWrite : ∀ {memory next : μ} {roots : τ} {address physicalAddress value : ℕ}
    {witness : BusWitness π}, fits memory roots →
    answer memory (.memoryWrite address physicalAddress value) = some (witness, next) →
    ∃ write roots', fits next roots' ∧ witness = .memoryWrite write ∧ write.address = address ∧
      write.physicalAddress = physicalAddress ∧ (write.after : ℕ) = value % 256 ∧
      authentication.verifyWrite roots write = .ok roots'
  input : ∀ {memory next : μ} {roots : τ} {witness : BusWitness π}, fits memory roots →
    answer memory .inputByte = some (witness, next) →
    fits next roots ∧ ∃ value, witness = .inputByte value

namespace Answerer

variable {authentication : BusAuthentication π τ} (answerer : Answerer authentication μ)

/-- The bus asks for its witnesses. -/
def onBus : Respondent StepError (BusState π τ) WitnessRequest (BusWitness π) μ where
  stock := stocked
  missing := .missingWitness
  blames error := error.blamesWitness = true
  answer := answerer.answer
  fits memory state := answerer.fits memory state.roots

variable {answerer} in
/-- An access that takes one witness. -/
theorem takes {α : Type} {post : α → Prop} {action : BusAction π τ α} (request : WitnessRequest)
    (hempty : ∀ state : BusState π τ,
      settled (outcome action (state.stocked [])) = .error (.missingWitness request))
    (htakes : ∀ {memory next : μ} {witness : BusWitness π} {state : BusState π τ},
      answerer.fits memory state.roots → answerer.answer memory request = some (witness, next) →
      ∃ (value : α) (after : BusState π τ), post value ∧ answerer.fits next after.roots ∧
        ∀ witnesses,
        Accepts action (state.stocked (witness :: witnesses)) value (after.stocked witnesses)) :
    answerer.onBus.Answers 1 post action := by
  intro memory state hfits
  refine .asks request (hempty state) (fun witness next hanswer => ?_)
  obtain ⟨value, after, hpost, hafter, haccepts⟩ := htakes hfits hanswer
  refine .accepted value after (fun witnesses => ?_) hpost hafter
  exact settled_eq_ok.mpr (haccepts witnesses)

theorem takeRomRead (address physicalAddress : ℕ) (role : BusRole) :
    answerer.onBus.Answers 1 (fun _ => True)
      (BusState.takeRomRead authentication address physicalAddress role) := by
  refine takes (.rom address physicalAddress role) (fun _ => rfl) ?_
  intro memory next witness state hfits hanswer
  obtain ⟨hnext, read, rfl, haddress, hphysical, hverify⟩ := answerer.rom hfits hanswer
  refine ⟨read, state, trivial, hnext, fun witnesses => ?_⟩
  exact (accepts_takeRomRead _ _ _ _).mpr
    ⟨witnesses, rfl, haddress, hphysical, hverify, rfl⟩

theorem takeMemoryRead (address physicalAddress : ℕ) (role : BusRole) :
    answerer.onBus.Answers 1 (fun _ => True)
      (BusState.takeMemoryRead authentication address physicalAddress role) := by
  refine takes (.memoryRead address physicalAddress) (fun _ => rfl) ?_
  intro memory next witness state hfits hanswer
  obtain ⟨hnext, read, rfl, haddress, hphysical, hverify⟩ := answerer.memoryRead hfits hanswer
  refine ⟨read, state, trivial, hnext, fun witnesses => ?_⟩
  exact (accepts_takeMemoryRead _ _ _ _).mpr
    ⟨witnesses, rfl, haddress, hphysical, hverify, rfl⟩

theorem replaceByte (address physicalAddress value : ℕ) :
    answerer.onBus.Answers 1 (fun _ => True)
      (BusState.replaceByte authentication address physicalAddress value) := by
  refine takes (.memoryWrite address physicalAddress value) (fun _ => rfl) ?_
  intro memory next witness state hfits hanswer
  obtain ⟨write, roots, hnext, rfl, haddress, hphysical, hvalue, hverify⟩ :=
    answerer.memoryWrite hfits hanswer
  refine ⟨write, { state with roots := roots }, trivial, hnext, fun witnesses => ?_⟩
  unfold BusState.replaceByte
  simp only [accepts_bind, accepts_takeMemoryWrite, accepts_verifyWrite, accepts_pure]
  exact ⟨write, _, ⟨witnesses, rfl, haddress, hphysical, hvalue, rfl⟩, (), _,
    ⟨roots, hverify, rfl⟩, rfl, rfl⟩

theorem nextInput :
    answerer.onBus.Answers 1 (fun witness => ∃ value, witness = .inputByte value)
      (BusState.next .inputByte : BusAction π τ (BusWitness π)) := by
  refine takes .inputByte (fun _ => rfl) ?_
  intro memory next witness state hfits hanswer
  obtain ⟨hnext, value, rfl⟩ := answerer.input hfits hanswer
  refine ⟨.inputByte value, state, ⟨value, rfl⟩, hnext, fun witnesses => ?_⟩
  exact (accepts_next _ _).mpr ⟨witnesses, rfl, rfl, rfl⟩

/-- The relation of the bus rules. -/
def busLogic : BusLogic authentication authentication where
  path := id
  Related count values action _ :=
    answerer.onBus.Answers count (fun value => ∃ other, values value other) action
  pure hvalues := .pure ⟨_, hvalues⟩
  throw herror := .throw (by simp [onBus, herror])
  bind hfirst hrest := hfirst.bind (fun value hvalue => hvalue.elim (hrest value))
  get_bind hsame hrest :=
    .get_bind (fun _ _ => hsame _ _ rfl) (fun state => hrest state state rfl)
  changeView change := .modify ⟨_, rfl⟩ (fun _ _ => rfl) (fun hfits => hfits)
  pushEvent event := .modify ⟨_, rfl⟩ (fun _ _ => rfl) (fun hfits => hfits)
  takeRomRead address physicalAddress role :=
    (answerer.takeRomRead address physicalAddress role).weaken (fun _ => ⟨_, rfl⟩)
  takeMemoryRead address physicalAddress role :=
    (answerer.takeMemoryRead address physicalAddress role).weaken (fun _ => ⟨_, rfl⟩)
  replaceByte address physicalAddress value :=
    (answerer.replaceByte address physicalAddress value).weaken (fun _ => ⟨_, rfl⟩)
  nextInput := by
    refine answerer.nextInput.weaken (fun {witness} hwitness => ?_)
    obtain ⟨value, rfl⟩ := hwitness
    exact ⟨_, value, rfl, rfl⟩

/-- The actions of a step ask for their witnesses. -/
def onStep : Respondent StepError (Executor (BusState π τ)) WitnessRequest (BusWitness π) μ where
  stock executor witnesses := { executor with bus := executor.bus.stocked witnesses }
  missing := .missingWitness
  blames error := error.blamesWitness = true
  answer := answerer.answer
  fits memory executor := answerer.fits memory executor.bus.roots

/-- The relation of the step rules. -/
def stepLogic : StepLogic authentication authentication where
  Related count action _ := answerer.onStep.Answers count (fun _ => True) action
  pure _ := .pure trivial
  throw herror := .throw (by simp [onStep, herror])
  bind hfirst hrest := hfirst.bind (fun value _ => hrest value)
  cpu := .get_bind (fun _ _ => rfl) (fun _ => .pure trivial)
  modifyCpu change := .modify trivial (fun _ _ => rfl) (fun hfits => hfits)
  bus := answerer.busLogic
  onBus {_ _ action _} h := by
    intro memory executor hfits
    have hrun : answerer.onStep.answered (Exec.onBus action) executor =
        fun witnesses => answerer.onBus.answered action executor.bus witnesses >>= fun ended =>
          .ok (ended.1, { executor with bus := ended.2 }) :=
      funext (fun witnesses => Exec.settled_onBus action _)
    rw [hrun]
    refine ((h memory executor.bus hfits).weaken (fun _ => trivial)).embed ?_ rfl rfl rfl ?_
    · exact fun _ _ => rfl
    · exact fun hbus => hbus

/-- The action of a step gets through with at most five answers. -/
theorem converges_chosen (state : VmState) {roots : τ} {memory : μ}
    (hfits : answerer.fits memory roots) :
    answerer.onStep.Converges (fun _ => True) 5 memory (fun witnesses =>
      settled (outcome (Step.chosen authentication state) (Step.start state roots witnesses))) :=
  answerer.stepLogic.chosen state memory (Step.start state roots []) hfits

end Answerer

end Zksm83
