import Zksm83.Core.Bus

/-!
# Relational rules of the bus

Facts that compare two runs of the bus, or that follow one run through it, have one shape: a
relation between actions that holds of the accesses to witnesses and composes along sequences. The
grade of the relation bounds how many witnesses the actions ask for. `BusLogic` lists what has to be
proved of such a relation; every access of the machine then has it.
-/

namespace Zksm83

open Rejecting

section Paths

variable {π₁ π₂ : Type} (path : π₁ → π₂)

def RomRead.mapPath (read : RomRead π₁) : RomRead π₂ :=
  ⟨read.address, read.physicalAddress, read.value, path read.path⟩

def MemoryRead.mapPath (read : MemoryRead π₁) : MemoryRead π₂ :=
  ⟨read.address, read.physicalAddress, read.value, path read.path⟩

def MemoryWrite.mapPath (write : MemoryWrite π₁) : MemoryWrite π₂ :=
  ⟨write.address, write.physicalAddress, write.before, write.after, path write.path⟩

def BusWitness.mapPath : BusWitness π₁ → BusWitness π₂
  | .rom read => .rom (read.mapPath path)
  | .memoryRead read => .memoryRead (read.mapPath path)
  | .memoryWrite write => .memoryWrite (write.mapPath path)
  | .inputByte value => .inputByte value

/-- An event with its path replaced. -/
def BusEvent.mapPath : BusEvent π₁ → BusEvent π₂
  | .opcodeFetch read => .opcodeFetch (read.mapPath path)
  | .immediateRead read => .immediateRead (read.mapPath path)
  | .memoryOpcodeFetch read => .memoryOpcodeFetch (read.mapPath path)
  | .memoryImmediateRead read => .memoryImmediateRead (read.mapPath path)
  | .romRead read => .romRead (read.mapPath path)
  | .memoryRead read => .memoryRead (read.mapPath path)
  | .dmgDmaRomRead read => .dmgDmaRomRead (read.mapPath path)
  | .dmgDmaMemoryRead read => .dmgDmaMemoryRead (read.mapPath path)
  | .dmgDmaWrite write => .dmgDmaWrite (write.mapPath path)
  | .memoryWrite write => .memoryWrite (write.mapPath path)
  | .mbc3ControlWrite address value => .mbc3ControlWrite address value
  | .mbc3OpenBusRead address value => .mbc3OpenBusRead address value
  | .mbc3IgnoredWrite address value => .mbc3IgnoredWrite address value
  | .inputRead index value => .inputRead index value
  | .outputWrite index value => .outputWrite index value
  | .dmgMmioRead address value => .dmgMmioRead address value
  | .dmgMmioWrite address before value => .dmgMmioWrite address before value
  | .dmgJoypadRead index beforeButtons buttons value =>
    .dmgJoypadRead index beforeButtons buttons value

end Paths

/-- What an access reads of the bus besides the witnesses and the roots. -/
structure BusView where
  profile : MachineProfile
  mbc3 : Mbc3State
  dmgDevices : DmgDeviceState
  inputNext : ℕ
  outputNext : ℕ

namespace BusState

variable {π τ : Type}

def view (state : BusState π τ) : BusView :=
  ⟨state.profile, state.mbc3, state.dmgDevices, state.inputNext, state.outputNext⟩

def withView (state : BusState π τ) (view : BusView) : BusState π τ :=
  { state with
    profile := view.profile
    mbc3 := view.mbc3
    dmgDevices := view.dmgDevices
    inputNext := view.inputNext
    outputNext := view.outputNext }

/-- A change of what an access reads of the bus. -/
def changeView (change : BusView → BusView) : BusAction π τ Unit :=
  modify (fun state => state.withView (change state.view))

/-- A write witness, taken and verified. -/
def replaceByte (authentication : BusAuthentication π τ) (address physicalAddress value : ℕ) :
    BusAction π τ (MemoryWrite π) := do
  let write ← takeMemoryWrite address physicalAddress value
  verifyWrite authentication write
  return write

end BusState

/-- A rejection that blames a witness: it is missing, surplus, of the wrong kind, or not the one
that was asked for. -/
def StepError.blamesWitness : StepError → Bool
  | .missingWitness _ | .unexpectedWitness _ _ | .witnessKindInvariant | .surplusWitnesses _
  | .romAuthentication _ | .memoryAuthentication _ | .addressMismatch _ _ _
  | .physicalAddressMismatch _ _ _ | .writeValueMismatch _ _ => true
  | _ => false

/-- A relation between actions of two buses, graded by the witnesses that they ask for. -/
structure BusLogic {π₁ τ₁ π₂ τ₂ : Type} (first : BusAuthentication π₁ τ₁)
    (second : BusAuthentication π₂ τ₂) where
  path : π₁ → π₂
  Related : ∀ {α β : Type}, ℕ → (α → β → Prop) → BusState.BusAction π₁ τ₁ α →
    BusState.BusAction π₂ τ₂ β → Prop
  pure : ∀ {α β : Type} {values : α → β → Prop} {value : α} {other : β} {count : ℕ},
    values value other → Related count values (Pure.pure value) (Pure.pure other)
  throw : ∀ {α β : Type} {values : α → β → Prop} {error : StepError} {count : ℕ},
    error.blamesWitness = false → Related count values (MonadExcept.throw error)
      (MonadExcept.throw error)
  bind : ∀ {α β α' β' : Type} {values : α → β → Prop} {values' : α' → β' → Prop}
    {action : BusState.BusAction π₁ τ₁ α} {other : BusState.BusAction π₂ τ₂ β}
    {continuation : α → BusState.BusAction π₁ τ₁ α'}
    {continuation' : β → BusState.BusAction π₂ τ₂ β'} {count more : ℕ},
    Related count values action other →
    (∀ value value', values value value' →
      Related more values' (continuation value) (continuation' value')) →
    Related (more + count) values' (action >>= continuation) (other >>= continuation')
  get_bind : ∀ {α β : Type} {values : α → β → Prop}
    {continuation : BusState π₁ τ₁ → BusState.BusAction π₁ τ₁ α}
    {continuation' : BusState π₂ τ₂ → BusState.BusAction π₂ τ₂ β} {count : ℕ},
    (∀ state state', state.view = state'.view → continuation state = continuation state') →
    (∀ state state', state.view = state'.view →
      Related count values (continuation state) (continuation' state')) →
    Related count values (get >>= continuation) (get >>= continuation')
  changeView : ∀ {count : ℕ} (change : BusView → BusView),
    Related count Eq (BusState.changeView change) (BusState.changeView change)
  pushEvent : ∀ {count : ℕ} (event : BusEvent π₁),
    Related count Eq (BusState.pushEvent event) (BusState.pushEvent (event.mapPath path))
  takeRomRead : ∀ (address physicalAddress : ℕ) (role : BusRole),
    Related 1 (fun read read' => read' = read.mapPath path)
      (BusState.takeRomRead first address physicalAddress role)
      (BusState.takeRomRead second address physicalAddress role)
  takeMemoryRead : ∀ (address physicalAddress : ℕ) (role : BusRole),
    Related 1 (fun read read' => read' = read.mapPath path)
      (BusState.takeMemoryRead first address physicalAddress role)
      (BusState.takeMemoryRead second address physicalAddress role)
  replaceByte : ∀ address physicalAddress value : ℕ,
    Related 1 (fun write write' => write' = write.mapPath path)
      (BusState.replaceByte first address physicalAddress value)
      (BusState.replaceByte second address physicalAddress value)
  nextInput : Related 1 (fun witness witness' => ∃ value,
      witness = .inputByte value ∧ witness' = .inputByte value)
    (BusState.next .inputByte) (BusState.next .inputByte)

namespace BusLogic

open BusState

variable {π₁ τ₁ π₂ τ₂ : Type} {first : BusAuthentication π₁ τ₁} {second : BusAuthentication π₂ τ₂}
  (logic : BusLogic first second) {α β α' β' : Type} {count more : ℕ}

/-- An action that asks for no witness, and the rest. -/
theorem local_bind {values : α → β → Prop} {values' : α' → β' → Prop}
    {action : BusAction π₁ τ₁ α} {other : BusAction π₂ τ₂ β}
    {continuation : α → BusAction π₁ τ₁ α'} {continuation' : β → BusAction π₂ τ₂ β'}
    (hfirst : logic.Related 0 values action other)
    (hrest : ∀ value value', values value value' →
      logic.Related count values' (continuation value) (continuation' value')) :
    logic.Related count values' (action >>= continuation) (other >>= continuation') :=
  logic.bind hfirst hrest

/-- An action that asks for one witness, and the rest. -/
theorem access_bind {values : α → β → Prop} {values' : α' → β' → Prop}
    {action : BusAction π₁ τ₁ α} {other : BusAction π₂ τ₂ β}
    {continuation : α → BusAction π₁ τ₁ α'} {continuation' : β → BusAction π₂ τ₂ β'}
    (hfirst : logic.Related 1 values action other)
    (hrest : ∀ value value', values value value' →
      logic.Related count values' (continuation value) (continuation' value')) :
    logic.Related (count + 1) values' (action >>= continuation) (other >>= continuation') :=
  logic.bind hfirst hrest

/-- A rejection, and a rest that is not reached. -/
theorem throw_bind {values' : α' → β' → Prop} {error : StepError}
    {continuation : α → BusAction π₁ τ₁ α'} {continuation' : β → BusAction π₂ τ₂ β'}
    (herror : error.blamesWitness = false) :
    logic.Related count values' (MonadExcept.throw error >>= continuation)
      (MonadExcept.throw error >>= continuation') :=
  @local_bind _ _ _ _ _ _ logic _ _ _ _ _ (fun _ _ => False) _ _ _ _ _ (logic.throw herror)
    (fun _ _ h => h.elim)

/-- A change of the devices, the mapper or the log cursors, and the rest. -/
theorem change_bind {values' : α' → β' → Prop} {change : BusState π₁ τ₁ → BusState π₁ τ₁}
    {change' : BusState π₂ τ₂ → BusState π₂ τ₂} {continuation : Unit → BusAction π₁ τ₁ α'}
    {continuation' : Unit → BusAction π₂ τ₂ β'} (view : BusView → BusView)
    (hchange : ∀ state, change state = state.withView (view state.view))
    (hchange' : ∀ state, change' state = state.withView (view state.view))
    (hrest : logic.Related count values' (continuation ()) (continuation' ())) :
    logic.Related count values' (modify change >>= continuation)
      (modify change' >>= continuation') := by
  rw [funext hchange, funext hchange']
  exact logic.local_bind (logic.changeView view) (fun _ _ _ => hrest)

/-- An event, and the rest. -/
theorem event_bind {values' : α' → β' → Prop} {continuation : Unit → BusAction π₁ τ₁ α'}
    {continuation' : Unit → BusAction π₂ τ₂ β'} (event : BusEvent π₁)
    (hrest : logic.Related count values' (continuation ()) (continuation' ())) :
    logic.Related count values' (BusState.pushEvent event >>= continuation)
      (BusState.pushEvent (event.mapPath logic.path) >>= continuation') :=
  logic.local_bind (logic.pushEvent event) (fun _ _ _ => hrest)

/-- Both runs read the same view of the bus. -/
theorem view_bind {values : α → β → Prop}
    {continuation : BusState π₁ τ₁ → BusAction π₁ τ₁ α}
    {continuation' : BusState π₂ τ₂ → BusAction π₂ τ₂ β}
    (hsame : ∀ (view : BusView) (roots other : τ₁) (witnesses rest : List (BusWitness π₁))
      (events more : List (BusEvent π₁)),
      continuation ⟨view.profile, view.mbc3, view.dmgDevices, view.inputNext, view.outputNext,
          roots, witnesses, events⟩ =
        continuation ⟨view.profile, view.mbc3, view.dmgDevices, view.inputNext, view.outputNext,
          other, rest, more⟩)
    (hrest : ∀ (view : BusView) (roots : τ₁) (roots' : τ₂) (witnesses : List (BusWitness π₁))
      (witnesses' : List (BusWitness π₂)) (events : List (BusEvent π₁))
      (events' : List (BusEvent π₂)), logic.Related count values
        (continuation ⟨view.profile, view.mbc3, view.dmgDevices, view.inputNext, view.outputNext,
          roots, witnesses, events⟩)
        (continuation' ⟨view.profile, view.mbc3, view.dmgDevices, view.inputNext, view.outputNext,
          roots', witnesses', events'⟩)) :
    logic.Related count values (get >>= continuation) (get >>= continuation') := by
  refine logic.get_bind (fun state other hview => ?_) (fun state state' hview => ?_)
  · obtain ⟨profile, mbc3, dmgDevices, inputNext, outputNext, roots, witnesses, events⟩ := state
    obtain ⟨_, _, _, _, _, roots', witnesses', events'⟩ := other
    cases hview
    exact hsame ⟨profile, mbc3, dmgDevices, inputNext, outputNext⟩ _ _ _ _ _ _
  · obtain ⟨profile, mbc3, dmgDevices, inputNext, outputNext, roots, witnesses, events⟩ := state
    obtain ⟨_, _, _, _, _, roots', witnesses', events'⟩ := state'
    cases hview
    exact hrest ⟨profile, mbc3, dmgDevices, inputNext, outputNext⟩ _ _ _ _ _ _

theorem requireCpuDmaAccess (address : ℕ) :
    logic.Related 0 (fun _ _ => True) (BusState.requireCpuDmaAccess address)
      (BusState.requireCpuDmaAccess address) := by
  refine logic.view_bind (fun _ _ _ _ _ _ _ => rfl) (fun view _ _ _ _ _ _ => ?_)
  dsimp only
  split
  · exact logic.throw rfl
  · exact logic.pure trivial

theorem requireCpuPpuAccess (address : ℕ) :
    logic.Related 0 (fun _ _ => True) (BusState.requireCpuPpuAccess address)
      (BusState.requireCpuPpuAccess address) := by
  refine logic.view_bind (fun _ _ _ _ _ _ _ => rfl) (fun view _ _ _ _ _ _ => ?_)
  dsimp only
  split
  · exact logic.throw rfl
  · exact logic.pure trivial

theorem nextIndex (index : ℕ) :
    logic.Related 0 Eq (BusState.nextIndex index) (BusState.nextIndex index) := by
  unfold BusState.nextIndex
  split
  · exact logic.pure rfl
  · exact logic.throw rfl

theorem fetch (address : ℕ) {role : BusRole} :
    logic.Related 1 Eq (BusState.fetch first address role)
      (BusState.fetch second address role) := by
  refine logic.view_bind (fun _ _ _ _ _ _ _ => rfl) (fun view _ _ _ _ _ _ => ?_)
  refine logic.access_bind (logic.takeRomRead _ _ _) ?_
  rintro read _ rfl
  cases role with
  | opcodeFetch => exact logic.event_bind (.opcodeFetch read) (logic.pure rfl)
  | immediateRead => exact logic.event_bind (.immediateRead read) (logic.pure rfl)
  | dataRead => exact logic.event_bind (.romRead read) (logic.pure rfl)
  | dataWrite => exact logic.throw_bind rfl

theorem readMemory (address physicalAddress : ℕ) :
    logic.Related 1 Eq (BusState.readMemory first address physicalAddress)
      (BusState.readMemory second address physicalAddress) := by
  refine logic.access_bind (logic.takeMemoryRead _ _ _) ?_
  rintro read _ rfl
  exact logic.event_bind (.memoryRead read) (logic.pure rfl)

theorem readInstructionMemory (address : ℕ) (role : BusRole) :
    logic.Related 1 Eq (BusState.readInstructionMemory first address role)
      (BusState.readInstructionMemory second address role) := by
  refine logic.access_bind (logic.takeMemoryRead _ _ _) ?_
  rintro read _ rfl
  cases role with
  | opcodeFetch => exact logic.event_bind (.memoryOpcodeFetch read) (logic.pure rfl)
  | immediateRead => exact logic.event_bind (.memoryImmediateRead read) (logic.pure rfl)
  | dataRead | dataWrite => exact logic.throw_bind rfl

/-- A write takes and verifies its witness and lists it. -/
theorem writeMemory_eq {π τ : Type} (authentication : BusAuthentication π τ)
    (address physicalAddress value : ℕ) :
    BusState.writeMemory authentication address physicalAddress value =
      BusState.replaceByte authentication address physicalAddress value >>= fun write =>
        BusState.pushEvent (.memoryWrite write) := by
  simp only [BusState.writeMemory, BusState.replaceByte, bind_assoc, pure_bind]

theorem writeMemory (address physicalAddress value : ℕ) :
    logic.Related 1 Eq (BusState.writeMemory first address physicalAddress value)
      (BusState.writeMemory second address physicalAddress value) := by
  rw [writeMemory_eq, writeMemory_eq]
  refine logic.access_bind (logic.replaceByte _ _ _) ?_
  rintro write _ rfl
  exact logic.pushEvent (.memoryWrite write)

theorem readInput : logic.Related 1 Eq BusState.readInput BusState.readInput := by
  refine logic.access_bind logic.nextInput ?_
  rintro _ _ ⟨value, rfl, rfl⟩
  refine logic.view_bind (fun _ _ _ _ _ _ _ => rfl) (fun view _ _ _ _ _ _ => ?_)
  refine logic.local_bind (logic.nextIndex _) ?_
  rintro advanced _ rfl
  refine logic.change_bind (fun view => { view with inputNext := advanced }) (fun _ => rfl)
    (fun _ => rfl) ?_
  exact logic.event_bind (.inputRead view.inputNext value) (logic.pure rfl)

theorem readDmgMmio (address : ℕ) :
    logic.Related count Eq (BusState.readDmgMmio address) (BusState.readDmgMmio address) := by
  refine logic.view_bind (fun _ _ _ _ _ _ _ => rfl) (fun view _ _ _ _ _ _ => ?_)
  dsimp only
  cases view.dmgDevices.readMmio address with
  | some value => exact logic.event_bind (.dmgMmioRead address value) (logic.pure rfl)
  | none => exact logic.throw rfl

theorem readDmgJoypad : logic.Related 1 Eq BusState.readDmgJoypad BusState.readDmgJoypad := by
  refine logic.access_bind logic.nextInput ?_
  rintro _ _ ⟨buttons, rfl, rfl⟩
  refine logic.view_bind (fun _ _ _ _ _ _ _ => rfl) (fun view _ _ _ _ _ _ => ?_)
  refine logic.local_bind (logic.nextIndex _) ?_
  rintro advanced _ rfl
  refine logic.change_bind (fun current => { current with
    dmgDevices := (view.dmgDevices.sampleJoypad buttons).2, inputNext := advanced })
    (fun _ => rfl) (fun _ => rfl) ?_
  exact logic.event_bind (.dmgJoypadRead view.inputNext view.dmgDevices.joypadButtons buttons
    (view.dmgDevices.sampleJoypad buttons).1) (logic.pure rfl)

theorem writeDmgMmio (address value : ℕ) :
    logic.Related count Eq (BusState.writeDmgMmio address value)
      (BusState.writeDmgMmio address value) := by
  refine logic.view_bind (fun _ _ _ _ _ _ _ => rfl) (fun view _ _ _ _ _ _ => ?_)
  dsimp only
  cases view.dmgDevices.writeMmio address value with
  | none => exact logic.throw rfl
  | some written =>
    obtain ⟨before, devices⟩ := written
    refine logic.change_bind (fun current => { current with dmgDevices := devices })
      (fun _ => rfl) (fun _ => rfl) ?_
    exact logic.pushEvent (.dmgMmioWrite address before value)

theorem writeOutput (value : ℕ) :
    logic.Related count Eq (BusState.writeOutput value) (BusState.writeOutput value) := by
  refine logic.view_bind (fun _ _ _ _ _ _ _ => rfl) (fun view _ _ _ _ _ _ => ?_)
  refine logic.local_bind (logic.nextIndex _) ?_
  rintro advanced _ rfl
  refine logic.change_bind (fun current => { current with outputNext := advanced })
    (fun _ => rfl) (fun _ => rfl) ?_
  exact logic.pushEvent (.outputWrite view.outputNext value)

theorem fetchInstruction (address : ℕ) (role : BusRole) :
    logic.Related 1 Eq (BusState.fetchInstruction first address role)
      (BusState.fetchInstruction second address role) := by
  refine logic.local_bind (logic.requireCpuDmaAccess address) (fun _ _ _ => ?_)
  refine logic.local_bind (logic.requireCpuPpuAccess address) (fun _ _ _ => ?_)
  refine logic.view_bind (fun _ _ _ _ _ _ _ => rfl) (fun view _ _ _ _ _ _ => ?_)
  unfold BusState.ownerOf
  dsimp only
  generalize (if view.profile.isDmgPostBootMbc3 = true then dmgOwner address
    else owner address) = owned
  cases owned with
  | rom => exact logic.fetch address
  | memory => exact logic.readInstructionMemory address role
  | input | output | dmgMmio | dmgEcho | unowned => exact logic.throw rfl

theorem readExternal (address : ℕ) :
    logic.Related 1 Eq (BusState.readExternal first address)
      (BusState.readExternal second address) := by
  refine logic.view_bind (fun _ _ _ _ _ _ _ => rfl) (fun view _ _ _ _ _ _ => ?_)
  unfold BusState.externalWindow
  dsimp only
  cases view.mbc3.externalWindowFor view.profile.mbc3CartridgeProfile address with
  | ram physicalAddress => exact logic.readMemory address physicalAddress
  | rtcRegister select => exact logic.throw rfl
  | unavailable => exact logic.event_bind (.mbc3OpenBusRead address 0xff) (logic.pure rfl)

theorem readData (address : ℕ) :
    logic.Related 1 Eq (BusState.readData first address) (BusState.readData second address) := by
  refine logic.local_bind (logic.requireCpuDmaAccess address) (fun _ _ _ => ?_)
  refine logic.local_bind (logic.requireCpuPpuAccess address) (fun _ _ _ => ?_)
  refine logic.view_bind (fun _ _ _ _ _ _ _ => rfl) (fun view _ _ _ _ _ _ => ?_)
  unfold BusState.ownerOf
  dsimp only
  split
  · exact logic.readDmgJoypad
  split
  · exact logic.readExternal address
  generalize (if view.profile.isDmgPostBootMbc3 = true then dmgOwner address
    else owner address) = owned
  cases owned with
  | rom => exact logic.fetch address
  | memory => exact logic.readMemory address address
  | input => exact logic.readInput
  | dmgMmio => exact logic.readDmgMmio address
  | output | dmgEcho | unowned => exact logic.throw rfl

theorem writeExternal (address value : ℕ) :
    logic.Related 1 Eq (BusState.writeExternal first address value)
      (BusState.writeExternal second address value) := by
  refine logic.view_bind (fun _ _ _ _ _ _ _ => rfl) (fun view _ _ _ _ _ _ => ?_)
  unfold BusState.externalWindow
  dsimp only
  cases view.mbc3.externalWindowFor view.profile.mbc3CartridgeProfile address with
  | ram physicalAddress => exact logic.writeMemory address physicalAddress value
  | rtcRegister select => exact logic.throw rfl
  | unavailable => exact logic.pushEvent (.mbc3IgnoredWrite address value)

theorem writeControl (address value : ℕ) :
    logic.Related count Eq (BusState.writeControl address value)
      (BusState.writeControl address value) := by
  refine logic.change_bind (fun view => { view with
    mbc3 := view.mbc3.applyControlWriteFor view.profile.mbc3CartridgeProfile address value })
    (fun _ => rfl) (fun _ => rfl) ?_
  exact logic.pushEvent (.mbc3ControlWrite address value)

theorem writeData (address value : ℕ) :
    logic.Related 1 Eq (BusState.writeData first address value)
      (BusState.writeData second address value) := by
  refine logic.local_bind (logic.requireCpuDmaAccess address) (fun _ _ _ => ?_)
  refine logic.local_bind (logic.requireCpuPpuAccess address) (fun _ _ _ => ?_)
  split
  · exact logic.writeControl address value
  split
  · exact logic.writeExternal address value
  refine logic.view_bind (fun _ _ _ _ _ _ _ => rfl) (fun view _ _ _ _ _ _ => ?_)
  unfold BusState.ownerOf
  dsimp only
  generalize (if view.profile.isDmgPostBootMbc3 = true then dmgOwner address
    else owner address) = owned
  cases owned with
  | memory => exact logic.writeMemory address address value
  | output => exact logic.writeOutput value
  | dmgMmio => exact logic.writeDmgMmio address value
  | rom | input | dmgEcho | unowned => exact logic.throw rfl

theorem dmaSourcePhysical (source : ℕ) :
    logic.Related 0 Eq (BusState.dmaSourcePhysical source) (BusState.dmaSourcePhysical source) := by
  unfold BusState.dmaSourcePhysical
  split
  · refine logic.view_bind (fun _ _ _ _ _ _ _ => rfl) (fun view _ _ _ _ _ _ => ?_)
    unfold BusState.externalWindow
    dsimp only
    cases view.mbc3.externalWindowFor view.profile.mbc3CartridgeProfile source with
    | ram physicalAddress => exact logic.pure rfl
    | rtcRegister select => exact logic.throw rfl
    | unavailable => exact logic.throw rfl
  · exact logic.pure rfl

theorem readDmaSource (source : ℕ) :
    logic.Related 1 Eq (BusState.readDmaSource first source)
      (BusState.readDmaSource second source) := by
  unfold BusState.readDmaSource
  split
  · exact logic.throw_bind rfl
  refine logic.view_bind (fun _ _ _ _ _ _ _ => rfl) (fun view _ _ _ _ _ _ => ?_)
  unfold BusState.ownerOf
  dsimp only
  generalize (if view.profile.isDmgPostBootMbc3 = true then dmgOwner source
    else owner source) = owned
  cases owned with
  | rom =>
    refine logic.view_bind (fun _ _ _ _ _ _ _ => rfl) (fun view _ _ _ _ _ _ => ?_)
    refine logic.access_bind (logic.takeRomRead _ _ _) ?_
    rintro read _ rfl
    exact logic.event_bind (.dmgDmaRomRead read) (logic.pure rfl)
  | memory =>
    refine logic.local_bind (logic.dmaSourcePhysical source) ?_
    rintro physicalAddress _ rfl
    refine logic.access_bind (logic.takeMemoryRead _ _ _) ?_
    rintro read _ rfl
    exact logic.event_bind (.dmgDmaMemoryRead read) (logic.pure rfl)
  | input | output | dmgMmio | dmgEcho | unowned => exact logic.throw rfl

/-- A DMA byte reads its source, replaces its destination and advances. -/
theorem copyDmaByte_eq {π τ : Type} (authentication : BusAuthentication π τ) :
    BusState.copyDmaByte authentication = (do
      let state ← get
      let value ← BusState.readDmaSource authentication state.dmgDevices.dmaSourceAddress
      let write ← BusState.replaceByte authentication state.dmgDevices.dmaDestinationAddress
        state.dmgDevices.dmaDestinationAddress value
      BusState.pushEvent (.dmgDmaWrite write)
      modify (fun state => { state with dmgDevices := state.dmgDevices.completeDmaByte })) := by
  simp only [BusState.copyDmaByte, BusState.replaceByte, bind_assoc, pure_bind]

theorem copyDmaByte :
    logic.Related 2 Eq (BusState.copyDmaByte first) (BusState.copyDmaByte second) := by
  rw [copyDmaByte_eq, copyDmaByte_eq]
  refine logic.view_bind (fun _ _ _ _ _ _ _ => rfl) (fun view _ _ _ _ _ _ => ?_)
  refine logic.access_bind (logic.readDmaSource _) ?_
  rintro value _ rfl
  refine logic.access_bind (logic.replaceByte _ _ _) ?_
  rintro write _ rfl
  refine logic.event_bind (.dmgDmaWrite write) ?_
  exact logic.changeView (fun view => { view with
    dmgDevices := view.dmgDevices.completeDmaByte })

end BusLogic

end Zksm83
