import Zksm83.Core.Bus

/-!
# Accepted bus accesses

What an accepted access of the machine bus did: which witness it took, what it changed, and the one
event that it listed. There is one rule for each operation of the bus; later results about steps use
these rules and never unfold the bus.
-/

namespace Zksm83

open Rejecting

namespace BusState

variable {π τ : Type} {before after : BusState π τ}

@[simp] theorem accepts_lift {α : Type} (result : Except StepError α) (value : α) :
    Accepts (lift result : BusAction π τ α) before value after ↔
      result = .ok value ∧ after = before := by
  cases result with
  | error error => simp [lift]
  | ok found =>
    simp only [lift, accepts_pure, Except.ok.injEq]
    exact ⟨fun h => ⟨h.1.symm, h.2⟩, fun h => ⟨h.1.symm, h.2⟩⟩

@[simp] theorem accepts_pushEvent (event : BusEvent π) (value : Unit) :
    Accepts (pushEvent event : BusAction π τ Unit) before value after ↔
      after = { before with events := before.events ++ [event] } := by
  simp [pushEvent]

/-- A witness of the requested kind is taken from the front. -/
@[simp] theorem accepts_next (request : WitnessRequest) (witness : BusWitness π) :
    Accepts (next request : BusAction π τ (BusWitness π)) before witness after ↔
      ∃ rest, before.witnesses = witness :: rest ∧ witness.kind = request.kind ∧
        after = { before with witnesses := rest } := by
  unfold next
  rw [accepts_bind]
  simp only [accepts_get]
  constructor
  · rintro ⟨state, middle, ⟨rfl, rfl⟩, hrun⟩
    split at hrun
    · exact absurd hrun (accepts_throw _ _ _ _)
    · rename_i first rest hwitnesses
      by_cases hkind : first.kind = request.kind
      · simp [hkind] at hrun
        obtain ⟨rfl, rfl⟩ := hrun
        exact ⟨rest, hwitnesses, hkind, rfl⟩
      · simp [hkind] at hrun
  · rintro ⟨rest, hwitnesses, hkind, rfl⟩
    refine ⟨before, before, ⟨rfl, rfl⟩, ?_⟩
    simp [hwitnesses, hkind]

@[simp] theorem accepts_requireAddress (expected actual : ℕ) (role : BusRole) (value : Unit) :
    Accepts (requireAddress expected actual role : BusAction π τ Unit) before value after ↔
      actual = expected ∧ after = before := by
  unfold requireAddress
  by_cases h : actual = expected <;> simp [h]

@[simp] theorem accepts_requirePhysicalAddress (expected actual : ℕ) (role : BusRole)
    (value : Unit) :
    Accepts (requirePhysicalAddress expected actual role : BusAction π τ Unit) before value after ↔
      actual = expected ∧ after = before := by
  unfold requirePhysicalAddress
  by_cases h : actual = expected <;> simp [h]

/-- The CPU reaches an address that the DMA leaves open. -/
def dmaOpen (state : BusState π τ) (address : ℕ) : Bool :=
  !(state.profile.isDmgPostBootMbc3 && state.dmgDevices.dmaActive &&
    !(0xff80 ≤ address && address ≤ 0xfffe))

/-- The CPU reaches an address that the LCD controller leaves open. -/
def ppuOpen (state : BusState π τ) (address : ℕ) : Bool :=
  !(state.profile.isDmgPostBootMbc3 &&
    ((0x8000 ≤ address && address ≤ 0x9fff && state.dmgDevices.cpuVramBlocked) ||
      (0xfe00 ≤ address && address ≤ 0xfe9f && state.dmgDevices.cpuOamBlocked)))

@[simp] theorem accepts_requireCpuDmaAccess (address : ℕ) (value : Unit) :
    Accepts (requireCpuDmaAccess address : BusAction π τ Unit) before value after ↔
      before.dmaOpen address = true ∧ after = before := by
  unfold requireCpuDmaAccess dmaOpen
  simp only [accepts_bind, accepts_get]
  constructor
  · rintro ⟨state, middle, ⟨rfl, rfl⟩, hrun⟩
    split at hrun
    · exact absurd hrun (accepts_throw _ _ _ _)
    · rename_i h
      rw [Bool.not_eq_true] at h
      exact ⟨by rw [h, Bool.not_false], ((accepts_pure _ _ _ _).mp hrun).2⟩
  · rintro ⟨h, rfl⟩
    refine ⟨after, after, ⟨rfl, rfl⟩, ?_⟩
    rw [Bool.not_eq_true'] at h
    rw [if_neg (by rw [h]; exact Bool.false_ne_true)]
    exact (accepts_pure _ _ _ _).mpr ⟨rfl, rfl⟩

@[simp] theorem accepts_requireCpuPpuAccess (address : ℕ) (value : Unit) :
    Accepts (requireCpuPpuAccess address : BusAction π τ Unit) before value after ↔
      before.ppuOpen address = true ∧ after = before := by
  unfold requireCpuPpuAccess ppuOpen
  simp only [accepts_bind, accepts_get]
  constructor
  · rintro ⟨state, middle, ⟨rfl, rfl⟩, hrun⟩
    split at hrun
    · exact absurd hrun (accepts_throw _ _ _ _)
    · rename_i h
      rw [Bool.not_eq_true] at h
      exact ⟨by rw [h, Bool.not_false], ((accepts_pure _ _ _ _).mp hrun).2⟩
  · rintro ⟨h, rfl⟩
    refine ⟨after, after, ⟨rfl, rfl⟩, ?_⟩
    rw [Bool.not_eq_true'] at h
    rw [if_neg (by rw [h]; exact Bool.false_ne_true)]
    exact (accepts_pure _ _ _ _).mpr ⟨rfl, rfl⟩

@[simp] theorem accepts_nextIndex (index value : ℕ) :
    Accepts (nextIndex index : BusAction π τ ℕ) before value after ↔
      index + 1 < 2 ^ 64 ∧ value = index + 1 ∧ after = before := by
  unfold nextIndex
  by_cases h : index + 1 < 2 ^ 64
  · rw [if_pos h, accepts_pure]
    exact ⟨fun hrun => ⟨h, hrun⟩, fun hrun => hrun.2⟩
  · rw [if_neg h]
    exact ⟨fun hrun => absurd hrun (accepts_throw _ _ _ _), fun hrun => absurd hrun.1 h⟩

variable {authentication : BusAuthentication π τ}

/-- A ROM witness is taken for the address and the physical address that were asked for. -/
@[simp] theorem accepts_takeRomRead (address physicalAddress : ℕ) (role : BusRole)
    (read : RomRead π) :
    Accepts (takeRomRead authentication address physicalAddress role) before read after ↔
      ∃ rest, before.witnesses = .rom read :: rest ∧ read.address = address ∧
        read.physicalAddress = physicalAddress ∧
        authentication.verifyRom before.roots read = .ok () ∧
        after = { before with witnesses := rest } := by
  unfold takeRomRead
  simp only [accepts_bind, accepts_next]
  constructor
  · rintro ⟨witness, middle, ⟨rest, hwitnesses, hkind, rfl⟩, hrun⟩
    cases witness with
    | rom found =>
      simp at hrun
      obtain ⟨haddress, hphysical, ⟨⟨_, hverify⟩, rfl⟩, rfl⟩ := hrun
      exact ⟨rest, hwitnesses, haddress, hphysical, hverify, rfl⟩
    | memoryRead _ | memoryWrite _ | inputByte _ => simp at hrun
  · rintro ⟨rest, hwitnesses, haddress, hphysical, hverify, rfl⟩
    refine ⟨_, _, ⟨rest, hwitnesses, rfl, rfl⟩, ?_⟩
    simp [haddress, hphysical, hverify]

/-- A memory witness is taken for the address and the physical address that were asked for. -/
@[simp] theorem accepts_takeMemoryRead (address physicalAddress : ℕ) (role : BusRole)
    (read : MemoryRead π) :
    Accepts (takeMemoryRead authentication address physicalAddress role) before read after ↔
      ∃ rest, before.witnesses = .memoryRead read :: rest ∧ read.address = address ∧
        read.physicalAddress = physicalAddress ∧
        authentication.verifyRead before.roots read = .ok () ∧
        after = { before with witnesses := rest } := by
  unfold takeMemoryRead
  simp only [accepts_bind, accepts_next]
  constructor
  · rintro ⟨witness, middle, ⟨rest, hwitnesses, hkind, rfl⟩, hrun⟩
    cases witness with
    | memoryRead found =>
      simp at hrun
      obtain ⟨haddress, hphysical, ⟨⟨_, hverify⟩, rfl⟩, rfl⟩ := hrun
      exact ⟨rest, hwitnesses, haddress, hphysical, hverify, rfl⟩
    | rom _ | memoryWrite _ | inputByte _ => simp at hrun
  · rintro ⟨rest, hwitnesses, haddress, hphysical, hverify, rfl⟩
    refine ⟨_, _, ⟨rest, hwitnesses, rfl, rfl⟩, ?_⟩
    simp [haddress, hphysical, hverify]

/-- A write witness is taken for the address, the physical address and the byte that were asked
for. -/
@[simp] theorem accepts_takeMemoryWrite (address physicalAddress value : ℕ)
    (write : MemoryWrite π) :
    Accepts (takeMemoryWrite address physicalAddress value : BusAction π τ (MemoryWrite π)) before
        write after ↔
      ∃ rest, before.witnesses = .memoryWrite write :: rest ∧ write.address = address ∧
        write.physicalAddress = physicalAddress ∧ (write.after : ℕ) = value % 256 ∧
        after = { before with witnesses := rest } := by
  unfold takeMemoryWrite
  simp only [accepts_bind, accepts_next]
  constructor
  · rintro ⟨witness, middle, ⟨rest, hwitnesses, hkind, rfl⟩, hrun⟩
    cases witness with
    | memoryWrite found =>
      by_cases hvalue : (found.after : ℕ) = value % 256
      · simp [hvalue] at hrun
        obtain ⟨haddress, ⟨hphysical, rfl⟩, rfl⟩ := hrun
        exact ⟨rest, hwitnesses, haddress, hphysical, hvalue, rfl⟩
      · simp [hvalue] at hrun
    | rom _ | memoryRead _ | inputByte _ => simp at hrun
  · rintro ⟨rest, hwitnesses, haddress, hphysical, hvalue, rfl⟩
    refine ⟨_, _, ⟨rest, hwitnesses, rfl, rfl⟩, ?_⟩
    simp [haddress, hphysical, hvalue]

@[simp] theorem accepts_verifyWrite (write : MemoryWrite π) (value : Unit) :
    Accepts (verifyWrite authentication write) before value after ↔
      ∃ roots, authentication.verifyWrite before.roots write = .ok roots ∧
        after = { before with roots := roots } := by
  unfold verifyWrite
  simp

/-- The event of a ROM read, by role. -/
def romEvent (role : BusRole) (read : RomRead π) : Option (BusEvent π) :=
  match role with
  | .opcodeFetch => some (.opcodeFetch read)
  | .immediateRead => some (.immediateRead read)
  | .dataRead => some (.romRead read)
  | .dataWrite => none

/-- The event of an instruction byte in mutable memory, by role. -/
def instructionMemoryEvent (role : BusRole) (read : MemoryRead π) : Option (BusEvent π) :=
  match role with
  | .opcodeFetch => some (.memoryOpcodeFetch read)
  | .immediateRead => some (.memoryImmediateRead read)
  | .dataRead | .dataWrite => none

/-- The state after a witness was taken and an event listed. -/
def listed (state : BusState π τ) (rest : List (BusWitness π)) (event : BusEvent π) :
    BusState π τ :=
  { state with witnesses := rest, events := state.events ++ [event] }

@[simp] theorem accepts_fetch (address : ℕ) (role : BusRole) (value : ℕ) :
    Accepts (fetch authentication address role) before value after ↔
      ∃ read rest event, romEvent role read = some event ∧
        before.witnesses = .rom read :: rest ∧ read.address = address ∧
        read.physicalAddress = before.mbc3.mapRomFor address ∧
        authentication.verifyRom before.roots read = .ok () ∧ value = read.value ∧
        after = before.listed rest event := by
  unfold fetch
  simp only [accepts_bind, accepts_get, accepts_takeRomRead]
  constructor
  · rintro ⟨state, middle, ⟨rfl, rfl⟩, read, next, ⟨rest, hrest, haddress, hphysical, hverify, rfl⟩,
      hrun⟩
    cases role with
    | dataWrite => simp at hrun
    | opcodeFetch | immediateRead | dataRead =>
      simp at hrun
      obtain ⟨rfl, rfl⟩ := hrun
      exact ⟨read, rest, _, rfl, hrest, haddress, hphysical, hverify, rfl, rfl⟩
  · rintro ⟨read, rest, event, hevent, hrest, haddress, hphysical, hverify, rfl, rfl⟩
    refine ⟨before, before, ⟨rfl, rfl⟩, read, _, ⟨rest, hrest, haddress, hphysical, hverify, rfl⟩, ?_⟩
    cases role with
    | dataWrite => simp [romEvent] at hevent
    | opcodeFetch | immediateRead | dataRead =>
      simp only [romEvent, Option.some.injEq] at hevent
      subst hevent
      simp [listed]

@[simp] theorem accepts_readInstructionMemory (address : ℕ) (role : BusRole) (value : ℕ) :
    Accepts (readInstructionMemory authentication address role) before value after ↔
      ∃ read rest event, instructionMemoryEvent role read = some event ∧
        before.witnesses = .memoryRead read :: rest ∧ read.address = address ∧
        read.physicalAddress = address ∧
        authentication.verifyRead before.roots read = .ok () ∧ value = read.value ∧
        after = before.listed rest event := by
  unfold readInstructionMemory
  simp only [accepts_bind, accepts_takeMemoryRead]
  constructor
  · rintro ⟨read, next, ⟨rest, hrest, haddress, hphysical, hverify, rfl⟩, hrun⟩
    cases role with
    | dataRead | dataWrite => simp at hrun
    | opcodeFetch | immediateRead =>
      simp at hrun
      obtain ⟨rfl, rfl⟩ := hrun
      exact ⟨read, rest, _, rfl, hrest, haddress, hphysical, hverify, rfl, rfl⟩
  · rintro ⟨read, rest, event, hevent, hrest, haddress, hphysical, hverify, rfl, rfl⟩
    refine ⟨read, _, ⟨rest, hrest, haddress, hphysical, hverify, rfl⟩, ?_⟩
    cases role with
    | dataRead | dataWrite => simp [instructionMemoryEvent] at hevent
    | opcodeFetch | immediateRead =>
      simp only [instructionMemoryEvent, Option.some.injEq] at hevent
      subst hevent
      simp [listed]

@[simp] theorem accepts_readMemory (address physicalAddress value : ℕ) :
    Accepts (readMemory authentication address physicalAddress) before value after ↔
      ∃ read rest, before.witnesses = .memoryRead read :: rest ∧ read.address = address ∧
        read.physicalAddress = physicalAddress ∧
        authentication.verifyRead before.roots read = .ok () ∧ value = read.value ∧
        after = before.listed rest (.memoryRead read) := by
  unfold readMemory
  simp only [accepts_bind, accepts_takeMemoryRead, accepts_pushEvent, accepts_pure]
  constructor
  · rintro ⟨read, next, ⟨rest, hrest, haddress, hphysical, hverify, rfl⟩, -, -, rfl, rfl, rfl⟩
    exact ⟨read, rest, hrest, haddress, hphysical, hverify, rfl, rfl⟩
  · rintro ⟨read, rest, hrest, haddress, hphysical, hverify, rfl, rfl⟩
    exact ⟨read, _, ⟨rest, hrest, haddress, hphysical, hverify, rfl⟩, (), _, rfl, rfl, rfl⟩

@[simp] theorem accepts_writeMemory (address physicalAddress written : ℕ) (value : Unit) :
    Accepts (writeMemory authentication address physicalAddress written) before value after ↔
      ∃ write rest roots, before.witnesses = .memoryWrite write :: rest ∧
        write.address = address ∧ write.physicalAddress = physicalAddress ∧
        (write.after : ℕ) = written % 256 ∧
        authentication.verifyWrite before.roots write = .ok roots ∧
        after = { before.listed rest (.memoryWrite write) with roots := roots } := by
  unfold writeMemory
  simp only [accepts_bind, accepts_takeMemoryWrite, accepts_verifyWrite, accepts_pushEvent]
  constructor
  · rintro ⟨write, next, ⟨rest, hrest, haddress, hphysical, hvalue, rfl⟩, -, -,
      ⟨roots, hverify, rfl⟩, rfl⟩
    exact ⟨write, rest, roots, hrest, haddress, hphysical, hvalue, hverify, rfl⟩
  · rintro ⟨write, rest, roots, hrest, haddress, hphysical, hvalue, hverify, rfl⟩
    exact ⟨write, _, ⟨rest, hrest, haddress, hphysical, hvalue, rfl⟩, (), _,
      ⟨roots, hverify, rfl⟩, rfl⟩

@[simp] theorem accepts_readInput (value : ℕ) :
    Accepts (readInput : BusAction π τ ℕ) before value after ↔
      ∃ byte rest, before.witnesses = .inputByte byte :: rest ∧ before.inputNext + 1 < 2 ^ 64 ∧
        value = byte ∧
        after = { before.listed rest (.inputRead before.inputNext byte) with
          inputNext := before.inputNext + 1 } := by
  unfold readInput
  simp only [accepts_bind, accepts_next]
  constructor
  · rintro ⟨witness, middle, ⟨rest, hrest, hkind, rfl⟩, hrun⟩
    cases witness with
    | inputByte byte =>
      simp only [accepts_bind, accepts_get, accepts_nextIndex, accepts_modify, accepts_pushEvent,
        accepts_pure] at hrun
      obtain ⟨-, -, ⟨rfl, rfl⟩, advanced, -, ⟨hbound, rfl, rfl⟩, -, -, rfl, -, -, rfl, rfl, rfl⟩ :=
        hrun
      exact ⟨byte, rest, hrest, hbound, rfl, rfl⟩
    | rom _ | memoryRead _ | memoryWrite _ => simp at hrun
  · rintro ⟨byte, rest, hrest, hbound, rfl, rfl⟩
    refine ⟨_, _, ⟨rest, hrest, rfl, rfl⟩, ?_⟩
    simp only [accepts_bind, accepts_get, accepts_nextIndex, accepts_modify, accepts_pushEvent,
      accepts_pure]
    exact ⟨_, _, ⟨rfl, rfl⟩, _, _, ⟨hbound, rfl, rfl⟩, (), _, rfl, (), _, rfl, trivial, rfl⟩

@[simp] theorem accepts_readDmgJoypad (value : ℕ) :
    Accepts (readDmgJoypad : BusAction π τ ℕ) before value after ↔
      ∃ buttons rest, before.witnesses = .inputByte buttons :: rest ∧
        before.inputNext + 1 < 2 ^ 64 ∧
        value = (before.dmgDevices.sampleJoypad buttons).1 ∧
        after = { before.listed rest (.dmgJoypadRead before.inputNext
            before.dmgDevices.joypadButtons buttons (before.dmgDevices.sampleJoypad buttons).1) with
          dmgDevices := (before.dmgDevices.sampleJoypad buttons).2
          inputNext := before.inputNext + 1 } := by
  unfold readDmgJoypad
  simp only [accepts_bind, accepts_next]
  constructor
  · rintro ⟨witness, middle, ⟨rest, hrest, hkind, rfl⟩, hrun⟩
    cases witness with
    | inputByte buttons =>
      simp only [accepts_bind, accepts_get, accepts_nextIndex, accepts_modify, accepts_pushEvent,
        accepts_pure] at hrun
      obtain ⟨-, -, ⟨rfl, rfl⟩, advanced, -, ⟨hbound, rfl, rfl⟩, -, -, rfl, -, -, rfl, rfl, rfl⟩ :=
        hrun
      exact ⟨buttons, rest, hrest, hbound, rfl, rfl⟩
    | rom _ | memoryRead _ | memoryWrite _ => simp at hrun
  · rintro ⟨buttons, rest, hrest, hbound, rfl, rfl⟩
    refine ⟨_, _, ⟨rest, hrest, rfl, rfl⟩, ?_⟩
    simp only [accepts_bind, accepts_get, accepts_nextIndex, accepts_modify, accepts_pushEvent,
      accepts_pure]
    exact ⟨_, _, ⟨rfl, rfl⟩, _, _, ⟨hbound, rfl, rfl⟩, (), _, rfl, (), _, rfl, rfl, rfl⟩

@[simp] theorem accepts_readDmgMmio (address value : ℕ) :
    Accepts (readDmgMmio address : BusAction π τ ℕ) before value after ↔
      before.dmgDevices.readMmio address = some value ∧
        after = before.listed before.witnesses (.dmgMmioRead address value) := by
  unfold readDmgMmio
  simp only [accepts_bind, accepts_get]
  constructor
  · rintro ⟨state, middle, ⟨rfl, rfl⟩, hrun⟩
    cases hread : middle.dmgDevices.readMmio address with
    | none => simp [hread] at hrun
    | some found =>
      simp [hread] at hrun
      obtain ⟨rfl, rfl⟩ := hrun
      exact ⟨rfl, rfl⟩
  · rintro ⟨hread, rfl⟩
    refine ⟨before, before, ⟨rfl, rfl⟩, ?_⟩
    simp [hread, listed]

@[simp] theorem accepts_writeDmgMmio (address written : ℕ) (value : Unit) :
    Accepts (writeDmgMmio address written : BusAction π τ Unit) before value after ↔
      ∃ visible devices, before.dmgDevices.writeMmio address written = some (visible, devices) ∧
        after = { before.listed before.witnesses (.dmgMmioWrite address visible written) with
          dmgDevices := devices } := by
  unfold writeDmgMmio
  simp only [accepts_bind, accepts_get]
  constructor
  · rintro ⟨state, middle, ⟨rfl, rfl⟩, hrun⟩
    cases hwrite : middle.dmgDevices.writeMmio address written with
    | none => simp [hwrite] at hrun
    | some found =>
      simp [hwrite] at hrun
      exact ⟨found.1, found.2, rfl, hrun⟩
  · rintro ⟨visible, devices, hwrite, rfl⟩
    refine ⟨before, before, ⟨rfl, rfl⟩, ?_⟩
    simp [hwrite, listed]

@[simp] theorem accepts_writeOutput (written : ℕ) (value : Unit) :
    Accepts (writeOutput written : BusAction π τ Unit) before value after ↔
      before.outputNext + 1 < 2 ^ 64 ∧
        after = { before.listed before.witnesses (.outputWrite before.outputNext written) with
          outputNext := before.outputNext + 1 } := by
  unfold writeOutput
  simp only [accepts_bind, accepts_get, accepts_nextIndex, accepts_modify, accepts_pushEvent]
  constructor
  · rintro ⟨_, _, ⟨rfl, rfl⟩, _, _, ⟨hbound, rfl, rfl⟩, _, _, rfl, rfl⟩
    exact ⟨hbound, rfl⟩
  · rintro ⟨hbound, rfl⟩
    exact ⟨_, _, ⟨rfl, rfl⟩, _, _, ⟨hbound, rfl, rfl⟩, (), _, rfl, rfl⟩

@[simp] theorem accepts_writeControl (address written : ℕ) (value : Unit) :
    Accepts (writeControl address written : BusAction π τ Unit) before value after ↔
      after = { before.listed before.witnesses (.mbc3ControlWrite address written) with
        mbc3 := before.mbc3.applyControlWriteFor before.profile.mbc3CartridgeProfile address
          written } := by
  unfold writeControl
  simp only [accepts_bind, accepts_modify, accepts_pushEvent]
  constructor
  · rintro ⟨-, -, rfl, rfl⟩
    rfl
  · rintro rfl
    exact ⟨(), _, rfl, rfl⟩

/-- The address is open to the CPU. -/
def cpuOpen (state : BusState π τ) (address : ℕ) : Bool :=
  state.dmaOpen address && state.ppuOpen address

/-- What an accepted instruction fetch did. -/
inductive Fetched (authentication : BusAuthentication π τ) (before : BusState π τ)
    (address : ℕ) (role : BusRole) : ℕ → BusState π τ → Prop
  | rom (read : RomRead π) (rest : List (BusWitness π)) (event : BusEvent π)
      (hevent : romEvent role read = some event) (howner : before.ownerOf address = .rom)
      (hrest : before.witnesses = .rom read :: rest) (haddress : read.address = address)
      (hphysical : read.physicalAddress = before.mbc3.mapRomFor address)
      (hverify : authentication.verifyRom before.roots read = .ok ()) :
      Fetched authentication before address role read.value (before.listed rest event)
  | memory (read : MemoryRead π) (rest : List (BusWitness π)) (event : BusEvent π)
      (hevent : instructionMemoryEvent role read = some event)
      (howner : before.ownerOf address = .memory)
      (hrest : before.witnesses = .memoryRead read :: rest) (haddress : read.address = address)
      (hphysical : read.physicalAddress = address)
      (hverify : authentication.verifyRead before.roots read = .ok ()) :
      Fetched authentication before address role read.value (before.listed rest event)

/-- An accepted fetch reads ROM through the mapper or mutable memory at the CPU address. -/
theorem accepts_fetchInstruction (address : ℕ) (role : BusRole) (value : ℕ) :
    Accepts (fetchInstruction authentication address role) before value after ↔
      before.cpuOpen address = true ∧
        Fetched authentication before address role value after := by
  unfold fetchInstruction cpuOpen
  simp only [accepts_bind, accepts_requireCpuDmaAccess, accepts_requireCpuPpuAccess, accepts_get,
    Bool.and_eq_true]
  constructor
  · rintro ⟨_, _, ⟨hdma, rfl⟩, _, _, ⟨hppu, rfl⟩, _, _, ⟨rfl, rfl⟩, hrun⟩
    refine ⟨⟨hdma, hppu⟩, ?_⟩
    split at hrun
    case h_1 howner =>
      obtain ⟨read, rest, event, hevent, hrest, haddress, hphysical, hverify, rfl, rfl⟩ :=
        (accepts_fetch _ _ _).mp hrun
      exact .rom read rest event hevent howner hrest haddress hphysical hverify
    case h_2 howner =>
      obtain ⟨read, rest, event, hevent, hrest, haddress, hphysical, hverify, rfl, rfl⟩ :=
        (accepts_readInstructionMemory _ _ _).mp hrun
      exact .memory read rest event hevent howner hrest haddress hphysical hverify
    all_goals exact absurd hrun (accepts_throw _ _ _ _)
  · rintro ⟨⟨hdma, hppu⟩, hfetched⟩
    refine ⟨(), before, ⟨hdma, rfl⟩, (), before, ⟨hppu, rfl⟩, before, before, ⟨rfl, rfl⟩, ?_⟩
    cases hfetched with
    | rom read rest event hevent howner hrest haddress hphysical hverify =>
      rw [howner]
      exact (accepts_fetch _ _ _).mpr
        ⟨read, rest, event, hevent, hrest, haddress, hphysical, hverify, rfl, rfl⟩
    | memory read rest event hevent howner hrest haddress hphysical hverify =>
      rw [howner]
      exact (accepts_readInstructionMemory _ _ _).mpr
        ⟨read, rest, event, hevent, hrest, haddress, hphysical, hverify, rfl, rfl⟩

/-- The place of a data byte in mutable memory: through the mapper in the external RAM window, and
the CPU address elsewhere. -/
def memoryPlace (state : BusState π τ) (address : ℕ) : Option ℕ :=
  if isExternal address then
    match state.externalWindow address with
    | .ram physicalAddress => some physicalAddress
    | _ => none
  else if state.ownerOf address = .memory then some address
  else none

/-- What an accepted data read did. -/
inductive DataRead (authentication : BusAuthentication π τ) (before : BusState π τ)
    (address : ℕ) : ℕ → BusState π τ → Prop
  | rom (read : RomRead π) (rest : List (BusWitness π)) (hexternal : isExternal address = false)
      (howner : before.ownerOf address = .rom)
      (hrest : before.witnesses = .rom read :: rest) (haddress : read.address = address)
      (hphysical : read.physicalAddress = before.mbc3.mapRomFor address)
      (hverify : authentication.verifyRom before.roots read = .ok ()) :
      DataRead authentication before address read.value (before.listed rest (.romRead read))
  | memory (read : MemoryRead π) (rest : List (BusWitness π))
      (hplace : before.memoryPlace address = some read.physicalAddress)
      (hrest : before.witnesses = .memoryRead read :: rest) (haddress : read.address = address)
      (hverify : authentication.verifyRead before.roots read = .ok ()) :
      DataRead authentication before address read.value (before.listed rest (.memoryRead read))
  | openBus (hexternal : isExternal address = true)
      (hwindow : before.externalWindow address = .unavailable) :
      DataRead authentication before address 0xff
        (before.listed before.witnesses (.mbc3OpenBusRead address 0xff))
  | input (byte : Byte) (rest : List (BusWitness π)) (howner : before.ownerOf address = .input)
      (hrest : before.witnesses = .inputByte byte :: rest)
      (hbound : before.inputNext + 1 < 2 ^ 64) :
      DataRead authentication before address byte
        { before.listed rest (.inputRead before.inputNext byte) with
          inputNext := before.inputNext + 1 }
  | mmio (value : ℕ) (howner : before.ownerOf address = .dmgMmio)
      (hread : before.dmgDevices.readMmio address = some value) :
      DataRead authentication before address value
        (before.listed before.witnesses (.dmgMmioRead address value))
  | joypad (buttons : Byte) (rest : List (BusWitness π))
      (hprofile : before.profile.isDmgPostBootMbc3 = true) (haddress : address = 0xff00)
      (hrest : before.witnesses = .inputByte buttons :: rest)
      (hbound : before.inputNext + 1 < 2 ^ 64) :
      DataRead authentication before address (before.dmgDevices.sampleJoypad buttons).1
        { before.listed rest (.dmgJoypadRead before.inputNext before.dmgDevices.joypadButtons buttons
            (before.dmgDevices.sampleJoypad buttons).1) with
          dmgDevices := (before.dmgDevices.sampleJoypad buttons).2
          inputNext := before.inputNext + 1 }

/-- An accepted data read is one of the listed reads. -/
theorem dataRead_of_accepts {address value : ℕ}
    (hrun : Accepts (readData authentication address) before value after) :
    before.cpuOpen address = true ∧ DataRead authentication before address value after := by
  unfold readData at hrun
  simp only [accepts_bind, accepts_requireCpuDmaAccess, accepts_requireCpuPpuAccess,
    accepts_get] at hrun
  obtain ⟨_, _, ⟨hdma, rfl⟩, _, _, ⟨hppu, rfl⟩, state, _, ⟨rfl, rfl⟩, hrun⟩ := hrun
  refine ⟨by rw [cpuOpen, hdma, hppu]; rfl, ?_⟩
  split at hrun
  · rename_i hjoypad
    simp only [Bool.and_eq_true, decide_eq_true_eq] at hjoypad
    obtain ⟨buttons, rest, hrest, hbound, rfl, rfl⟩ := (accepts_readDmgJoypad _).mp hrun
    exact .joypad buttons rest hjoypad.1 hjoypad.2 hrest hbound
  split at hrun
  · rename_i hexternal
    unfold readExternal at hrun
    simp only [accepts_bind, accepts_get] at hrun
    obtain ⟨_, _, ⟨rfl, rfl⟩, hrun⟩ := hrun
    split at hrun
    · rename_i physicalAddress hwindow
      obtain ⟨read, rest, hrest, haddress, rfl, hverify, rfl, rfl⟩ :=
        (accepts_readMemory _ _ _).mp hrun
      exact .memory read rest (by rw [memoryPlace, if_pos hexternal, hwindow]) hrest haddress hverify
    · exact absurd hrun (accepts_throw _ _ _ _)
    · rename_i hwindow
      simp only [accepts_bind, accepts_pushEvent, accepts_pure] at hrun
      obtain ⟨_, _, rfl, rfl, rfl⟩ := hrun
      exact .openBus hexternal hwindow
  rename_i hexternal
  rw [Bool.not_eq_true] at hexternal
  split at hrun
  case h_1 howner =>
    obtain ⟨read, rest, event, hevent, hrest, haddress, hphysical, hverify, rfl, rfl⟩ :=
      (accepts_fetch _ _ _).mp hrun
    rw [romEvent, Option.some.injEq] at hevent
    subst hevent
    exact .rom read rest hexternal howner hrest haddress hphysical hverify
  case h_2 howner =>
    obtain ⟨read, rest, hrest, haddress, hphysical, hverify, rfl, rfl⟩ :=
      (accepts_readMemory _ _ _).mp hrun
    refine .memory read rest ?_ hrest haddress hverify
    rw [memoryPlace, if_neg (by rw [hexternal]; exact Bool.false_ne_true), if_pos howner, hphysical]
  case h_3 howner =>
    obtain ⟨byte, rest, hrest, hbound, rfl, rfl⟩ := (accepts_readInput _).mp hrun
    exact .input byte rest howner hrest hbound
  case h_5 howner =>
    obtain ⟨hread, rfl⟩ := (accepts_readDmgMmio _ _).mp hrun
    exact .mmio value howner hread
  all_goals exact absurd hrun (accepts_throw _ _ _ _)

/-- What an accepted data write did. -/
inductive DataWrite (authentication : BusAuthentication π τ) (before : BusState π τ)
    (address written : ℕ) : BusState π τ → Prop
  | control (hwindow : address ≤ 0x7fff) :
      DataWrite authentication before address written
        { before.listed before.witnesses (.mbc3ControlWrite address written) with
          mbc3 := before.mbc3.applyControlWriteFor before.profile.mbc3CartridgeProfile address
            written }
  | memory (write : MemoryWrite π) (rest : List (BusWitness π)) (roots : τ)
      (hplace : before.memoryPlace address = some write.physicalAddress)
      (hrest : before.witnesses = .memoryWrite write :: rest) (haddress : write.address = address)
      (hvalue : (write.after : ℕ) = written % 256)
      (hverify : authentication.verifyWrite before.roots write = .ok roots) :
      DataWrite authentication before address written
        { before.listed rest (.memoryWrite write) with roots := roots }
  | ignored (hexternal : isExternal address = true)
      (hwindow : before.externalWindow address = .unavailable) :
      DataWrite authentication before address written
        (before.listed before.witnesses (.mbc3IgnoredWrite address written))
  | output (howner : before.ownerOf address = .output)
      (hbound : before.outputNext + 1 < 2 ^ 64) :
      DataWrite authentication before address written
        { before.listed before.witnesses (.outputWrite before.outputNext written) with
          outputNext := before.outputNext + 1 }
  | mmio (visible : ℕ) (devices : DmgDeviceState) (howner : before.ownerOf address = .dmgMmio)
      (hwrite : before.dmgDevices.writeMmio address written = some (visible, devices)) :
      DataWrite authentication before address written
        { before.listed before.witnesses (.dmgMmioWrite address visible written) with
          dmgDevices := devices }

/-- An accepted data write is one of the listed writes. -/
theorem dataWrite_of_accepts {address written : ℕ} {value : Unit}
    (hrun : Accepts (writeData authentication address written) before value after) :
    before.cpuOpen address = true ∧ DataWrite authentication before address written after := by
  unfold writeData at hrun
  simp only [accepts_bind, accepts_requireCpuDmaAccess, accepts_requireCpuPpuAccess] at hrun
  obtain ⟨_, _, ⟨hdma, rfl⟩, _, _, ⟨hppu, rfl⟩, hrun⟩ := hrun
  refine ⟨by rw [cpuOpen, hdma, hppu]; rfl, ?_⟩
  split at hrun
  · rename_i hwindow
    rw [(accepts_writeControl _ _ _).mp hrun]
    exact .control hwindow
  split at hrun
  · rename_i hexternal
    unfold writeExternal at hrun
    simp only [accepts_bind, accepts_get] at hrun
    obtain ⟨_, _, ⟨rfl, rfl⟩, hrun⟩ := hrun
    split at hrun
    · rename_i physicalAddress hwindow
      obtain ⟨write, rest, roots, hrest, haddress, rfl, hvalue, hverify, rfl⟩ :=
        (accepts_writeMemory _ _ _ _).mp hrun
      exact .memory write rest roots (by rw [memoryPlace, if_pos hexternal, hwindow]) hrest haddress
        hvalue hverify
    · exact absurd hrun (accepts_throw _ _ _ _)
    · rename_i hwindow
      rw [(accepts_pushEvent _ _).mp hrun]
      exact .ignored hexternal hwindow
  rename_i hexternal
  rw [Bool.not_eq_true] at hexternal
  simp only [accepts_bind, accepts_get] at hrun
  obtain ⟨_, _, ⟨rfl, rfl⟩, hrun⟩ := hrun
  split at hrun
  case h_1 howner =>
    obtain ⟨write, rest, roots, hrest, haddress, hphysical, hvalue, hverify, rfl⟩ :=
      (accepts_writeMemory _ _ _ _).mp hrun
    refine .memory write rest roots ?_ hrest haddress hvalue hverify
    rw [memoryPlace, if_neg (by rw [hexternal]; exact Bool.false_ne_true), if_pos howner, hphysical]
  case h_2 howner =>
    obtain ⟨hbound, rfl⟩ := (accepts_writeOutput _ _).mp hrun
    exact .output howner hbound
  case h_5 howner =>
    obtain ⟨visible, devices, hwrite, rfl⟩ := (accepts_writeDmgMmio _ _ _).mp hrun
    exact .mmio visible devices howner hwrite
  all_goals exact absurd hrun (accepts_throw _ _ _ _)

/-- What an accepted read of a DMA source byte did. -/
inductive DmaRead (authentication : BusAuthentication π τ) (before : BusState π τ)
    (source : ℕ) : ℕ → BusState π τ → Prop
  | rom (read : RomRead π) (rest : List (BusWitness π))
      (howner : before.ownerOf source = .rom)
      (hrest : before.witnesses = .rom read :: rest) (haddress : read.address = source)
      (hphysical : read.physicalAddress = before.mbc3.mapRomFor source)
      (hverify : authentication.verifyRom before.roots read = .ok ()) :
      DmaRead authentication before source read.value (before.listed rest (.dmgDmaRomRead read))
  | memory (read : MemoryRead π) (rest : List (BusWitness π))
      (hplace : before.memoryPlace source = some read.physicalAddress)
      (hrest : before.witnesses = .memoryRead read :: rest) (haddress : read.address = source)
      (hverify : authentication.verifyRead before.roots read = .ok ()) :
      DmaRead authentication before source read.value
        (before.listed rest (.dmgDmaMemoryRead read))

/-- The DMA finds its source byte where a data read finds it. -/
theorem memoryPlace_of_dmaSource {source physicalAddress : ℕ}
    (howner : before.ownerOf source = .memory)
    (hrun : Accepts (dmaSourcePhysical source) before physicalAddress after) :
    before.memoryPlace source = some physicalAddress ∧ after = before := by
  unfold dmaSourcePhysical at hrun
  unfold memoryPlace
  split at hrun
  · rename_i hexternal
    simp only [accepts_bind, accepts_get] at hrun
    obtain ⟨_, _, ⟨rfl, rfl⟩, hrun⟩ := hrun
    rw [if_pos hexternal]
    split at hrun
    · rename_i found hwindow
      obtain ⟨rfl, rfl⟩ := (accepts_pure _ _ _ _).mp hrun
      exact ⟨by rw [hwindow], rfl⟩
    all_goals exact absurd hrun (accepts_throw _ _ _ _)
  · rename_i hexternal
    obtain ⟨rfl, rfl⟩ := (accepts_pure _ _ _ _).mp hrun
    exact ⟨by rw [if_neg hexternal, if_pos howner], rfl⟩

/-- An accepted read of a DMA source byte is one of the listed reads. -/
theorem dmaRead_of_accepts {source value : ℕ}
    (hrun : Accepts (readDmaSource authentication source) before value after) :
    DmaRead authentication before source value after := by
  unfold readDmaSource at hrun
  split at hrun
  · simp at hrun
  simp only [accepts_bind, accepts_get] at hrun
  obtain ⟨_, _, ⟨rfl, rfl⟩, hrun⟩ := hrun
  split at hrun
  case h_1 howner =>
    simp only [accepts_bind, accepts_get, accepts_takeRomRead, accepts_pushEvent,
      accepts_pure] at hrun
    obtain ⟨_, _, ⟨rfl, rfl⟩, read, _, ⟨rest, hrest, haddress, hphysical, hverify, rfl⟩, _, _, rfl,
      rfl, rfl⟩ := hrun
    exact .rom read rest howner hrest haddress hphysical hverify
  case h_2 howner =>
    simp only [accepts_bind, accepts_takeMemoryRead, accepts_pushEvent, accepts_pure] at hrun
    obtain ⟨physicalAddress, _, hsource, read, _, ⟨rest, hrest, haddress, hphysical, hverify, rfl⟩,
      _, _, rfl, rfl, rfl⟩ := hrun
    obtain ⟨hplace, rfl⟩ := memoryPlace_of_dmaSource howner hsource
    exact .memory read rest (by rw [hplace, hphysical]) hrest haddress hverify
  all_goals exact absurd hrun (accepts_throw _ _ _ _)

/-- An accepted DMA byte reads its source and writes the byte to its destination. -/
theorem dmaByte_of_accepts {value : Unit}
    (hrun : Accepts (copyDmaByte authentication) before value after) :
    ∃ byte middle write rest roots,
      DmaRead authentication before before.dmgDevices.dmaSourceAddress byte middle ∧
      middle.witnesses = .memoryWrite write :: rest ∧
      write.address = before.dmgDevices.dmaDestinationAddress ∧
      write.physicalAddress = before.dmgDevices.dmaDestinationAddress ∧
      (write.after : ℕ) = byte % 256 ∧ authentication.verifyWrite middle.roots write = .ok roots ∧
      after = { middle.listed rest (.dmgDmaWrite write) with
        roots := roots
        dmgDevices := middle.dmgDevices.completeDmaByte } := by
  unfold copyDmaByte at hrun
  simp only [accepts_bind, accepts_get, accepts_takeMemoryWrite, accepts_verifyWrite,
    accepts_pushEvent, accepts_modify] at hrun
  obtain ⟨_, _, ⟨rfl, rfl⟩, byte, middle, hread, write, _,
    ⟨rest, hrest, haddress, hphysical, hvalue, rfl⟩, _, _, ⟨roots, hverify, rfl⟩, _, _, rfl, rfl⟩ :=
    hrun
  exact ⟨byte, middle, write, rest, roots, dmaRead_of_accepts hread, hrest, haddress, hphysical,
    hvalue, hverify, rfl⟩

end BusState

end Zksm83
