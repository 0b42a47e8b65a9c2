import Zksm83.Core.BusRules
import Zksm83.Core.Step

/-!
# Where an access finds its byte

An instruction fetch, a data read and a DMA source read each derive the storage and the physical
address of their byte on their own. A data read and a DMA source read of one address always ask for
the same byte. A fetch asks for the byte at the CPU address, also in the external RAM window, where
a data read goes through the bank registers: `mappingAgrees_iff` says exactly where they differ.
-/

namespace Zksm83

open Rejecting

/-- The two storages of the machine. -/
inductive Storage where
  | rom | memory
  deriving DecidableEq, Repr

/-- The storage byte that an event reads or writes. -/
def BusEvent.storage {π : Type} : BusEvent π → Option (Storage × ℕ)
  | .opcodeFetch read | .immediateRead read | .romRead read | .dmgDmaRomRead read =>
    some (.rom, read.physicalAddress)
  | .memoryOpcodeFetch read | .memoryImmediateRead read | .memoryRead read
  | .dmgDmaMemoryRead read => some (.memory, read.physicalAddress)
  | .memoryWrite write | .dmgDmaWrite write => some (.memory, write.physicalAddress)
  | _ => none

namespace AddressMap

open BusState

variable {π τ : Type}

/-- An access that is accepted in a state, under some step input, asks for the listed storage
bytes. -/
def Requests (access : BusAction π τ ℕ) (state : VmState) (roots : τ)
    (bytes : List (Storage × ℕ)) : Prop :=
  ∃ input value after, Accepts access (Step.start state roots input).bus value after ∧
    after.events.filterMap BusEvent.storage = bytes

/-- Accepted fetches, data reads and DMA source reads of an address ask for the same byte. -/
def MappingAgrees (authentication : BusAuthentication π τ) (state : VmState) (roots : τ)
    (address : ℕ) : Prop :=
  (∀ role fetched read, Requests (fetchInstruction authentication address role) state roots fetched →
    Requests (readData authentication address) state roots read → fetched = read) ∧
  ∀ read copied, Requests (readData authentication address) state roots read →
    Requests (readDmaSource authentication address) state roots copied → read = copied

/-- A committed memory opens at every byte of its one-MiB table. -/
def Opens (authentication : BusAuthentication π τ) (roots : τ) : Prop :=
  ∀ address physicalAddress, physicalAddress < 2 ^ 20 →
    ∃ read : MemoryRead π, read.address = address ∧ read.physicalAddress = physicalAddress ∧
      authentication.verifyRead roots read = .ok ()

/-- An address of the external RAM window that the CPU reaches and that shows no clock register. -/
def InBankedWindow (state : VmState) (address : ℕ) : Prop :=
  isExternal address = true ∧
    ¬ (state.profile.isDmgPostBootMbc3 = true ∧ state.dmgDevices.dmaActive = true) ∧
    ∀ select, state.mbc3.externalWindowFor state.profile.mbc3CartridgeProfile address ≠
      .rtcRegister select

instance (state : VmState) (address : ℕ) : Decidable (InBankedWindow state address) :=
  match h : state.mbc3.externalWindowFor state.profile.mbc3CartridgeProfile address with
  | .rtcRegister select => isFalse (fun hwindow => hwindow.2.2 select h)
  | .ram _ | .unavailable => decidable_of_iff
      (isExternal address = true ∧
        ¬ (state.profile.isDmgPostBootMbc3 = true ∧ state.dmgDevices.dmaActive = true))
      ⟨fun hopen => ⟨hopen.1, hopen.2, by simp [h]⟩, fun hwindow => ⟨hwindow.1, hwindow.2.1⟩⟩

variable {authentication : BusAuthentication π τ} {state : VmState} {roots : τ} {address : ℕ}

/-- A fetch asks for the mapped ROM byte or for the memory byte at the CPU address. -/
theorem storage_of_fetched {before after : BusState π τ} {role : BusRole} {value : ℕ}
    (hfetched : Fetched authentication before address role value after)
    (hevents : before.events = []) :
    before.ownerOf address = .rom ∧
        after.events.filterMap BusEvent.storage = [(.rom, before.mbc3.mapRomFor address)] ∨
      before.ownerOf address = .memory ∧
        after.events.filterMap BusEvent.storage = [(.memory, address)] := by
  cases hfetched with
  | rom read rest event hevent howner hrest haddress hphysical hverify =>
    refine Or.inl ⟨howner, ?_⟩
    cases role <;> simp only [romEvent, Option.some.injEq, reduceCtorEq] at hevent <;> subst hevent <;>
      simp [listed, hevents, BusEvent.storage, hphysical]
  | memory read rest event hevent howner hrest haddress hphysical hverify =>
    refine Or.inr ⟨howner, ?_⟩
    cases role <;> simp only [instructionMemoryEvent, Option.some.injEq, reduceCtorEq] at hevent <;>
      subst hevent <;> simp [listed, hevents, BusEvent.storage, hphysical]

/-- A data read of a ROM or memory address asks for the mapped ROM byte, for the place in memory, or
for nothing where the external window shows no RAM. -/
theorem storage_of_dataRead {before after : BusState π τ} {value : ℕ}
    (hread : DataRead authentication before address value after) (hevents : before.events = [])
    (howner : before.ownerOf address = .rom ∨ before.ownerOf address = .memory) :
    before.ownerOf address = .rom ∧ isExternal address = false ∧
        after.events.filterMap BusEvent.storage = [(.rom, before.mbc3.mapRomFor address)] ∨
      (∃ place, before.memoryPlace address = some place ∧
        after.events.filterMap BusEvent.storage = [(.memory, place)]) ∨
      isExternal address = true ∧ before.memoryPlace address = none ∧
        after.events.filterMap BusEvent.storage = [] := by
  cases hread with
  | rom read rest hexternal hrom hrest haddress hphysical hverify =>
    exact Or.inl ⟨hrom, hexternal, by simp [listed, hevents, BusEvent.storage, hphysical]⟩
  | memory read rest hplace hrest haddress hverify =>
    exact Or.inr (Or.inl ⟨_, hplace, by simp [listed, hevents, BusEvent.storage]⟩)
  | openBus hexternal hwindow =>
    refine Or.inr (Or.inr ⟨hexternal, ?_, by simp [listed, hevents, BusEvent.storage]⟩)
    rw [memoryPlace, if_pos hexternal, hwindow]
  | input byte rest hinput hrest hbound => rw [hinput] at howner; simp at howner
  | mmio value hmmio hread => rw [hmmio] at howner; simp at howner
  | joypad buttons rest hprofile haddress hrest hbound =>
    rw [ownerOf, if_pos hprofile, haddress] at howner
    exact absurd howner (by decide)

/-- A DMA source read asks for the mapped ROM byte or for the place in memory. -/
theorem storage_of_dmaRead {before after : BusState π τ} {value : ℕ}
    (hread : DmaRead authentication before address value after) (hevents : before.events = []) :
    before.ownerOf address = .rom ∧
        after.events.filterMap BusEvent.storage = [(.rom, before.mbc3.mapRomFor address)] ∨
      ∃ place, before.memoryPlace address = some place ∧
        after.events.filterMap BusEvent.storage = [(.memory, place)] := by
  cases hread with
  | rom read rest howner hrest haddress hphysical hverify =>
    exact Or.inl ⟨howner, by simp [listed, hevents, BusEvent.storage, hphysical]⟩
  | memory read rest hplace hrest haddress hverify =>
    exact Or.inr ⟨_, hplace, by simp [listed, hevents, BusEvent.storage]⟩

/-- The external RAM window is mutable memory under every profile. -/
theorem ownerOf_external {before : BusState π τ} (hexternal : isExternal address = true) :
    before.ownerOf address = .memory := by
  simp only [isExternal, Bool.and_eq_true, decide_eq_true_eq] at hexternal
  unfold ownerOf dmgOwner owner
  split
  · rw [if_neg (by omega), if_pos (by omega)]
  · rw [if_neg (by omega), if_pos (by omega)]

theorem ownerOf_of_memoryPlace {before : BusState π τ} {place : ℕ}
    (hplace : before.memoryPlace address = some place) : before.ownerOf address = .memory := by
  unfold memoryPlace at hplace
  split at hplace
  · rename_i hexternal
    exact ownerOf_external hexternal
  · split at hplace
    · assumption
    · exact absurd hplace (by simp)

theorem memoryPlace_of_not_external {before : BusState π τ} (hexternal : isExternal address = false)
    (howner : before.ownerOf address = .memory) : before.memoryPlace address = some address := by
  rw [memoryPlace, if_neg (by rw [hexternal]; exact Bool.false_ne_true), if_pos howner]

/-- A data read and a DMA source read ask for the same byte. -/
theorem read_eq_copied {read copied : List (Storage × ℕ)}
    (hread : Requests (readData authentication address) state roots read)
    (hcopied : Requests (readDmaSource authentication address) state roots copied) :
    read = copied := by
  obtain ⟨readInput, readValue, readAfter, hreadRun, rfl⟩ := hread
  obtain ⟨copyInput, copyValue, copyAfter, hcopyRun, rfl⟩ := hcopied
  have hdata := (dataRead_of_accepts hreadRun).2
  -- Both accesses start from the same mapper and profile; only their witnesses differ.
  rcases storage_of_dmaRead (dmaRead_of_accepts hcopyRun) rfl with
    ⟨hrom, hcopies⟩ | ⟨place, hplace, hcopies⟩
  · rcases storage_of_dataRead hdata rfl (Or.inl hrom) with
      ⟨-, -, hreads⟩ | ⟨other, hother, -⟩ | ⟨hexternal, -, -⟩
    · rw [hreads, hcopies]
      rfl
    · exact absurd (hrom.symm.trans (ownerOf_of_memoryPlace hother)) (by simp)
    · exact absurd (hrom.symm.trans (ownerOf_external hexternal)) (by simp)
  · have hmemory := ownerOf_of_memoryPlace hplace
    rcases storage_of_dataRead hdata rfl (Or.inr hmemory) with
      ⟨hrom, -, -⟩ | ⟨other, hother, hreads⟩ | ⟨-, hnone, -⟩
    · exact absurd (hrom.symm.trans hmemory) (by simp)
    · have heq : other = place := Option.some.inj (hother.symm.trans hplace)
      rw [hreads, hcopies, heq]
    · exact absurd (hnone.symm.trans hplace) (by simp)

/-- Outside the external RAM window a fetch and a data read ask for the same byte. -/
theorem fetched_eq_read {role : BusRole} {fetched read : List (Storage × ℕ)}
    (hexternal : isExternal address = false)
    (hfetched : Requests (fetchInstruction authentication address role) state roots fetched)
    (hread : Requests (readData authentication address) state roots read) : fetched = read := by
  obtain ⟨fetchInput, fetchValue, fetchAfter, hfetchRun, rfl⟩ := hfetched
  obtain ⟨readInput, readValue, readAfter, hreadRun, rfl⟩ := hread
  have hdata := (dataRead_of_accepts hreadRun).2
  have hfetch := ((accepts_fetchInstruction _ _ _).mp hfetchRun).2
  rcases storage_of_fetched hfetch rfl with ⟨hrom, hfetches⟩ | ⟨hmemory, hfetches⟩
  · rcases storage_of_dataRead hdata rfl (Or.inl hrom) with
      ⟨-, -, hreads⟩ | ⟨other, hother, -⟩ | ⟨hwindow, -, -⟩
    · rw [hreads, hfetches]
      rfl
    · exact absurd (hrom.symm.trans (ownerOf_of_memoryPlace hother)) (by simp)
    · exact absurd (hexternal.symm.trans hwindow) (by simp)
  · have hplace := memoryPlace_of_not_external hexternal hmemory
    rcases storage_of_dataRead hdata rfl (Or.inr hmemory) with
      ⟨hrom, -, -⟩ | ⟨other, hother, hreads⟩ | ⟨hwindow, -, -⟩
    · exact absurd (hrom.symm.trans hmemory) (by simp)
    · have heq : other = address := Option.some.inj (hother.symm.trans hplace)
      rw [hreads, hfetches, heq]
    · exact absurd (hexternal.symm.trans hwindow) (by simp)

/-- In the external window no access is accepted while a transfer owns the bus. -/
theorem dmaOpen_external (hexternal : isExternal address = true) (input : List (BusWitness π))
    (hopen : (Step.start state roots input).bus.cpuOpen address = true) :
    ¬ (state.profile.isDmgPostBootMbc3 = true ∧ state.dmgDevices.dmaActive = true) := by
  rintro ⟨hprofile, hactive⟩
  simp only [isExternal, Bool.and_eq_true, decide_eq_true_eq] at hexternal
  have hnot : (decide (0xff80 ≤ address) && decide (address ≤ 0xfffe)) = false := by
    rw [decide_eq_false (by omega), Bool.false_and]
  rw [cpuOpen, dmaOpen, Bool.and_eq_true] at hopen
  have hdma := hopen.1
  simp only [Step.start, hprofile, hactive, hnot] at hdma
  exact absurd hdma (by decide)

/-- A fetch and a data read of the window are only both accepted where it is banked. -/
theorem inBankedWindow_of_accepted {role : BusRole} {fetched read : List (Storage × ℕ)}
    (hexternal : isExternal address = true)
    (hfetched : Requests (fetchInstruction authentication address role) state roots fetched)
    (hread : Requests (readData authentication address) state roots read) :
    InBankedWindow state address := by
  obtain ⟨fetchInput, fetchValue, fetchAfter, hfetchRun, rfl⟩ := hfetched
  obtain ⟨readInput, readValue, readAfter, hreadRun, rfl⟩ := hread
  have hopen := ((accepts_fetchInstruction _ _ _).mp hfetchRun).1
  refine ⟨hexternal, dmaOpen_external hexternal fetchInput hopen, ?_⟩
  intro select hwindow
  have hshown : (Step.start state roots readInput : Executor (BusState π τ)).bus.externalWindow
      address = .rtcRegister select := hwindow
  have howner : (Step.start state roots readInput : Executor (BusState π τ)).bus.ownerOf address =
      .memory := ownerOf_external hexternal
  cases (dataRead_of_accepts hreadRun).2 with
  | rom read rest hnot => exact absurd (hexternal.symm.trans hnot) (by simp)
  | memory read rest hplace =>
    rw [memoryPlace, if_pos hexternal, hshown] at hplace
    exact absurd hplace (by simp)
  | openBus _ hunavailable => exact absurd (hshown.symm.trans hunavailable) (by simp)
  | input byte rest hinput => exact absurd (howner.symm.trans hinput) (by simp)
  | mmio value hmmio => exact absurd (howner.symm.trans hmmio) (by simp)
  | joypad buttons rest hprofile haddress =>
    rw [haddress] at hexternal
    exact absurd hexternal (by decide)

/-- The CPU reaches the window where no transfer owns the bus. -/
theorem cpuOpen_of_inBankedWindow (hwindow : InBankedWindow state address)
    (input : List (BusWitness π)) : (Step.start state roots input).bus.cpuOpen address = true := by
  obtain ⟨hexternal, hdma, -⟩ := hwindow
  simp only [isExternal, Bool.and_eq_true, decide_eq_true_eq] at hexternal
  have hvram : (decide (0x8000 ≤ address) && decide (address ≤ 0x9fff)) = false := by
    rw [decide_eq_false (p := address ≤ 0x9fff) (by omega), Bool.and_false]
  have hoam : decide (0xfe00 ≤ address) = false := decide_eq_false (by omega)
  rw [cpuOpen, Bool.and_eq_true]
  constructor
  · rw [dmaOpen, Bool.not_eq_true', Bool.and_eq_false_iff]
    exact Or.inl (by rw [← Bool.not_eq_true, Bool.and_eq_true]; exact hdma)
  · rw [ppuOpen, hvram, hoam]
    simp

/-- A data read of the window is what the window shows. -/
theorem accepts_readData_external (hwindow : InBankedWindow state address)
    {input : List (BusWitness π)} {value : ℕ} {after : BusState π τ}
    (hrun : Accepts (readExternal authentication address) (Step.start state roots input).bus value
      after) :
    Accepts (readData authentication address) (Step.start state roots input).bus value after := by
  have hopen : (Step.start state roots input).bus.cpuOpen address = true :=
    cpuOpen_of_inBankedWindow hwindow input
  rw [cpuOpen, Bool.and_eq_true] at hopen
  have hjoypad : decide (address = 0xff00) = false := by
    have hexternal := hwindow.1
    simp only [isExternal, Bool.and_eq_true, decide_eq_true_eq] at hexternal
    exact decide_eq_false (by omega)
  unfold readData
  simp only [accepts_bind, accepts_requireCpuDmaAccess, accepts_requireCpuPpuAccess, accepts_get]
  refine ⟨(), _, ⟨hopen.1, rfl⟩, (), _, ⟨hopen.2, rfl⟩, _, _, ⟨rfl, rfl⟩, ?_⟩
  rw [hjoypad, Bool.and_false, if_neg Bool.false_ne_true, if_pos hwindow.1]
  exact hrun

/-- In the banked window a fetch asks for the byte at the CPU address. -/
theorem requests_fetch (hopens : Opens authentication roots)
    (hwindow : InBankedWindow state address) :
    Requests (fetchInstruction authentication address .opcodeFetch) state roots
      [(.memory, address)] := by
  have hsmall : address < 2 ^ 20 := by
    have hexternal := hwindow.1
    simp only [isExternal, Bool.and_eq_true, decide_eq_true_eq] at hexternal
    omega
  obtain ⟨read, haddress, hphysical, hverify⟩ := hopens address address hsmall
  refine ⟨[.memoryRead read], read.value, _, (accepts_fetchInstruction _ _ _).mpr
    ⟨cpuOpen_of_inBankedWindow hwindow _, .memory read [] _ rfl (ownerOf_external hwindow.1) rfl
      haddress hphysical hverify⟩, ?_⟩
  simp [listed, Step.start, BusEvent.storage, hphysical]

/-- In the banked window a data read asks for no byte or for one outside the CPU address space. -/
theorem requests_read (hopens : Opens authentication roots)
    (hwindow : InBankedWindow state address) :
    ∃ read, Requests (readData authentication address) state roots read ∧
      read ≠ [(.memory, address)] := by
  have hexternal := hwindow.1
  simp only [isExternal, Bool.and_eq_true, decide_eq_true_eq] at hexternal
  cases hshown : state.mbc3.externalWindowFor state.profile.mbc3CartridgeProfile address with
  | rtcRegister select => exact absurd hshown (hwindow.2.2 select)
  | unavailable =>
    refine ⟨[], ⟨[], 0xff,
      (Step.start state roots []).bus.listed [] (.mbc3OpenBusRead address 0xff),
      accepts_readData_external hwindow ?_, ?_⟩, by simp⟩
    · unfold readExternal
      simp only [accepts_bind, accepts_get]
      refine ⟨_, _, ⟨rfl, rfl⟩, ?_⟩
      rw [show (Step.start state roots [] : Executor (BusState π τ)).bus.externalWindow address =
        .unavailable from hshown]
      simp [listed, Step.start]
    · rfl
  | ram physicalAddress =>
    have hplace : 0x10000 ≤ physicalAddress ∧ physicalAddress < 2 ^ 20 := by
      unfold Mbc3State.externalWindowFor at hshown
      split at hshown
      · exact absurd hshown (by simp)
      · split at hshown
        · rw [Mbc3ExternalWindow.ram.injEq] at hshown
          omega
        · split at hshown <;> exact absurd hshown (by simp)
    obtain ⟨read, haddress, hphysical, hverify⟩ := hopens address physicalAddress hplace.2
    refine ⟨[(.memory, physicalAddress)], ⟨[.memoryRead read], read.value,
      (Step.start state roots [.memoryRead read]).bus.listed [] (.memoryRead read),
      accepts_readData_external hwindow ?_, ?_⟩, ?_⟩
    · unfold readExternal
      simp only [accepts_bind, accepts_get]
      refine ⟨_, _, ⟨rfl, rfl⟩, ?_⟩
      rw [show (Step.start state roots [.memoryRead read] : Executor (BusState π τ)).bus.externalWindow
        address = .ram physicalAddress from hshown]
      exact (accepts_readMemory _ _ _).mpr
        ⟨read, [], rfl, haddress, hphysical, hverify, rfl, rfl⟩
    · simp [listed, Step.start, BusEvent.storage, hphysical]
    · simp only [ne_eq, List.cons.injEq, Prod.mk.injEq, true_and, and_true]
      omega

/-- In the banked window a fetch and a data read ask for different bytes. -/
theorem not_mappingAgrees_of_inBankedWindow (hopens : Opens authentication roots)
    (hwindow : InBankedWindow state address) :
    ¬ MappingAgrees authentication state roots address := by
  rintro ⟨hagrees, -⟩
  obtain ⟨read, hread, hne⟩ := requests_read hopens hwindow
  exact hne (hagrees .opcodeFetch _ read (requests_fetch hopens hwindow) hread).symm

/-- Fetches, data reads and DMA source reads agree on an address exactly outside the banked
external RAM window. -/
theorem mappingAgrees_iff (hopens : Opens authentication roots) :
    MappingAgrees authentication state roots address ↔ ¬ InBankedWindow state address := by
  constructor
  · intro hagrees hwindow
    exact not_mappingAgrees_of_inBankedWindow hopens hwindow hagrees
  · intro hwindow
    refine ⟨?_, fun read copied hread hcopied => read_eq_copied hread hcopied⟩
    intro role fetched read hfetched hread
    cases hexternal : isExternal address with
    | false => exact fetched_eq_read hexternal hfetched hread
    | true => exact absurd (inBankedWindow_of_accepted hexternal hfetched hread) hwindow

theorem opens_lookup : Opens BusAuthentication.lookup () :=
  fun address physicalAddress _ => ⟨⟨address, physicalAddress, 0, ()⟩, rfl, rfl, rfl⟩

/-- The state after the boot ROM with the external RAM switched on. -/
def ramEnabledState : VmState :=
  { VmState.dmgPostBootMbc3Initial .dmgPostBootMbc3V1 with
    mbc3 := { Mbc3State.profileInitial with ramEnabled := true } }

theorem mappingAgrees_iff_lookup :
    MappingAgrees BusAuthentication.lookup ramEnabledState () 0xc000 :=
  (mappingAgrees_iff opens_lookup).mpr (by decide)

/-- With the external RAM switched on, code at 0xa000 is not fetched from the byte that a data read
of 0xa000 returns. -/
theorem not_mappingAgrees_externalRam :
    ¬ MappingAgrees BusAuthentication.lookup ramEnabledState () 0xa000 :=
  not_mappingAgrees_of_inBankedWindow opens_lookup (by decide)

end AddressMap

end Zksm83
