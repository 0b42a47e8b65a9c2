import Zksm83.Core.Execute
import Zksm83.Library.Rejecting

/-!
# The machine bus

Every access of an instruction goes through the bus: it checks that the address is open to the CPU,
finds the owner of the address, takes the witness of the access from the step input, checks it
against the address that the machine derived, and lists the access as an event. The authentication
of the witnesses is a parameter: Merkle paths under the ROM and memory roots for `StepRelation`, and
nothing for `LookupStepRelation`, whose enclosing proof authenticates the bytes. After `bus.rs`.
-/

namespace Zksm83

open Rejecting

/-- A ROM byte with its authentication path. -/
structure RomRead (π : Type) where
  address : ℕ
  physicalAddress : ℕ
  value : Byte
  path : π
  deriving DecidableEq, Repr

/-- A byte of the mutable memory with its authentication path. -/
structure MemoryRead (π : Type) where
  address : ℕ
  physicalAddress : ℕ
  value : Byte
  path : π
  deriving DecidableEq, Repr

/-- An update of the mutable memory with its authentication path. -/
structure MemoryWrite (π : Type) where
  address : ℕ
  physicalAddress : ℕ
  before : Byte
  after : Byte
  path : π
  deriving DecidableEq, Repr

/-- A witness of the step input. -/
inductive BusWitness (π : Type) where
  | rom (read : RomRead π)
  | memoryRead (read : MemoryRead π)
  | memoryWrite (write : MemoryWrite π)
  | inputByte (value : Byte)
  deriving DecidableEq, Repr

def BusWitness.kind {π : Type} : BusWitness π → WitnessKind
  | .rom _ => .rom
  | .memoryRead _ => .memoryRead
  | .memoryWrite _ => .memoryWrite
  | .inputByte _ => .inputByte

/-- An ordered bus event of an accepted step. -/
inductive BusEvent (π : Type) where
  | opcodeFetch (read : RomRead π)
  | immediateRead (read : RomRead π)
  | memoryOpcodeFetch (read : MemoryRead π)
  | memoryImmediateRead (read : MemoryRead π)
  | romRead (read : RomRead π)
  | memoryRead (read : MemoryRead π)
  | dmgDmaRomRead (read : RomRead π)
  | dmgDmaMemoryRead (read : MemoryRead π)
  | dmgDmaWrite (write : MemoryWrite π)
  | memoryWrite (write : MemoryWrite π)
  | mbc3ControlWrite (address value : ℕ)
  | mbc3OpenBusRead (address value : ℕ)
  | mbc3IgnoredWrite (address value : ℕ)
  | inputRead (index value : ℕ)
  | outputWrite (index value : ℕ)
  | dmgMmioRead (address value : ℕ)
  | dmgMmioWrite (address before value : ℕ)
  | dmgJoypadRead (index beforeButtons buttons value : ℕ)
  deriving DecidableEq, Repr

/-- How a step authenticates its witnesses against the roots `τ`, and how it commits to its events
and its instruction in the end. -/
structure BusAuthentication (π τ : Type) where
  verifyRom : τ → RomRead π → Except StepError Unit
  verifyRead : τ → MemoryRead π → Except StepError Unit
  verifyWrite : τ → MemoryWrite π → Except StepError τ
  commit : τ → List (BusEvent π) → DecodedInstruction → Except StepError τ

/-- The lookup relation authenticates nothing itself. -/
def BusAuthentication.lookup : BusAuthentication Unit Unit where
  verifyRom _ _ := .ok ()
  verifyRead _ _ := .ok ()
  verifyWrite _ _ := .ok ()
  commit _ _ _ := .ok ()

/-- What the bus reads and changes during a step: the state without the CPU, the roots, the
witnesses that are left, and the events so far. -/
structure BusState (π τ : Type) where
  profile : MachineProfile
  mbc3 : Mbc3State
  dmgDevices : DmgDeviceState
  inputNext : ℕ
  outputNext : ℕ
  roots : τ
  witnesses : List (BusWitness π)
  events : List (BusEvent π)

namespace BusState

variable {π τ : Type}

/-- An action of the bus. -/
abbrev BusAction (π τ α : Type) := Action StepError (BusState π τ) α

/-- The owner of an address under the profile. -/
def ownerOf (state : BusState π τ) (address : ℕ) : AddressOwner :=
  if state.profile.isDmgPostBootMbc3 then dmgOwner address else owner address

def externalWindow (state : BusState π τ) (address : ℕ) : Mbc3ExternalWindow :=
  state.mbc3.externalWindowFor state.profile.mbc3CartridgeProfile address

/-- An address of the external RAM window. -/
def isExternal (address : ℕ) : Bool := 0xa000 ≤ address && address ≤ 0xbfff

def lift {α : Type} (result : Except StepError α) : BusAction π τ α :=
  match result with
  | .ok value => pure value
  | .error error => throw error

def pushEvent (event : BusEvent π) : BusAction π τ Unit :=
  modify (fun state => { state with events := state.events ++ [event] })

/-- The next witness, which has to be of the requested kind. -/
def next (request : WitnessRequest) : BusAction π τ (BusWitness π) := do
  let state ← get
  match state.witnesses with
  | [] => throw (.missingWitness request)
  | witness :: rest =>
    modify (fun state => { state with witnesses := rest })
    if witness.kind ≠ request.kind then throw (.unexpectedWitness request witness.kind)
    return witness

def requireAddress (expected actual : ℕ) (role : BusRole) : BusAction π τ Unit :=
  if actual ≠ expected then throw (.addressMismatch role expected actual) else pure ()

def requirePhysicalAddress (expected actual : ℕ) (role : BusRole) : BusAction π τ Unit :=
  if actual ≠ expected then throw (.physicalAddressMismatch role expected actual) else pure ()

/-- During OAM DMA the CPU reaches only the high RAM. -/
def requireCpuDmaAccess (address : ℕ) : BusAction π τ Unit := do
  let state ← get
  if state.profile.isDmgPostBootMbc3 && state.dmgDevices.dmaActive &&
      !(0xff80 ≤ address && address ≤ 0xfffe) then
    throw (.dmgDmaCpuBusUnavailable address)

/-- The LCD controller closes the video memory to the CPU in some modes. -/
def requireCpuPpuAccess (address : ℕ) : BusAction π τ Unit := do
  let state ← get
  let blocked :=
    (0x8000 ≤ address && address ≤ 0x9fff && state.dmgDevices.cpuVramBlocked) ||
      (0xfe00 ≤ address && address ≤ 0xfe9f && state.dmgDevices.cpuOamBlocked)
  if state.profile.isDmgPostBootMbc3 && blocked then
    throw (.dmgPpuCpuBusUnavailable address)

/-- A log index after one more entry. -/
def nextIndex (index : ℕ) : BusAction π τ ℕ :=
  if index + 1 < 2 ^ 64 then pure (index + 1) else throw .logIndexOverflow

variable (authentication : BusAuthentication π τ)

def takeRomRead (address physicalAddress : ℕ) (role : BusRole) : BusAction π τ (RomRead π) := do
  match ← next (.rom address physicalAddress role) with
  | .rom read =>
    requireAddress address read.address role
    requirePhysicalAddress physicalAddress read.physicalAddress role
    lift (authentication.verifyRom (← get).roots read)
    return read
  | _ => throw .witnessKindInvariant

def takeMemoryRead (address physicalAddress : ℕ) (role : BusRole) :
    BusAction π τ (MemoryRead π) := do
  match ← next (.memoryRead address physicalAddress) with
  | .memoryRead read =>
    requireAddress address read.address role
    requirePhysicalAddress physicalAddress read.physicalAddress role
    lift (authentication.verifyRead (← get).roots read)
    return read
  | _ => throw .witnessKindInvariant

def takeMemoryWrite (address physicalAddress value : ℕ) : BusAction π τ (MemoryWrite π) := do
  match ← next (.memoryWrite address physicalAddress value) with
  | .memoryWrite write =>
    requireAddress address write.address .dataWrite
    requirePhysicalAddress physicalAddress write.physicalAddress .dataWrite
    -- the value is a byte on the bus
    if (write.after : ℕ) ≠ value % 256 then throw (.writeValueMismatch value write.after)
    return write
  | _ => throw .witnessKindInvariant

/-- The roots after an authenticated update. -/
def verifyWrite (write : MemoryWrite π) : BusAction π τ Unit := do
  let roots ← lift (authentication.verifyWrite (← get).roots write)
  modify (fun state => { state with roots := roots })

/-- A ROM byte through the mapper. -/
def fetch (address : ℕ) (role : BusRole) : BusAction π τ ℕ := do
  let read ← takeRomRead authentication address ((← get).mbc3.mapRomFor address) role
  match role with
  | .opcodeFetch => pushEvent (.opcodeFetch read)
  | .immediateRead => pushEvent (.immediateRead read)
  | .dataRead => pushEvent (.romRead read)
  | .dataWrite => throw .instructionMetadataInvariant
  return read.value

def readMemory (address physicalAddress : ℕ) : BusAction π τ ℕ := do
  let read ← takeMemoryRead authentication address physicalAddress .dataRead
  pushEvent (.memoryRead read)
  return read.value

/-- An instruction byte from mutable memory; the physical address is the CPU address. -/
def readInstructionMemory (address : ℕ) (role : BusRole) : BusAction π τ ℕ := do
  let read ← takeMemoryRead authentication address address role
  match role with
  | .opcodeFetch => pushEvent (.memoryOpcodeFetch read)
  | .immediateRead => pushEvent (.memoryImmediateRead read)
  | .dataRead | .dataWrite => throw .instructionMetadataInvariant
  return read.value

def writeMemory (address physicalAddress value : ℕ) : BusAction π τ Unit := do
  let write ← takeMemoryWrite address physicalAddress value
  verifyWrite authentication write
  pushEvent (.memoryWrite write)

def readInput : BusAction π τ ℕ := do
  match ← next .inputByte with
  | .inputByte value =>
    let index := (← get).inputNext
    let advanced ← nextIndex index
    modify (fun state => { state with inputNext := advanced })
    pushEvent (.inputRead index value)
    return value
  | _ => throw .witnessKindInvariant

def readDmgMmio (address : ℕ) : BusAction π τ ℕ := do
  match (← get).dmgDevices.readMmio address with
  | some value =>
    pushEvent (.dmgMmioRead address value)
    return value
  | none => throw (.dmgMmioUnavailable address)

def readDmgJoypad : BusAction π τ ℕ := do
  match ← next .inputByte with
  | .inputByte buttons =>
    let state ← get
    let advanced ← nextIndex state.inputNext
    let (value, devices) := state.dmgDevices.sampleJoypad buttons
    modify (fun state => { state with dmgDevices := devices, inputNext := advanced })
    pushEvent (.dmgJoypadRead state.inputNext state.dmgDevices.joypadButtons buttons value)
    return value
  | _ => throw .witnessKindInvariant

def writeDmgMmio (address value : ℕ) : BusAction π τ Unit := do
  match (← get).dmgDevices.writeMmio address value with
  | some (before, devices) =>
    modify (fun state => { state with dmgDevices := devices })
    pushEvent (.dmgMmioWrite address before value)
  | none => throw (.dmgMmioUnavailable address)

def writeOutput (value : ℕ) : BusAction π τ Unit := do
  let index := (← get).outputNext
  let advanced ← nextIndex index
  modify (fun state => { state with outputNext := advanced })
  pushEvent (.outputWrite index value)

def fetchInstruction (address : ℕ) (role : BusRole) : BusAction π τ ℕ := do
  requireCpuDmaAccess address
  requireCpuPpuAccess address
  match (← get).ownerOf address with
  | .rom => fetch authentication address role
  | .memory => readInstructionMemory authentication address role
  | .input | .output | .dmgMmio | .dmgEcho | .unowned => throw (.unownedInstructionFetch address)

def readExternal (address : ℕ) : BusAction π τ ℕ := do
  match (← get).externalWindow address with
  | .ram physicalAddress => readMemory authentication address physicalAddress
  | .rtcRegister select => throw (.mbc3RtcRegisterUnavailable select)
  | .unavailable =>
    pushEvent (.mbc3OpenBusRead address 0xff)
    return 0xff

def readData (address : ℕ) : BusAction π τ ℕ := do
  requireCpuDmaAccess address
  requireCpuPpuAccess address
  let state ← get
  if state.profile.isDmgPostBootMbc3 && address = 0xff00 then readDmgJoypad
  else if isExternal address then readExternal authentication address
  else
    match state.ownerOf address with
    | .rom => fetch authentication address .dataRead
    | .memory => readMemory authentication address address
    | .input => readInput
    | .output => throw .readFromOutputPort
    | .dmgMmio => readDmgMmio address
    | .dmgEcho => throw (.dmgEchoUnavailable address)
    | .unowned => throw (.unownedRead address)

def writeExternal (address value : ℕ) : BusAction π τ Unit := do
  match (← get).externalWindow address with
  | .ram physicalAddress => writeMemory authentication address physicalAddress value
  | .rtcRegister select => throw (.mbc3RtcRegisterUnavailable select)
  | .unavailable => pushEvent (.mbc3IgnoredWrite address value)

/-- A write to the ROM window, which the mapper takes. -/
def writeControl (address value : ℕ) : BusAction π τ Unit := do
  modify (fun state => { state with
    mbc3 := state.mbc3.applyControlWriteFor state.profile.mbc3CartridgeProfile address value })
  pushEvent (.mbc3ControlWrite address value)

def writeData (address value : ℕ) : BusAction π τ Unit := do
  requireCpuDmaAccess address
  requireCpuPpuAccess address
  if address ≤ 0x7fff then writeControl address value
  else if isExternal address then writeExternal authentication address value
  else
    match (← get).ownerOf address with
    | .memory => writeMemory authentication address address value
    | .output => writeOutput value
    | .rom => throw (.writeToRom address)
    | .input => throw .writeToInputPort
    | .dmgMmio => writeDmgMmio address value
    | .dmgEcho => throw (.dmgEchoUnavailable address)
    | .unowned => throw (.unownedWrite address)

/-- The physical address of a DMA source byte in mutable memory. -/
def dmaSourcePhysical (source : ℕ) : BusAction π τ ℕ := do
  if isExternal source then
    match (← get).externalWindow source with
    | .ram physicalAddress => return physicalAddress
    | .rtcRegister select => throw (.mbc3RtcRegisterUnavailable select)
    | .unavailable => throw (.dmgDmaSourceUnavailable source)
  else return source

/-- The source byte of a DMA step. -/
def readDmaSource (source : ℕ) : BusAction π τ ℕ := do
  if 0xdf9f < source then throw (.dmgDmaSourceUnavailable source)
  match (← get).ownerOf source with
  | .rom =>
    let read ← takeRomRead authentication source ((← get).mbc3.mapRomFor source) .dataRead
    pushEvent (.dmgDmaRomRead read)
    return read.value
  | .memory =>
    let physicalAddress ← dmaSourcePhysical source
    let read ← takeMemoryRead authentication source physicalAddress .dataRead
    pushEvent (.dmgDmaMemoryRead read)
    return read.value
  | .input | .output | .dmgMmio | .dmgEcho | .unowned => throw (.dmgDmaSourceUnavailable source)

/-- One byte of an OAM DMA transfer. -/
def copyDmaByte : BusAction π τ Unit := do
  let devices := (← get).dmgDevices
  let value ← readDmaSource authentication devices.dmaSourceAddress
  let write ← takeMemoryWrite devices.dmaDestinationAddress devices.dmaDestinationAddress value
  verifyWrite authentication write
  pushEvent (.dmgDmaWrite write)
  modify (fun state => { state with dmgDevices := state.dmgDevices.completeDmaByte })

end BusState

/-- The bus of the machine. -/
def machineBus {π τ : Type} (authentication : BusAuthentication π τ) : CpuBus (BusState π τ) where
  fetchInstruction := BusState.fetchInstruction authentication
  readData := BusState.readData authentication
  writeData := BusState.writeData authentication

end Zksm83
