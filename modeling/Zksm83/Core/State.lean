import Zksm83.Core.Alu
import Zksm83.Core.Devices

/-!
# CPU, mapper and VM state

The CPU state with its register pairs, the MBC3 mapper, the machine profiles, and address
ownership. Commitment roots and transcripts are left out: the lookup relation neither reads nor
changes them. After `state.rs`, `mbc3.rs` and `address.rs`.
-/

namespace Zksm83

structure Registers where
  a : ℕ
  b : ℕ
  c : ℕ
  d : ℕ
  e : ℕ
  h : ℕ
  l : ℕ
  deriving DecidableEq, Repr

inductive ImeState where
  | disabled | enablePending | enabled
  deriving DecidableEq, Repr

def ImeState.code : ImeState → ℕ
  | .disabled => 0
  | .enablePending => 1
  | .enabled => 2

inductive RunState where
  | running | halted | stopped | haltBug
  deriving DecidableEq, Repr

namespace RunState

def code : RunState → ℕ
  | .running => 0
  | .halted => 1
  | .stopped => 2
  | .haltBug => 3

def canExecuteInstruction : RunState → Bool
  | .running | .haltBug => true
  | .halted | .stopped => false

end RunState

structure CpuState where
  registers : Registers
  flags : Flags
  pc : ℕ
  sp : ℕ
  ime : ImeState
  runState : RunState
  mCycles : ℕ
  deriving DecidableEq, Repr

namespace CpuState

def dmgPostBootInitial : CpuState where
  registers := ⟨0x01, 0x00, 0x13, 0x00, 0xd8, 0x01, 0x4d⟩
  flags := .fromByte 0xb0
  pc := 0x0100
  sp := 0xfffe
  ime := .disabled
  runState := .running
  mCycles := 0

def register8 (cpu : CpuState) : Register8 → ℕ
  | .a => cpu.registers.a
  | .b => cpu.registers.b
  | .c => cpu.registers.c
  | .d => cpu.registers.d
  | .e => cpu.registers.e
  | .h => cpu.registers.h
  | .l => cpu.registers.l

def setRegister8 (cpu : CpuState) (register : Register8) (value : ℕ) : CpuState :=
  { cpu with registers := match register with
    | .a => { cpu.registers with a := value }
    | .b => { cpu.registers with b := value }
    | .c => { cpu.registers with c := value }
    | .d => { cpu.registers with d := value }
    | .e => { cpu.registers with e := value }
    | .h => { cpu.registers with h := value }
    | .l => { cpu.registers with l := value } }

def register16 (cpu : CpuState) : Register16 → ℕ
  | .bc => cpu.registers.b * 256 + cpu.registers.c
  | .de => cpu.registers.d * 256 + cpu.registers.e
  | .hl => cpu.registers.h * 256 + cpu.registers.l
  | .sp => cpu.sp

def setRegister16 (cpu : CpuState) (register : Register16) (value : ℕ) : CpuState :=
  match register with
  | .bc => { cpu with registers := { cpu.registers with b := value / 256, c := value % 256 } }
  | .de => { cpu with registers := { cpu.registers with d := value / 256, e := value % 256 } }
  | .hl => { cpu with registers := { cpu.registers with h := value / 256, l := value % 256 } }
  | .sp => { cpu with sp := value }

def stackRegister (cpu : CpuState) : StackRegister16 → ℕ
  | .bc => cpu.register16 .bc
  | .de => cpu.register16 .de
  | .hl => cpu.register16 .hl
  | .af => cpu.registers.a * 256 + cpu.flags.byte

def setStackRegister (cpu : CpuState) (register : StackRegister16) (value : ℕ) : CpuState :=
  match register with
  | .bc => cpu.setRegister16 .bc value
  | .de => cpu.setRegister16 .de value
  | .hl => cpu.setRegister16 .hl value
  | .af => { cpu.setRegister8 .a (value / 256) with flags := .fromByte (value % 256) }

def conditionHolds (cpu : CpuState) : Condition → Bool
  | .notZero => !cpu.flags.zero
  | .zero => cpu.flags.zero
  | .notCarry => !cpu.flags.carry
  | .carry => cpu.flags.carry

def indirectAddress (cpu : CpuState) : IndirectAddress → ℕ
  | .bc => cpu.register16 .bc
  | .de => cpu.register16 .de
  | .hlIncrement | .hlDecrement => cpu.register16 .hl

def updateHlAfterIndirect (cpu : CpuState) : IndirectAddress → CpuState
  | .hlIncrement => cpu.setRegister16 .hl ((cpu.register16 .hl + 1) % 65536)
  | .hlDecrement => cpu.setRegister16 .hl ((cpu.register16 .hl + 65535) % 65536)
  | .bc | .de => cpu

end CpuState

inductive Mbc3RomSize where
  | rom256KiB | rom1MiB
  deriving DecidableEq, Repr

inductive Mbc3RtcMode where
  | noRtc | rtcCapable
  deriving DecidableEq, Repr

structure Mbc3CartridgeProfile where
  romSize : Mbc3RomSize
  rtc : Mbc3RtcMode
  deriving DecidableEq, Repr

def Mbc3RomSize.bankMask : Mbc3RomSize → ℕ
  | .rom256KiB => 0x0f
  | .rom1MiB => 0x3f

/-- What the window `0xa000` to `0xbfff` shows. -/
inductive Mbc3ExternalWindow where
  | ram (physicalAddress : ℕ)
  | rtcRegister (select : ℕ)
  | unavailable
  deriving DecidableEq, Repr

structure Mbc3State where
  ramEnabled : Bool
  romBank : ℕ
  ramRtcSelect : ℕ
  deriving DecidableEq, Repr

namespace Mbc3State

def profileInitial : Mbc3State := ⟨false, 1, 0⟩

def mapRomFor (mbc3 : Mbc3State) (address : ℕ) : ℕ :=
  if address < 0x4000 then address else mbc3.romBank * 0x4000 + (address - 0x4000)

def externalWindowFor (mbc3 : Mbc3State) (profile : Mbc3CartridgeProfile) (address : ℕ) :
    Mbc3ExternalWindow :=
  if !mbc3.ramEnabled ∨ ¬ (0xa000 ≤ address ∧ address ≤ 0xbfff) then .unavailable
  else if mbc3.ramRtcSelect ≤ 3 then
    .ram (0x10000 + mbc3.ramRtcSelect * 0x2000 + (address - 0xa000))
  else if profile.rtc = .rtcCapable ∧ 0x08 ≤ mbc3.ramRtcSelect ∧ mbc3.ramRtcSelect ≤ 0x0c then
    .rtcRegister mbc3.ramRtcSelect
  else .unavailable

def applyControlWriteFor (mbc3 : Mbc3State) (profile : Mbc3CartridgeProfile) (address value : ℕ) :
    Mbc3State :=
  if address ≤ 0x1fff then { mbc3 with ramEnabled := value &&& 0x0f = 0x0a }
  else if address ≤ 0x3fff then
    let selected := value &&& profile.romSize.bankMask
    { mbc3 with romBank := if selected = 0 then 1 else selected }
  else if address ≤ 0x5fff then { mbc3 with ramRtcSelect := value &&& 0x0f }
  else mbc3

end Mbc3State

inductive MachineProfile where
  | cleanCoreV1
  | dmgPostBootMbc3V1
  | dmgPostBootMbc3Rom256KiBNoRtcV1
  | dmgPostBootMbc3Rom256KiBRtcV1
  | dmgPostBootMbc3Rom1MiBRtcV1
  deriving DecidableEq, Repr

namespace MachineProfile

def code : MachineProfile → ℕ
  | .cleanCoreV1 => 0
  | .dmgPostBootMbc3V1 => 1
  | .dmgPostBootMbc3Rom256KiBNoRtcV1 => 2
  | .dmgPostBootMbc3Rom256KiBRtcV1 => 3
  | .dmgPostBootMbc3Rom1MiBRtcV1 => 4

def isDmgPostBootMbc3 : MachineProfile → Bool
  | .cleanCoreV1 => false
  | _ => true

def mbc3CartridgeProfile : MachineProfile → Mbc3CartridgeProfile
  | .cleanCoreV1 | .dmgPostBootMbc3V1 => ⟨.rom1MiB, .noRtc⟩
  | .dmgPostBootMbc3Rom256KiBNoRtcV1 => ⟨.rom256KiB, .noRtc⟩
  | .dmgPostBootMbc3Rom256KiBRtcV1 => ⟨.rom256KiB, .rtcCapable⟩
  | .dmgPostBootMbc3Rom1MiBRtcV1 => ⟨.rom1MiB, .rtcCapable⟩

end MachineProfile

inductive AddressOwner where
  | rom | memory | input | output | dmgMmio | dmgEcho | unowned
  deriving DecidableEq, Repr

abbrev inputPort : ℕ := 0xfff0
abbrev outputPort : ℕ := 0xfff1

def owner (address : ℕ) : AddressOwner :=
  if address ≤ 0x7fff then .rom
  else if address ≤ 0xffef then .memory
  else if address = inputPort then .input
  else if address = outputPort then .output
  else .unowned

def dmgOwner (address : ℕ) : AddressOwner :=
  if address ≤ 0x7fff then .rom
  else if address ≤ 0xdfff then .memory
  else if address ≤ 0xfdff then .dmgEcho
  else if address ≤ 0xfe9f then .memory
  else if address ≤ 0xfeff then .unowned
  else if address ≤ 0xff7f then .dmgMmio
  else if address ≤ 0xfffe then .memory
  else .dmgMmio

/-- The VM state without its authentication roots; a log is its next index. -/
structure VmState where
  profile : MachineProfile
  cpu : CpuState
  mbc3 : Mbc3State
  dmgDevices : DmgDeviceState
  inputNext : ℕ
  outputNext : ℕ
  deriving DecidableEq, Repr

/-- The owner of an address under the profile of a state. -/
def stateOwner (state : VmState) (address : ℕ) : AddressOwner :=
  if state.profile.isDmgPostBootMbc3 then dmgOwner address else owner address

end Zksm83
