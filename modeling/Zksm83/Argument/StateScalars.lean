import Zksm83.Core.Authentication

/-!
# The public scalars of a state

A segment boundary is public as 38 numbers. Registers, counters and codes stand alone; the device
registers, the APU registers, the wave memory, the joypad and the DMA are packed, one byte for each
register from the lowest byte up. Nothing is dropped and no two fields share bits, so the numbers
determine everything but the authentication roots. Read `encodeStateScalars_injective` first. After
`state.rs` of the proof system, with the packs of `dmg.rs` and `dmg/apu.rs`.
-/

namespace Zksm83

/-- The number of some bytes, the lowest first. -/
def leNat (bytes : List ℕ) : ℕ := Nat.ofDigits 256 bytes

/-- Eight bytes as a number; missing bytes are zero. -/
def packEight (bytes : List ℕ) : ℕ :=
  leNat ((List.range 8).map (fun index => bytes.getD index 0))

namespace DmgApuState

def controlLowPack (apu : DmgApuState) : ℕ := packEight (apu.registers.extract 0 8)
def controlHighPack (apu : DmgApuState) : ℕ := packEight (apu.registers.extract 8 16)
def mixerPack (apu : DmgApuState) : ℕ := packEight (apu.registers.extract 16 23)
def waveLowPack (apu : DmgApuState) : ℕ := packEight (apu.waveRam.extract 0 8)
def waveHighPack (apu : DmgApuState) : ℕ := packEight (apu.waveRam.extract 8 16)

/-- The arrays of the registers and of the wave memory. -/
structure Typed (apu : DmgApuState) : Prop where
  length_registers : apu.registers.length = 23
  registers_lt : ∀ byte ∈ apu.registers, byte < 256
  length_waveRam : apu.waveRam.length = 16
  waveRam_lt : ∀ byte ∈ apu.waveRam, byte < 256

end DmgApuState

namespace DmgDeviceState

/-- The bytes of the low register pack. -/
def lowRegisters (devices : DmgDeviceState) : List ℕ :=
  [devices.serialData, devices.serialControl, devices.timer.modulo, devices.timer.control,
    devices.lcdControl, devices.lcdStatusControl, devices.scrollY, devices.scrollX]

/-- The bytes of the high register pack, with the two bytes of the serial countdown. -/
def highRegisters (devices : DmgDeviceState) : List ℕ :=
  [devices.backgroundPalette, devices.objectPaletteZero, devices.objectPaletteOne,
    devices.windowY, devices.windowX, devices.lineCompare, devices.serialCyclesRemaining % 256,
    devices.serialCyclesRemaining / 256]

def joypadBytes (devices : DmgDeviceState) : List ℕ :=
  [devices.joypadSelect, devices.joypadButtons]

def dmaBytes (devices : DmgDeviceState) : List ℕ :=
  [devices.dmaSourceHigh, devices.dmaIndex, devices.dmaActive.toNat, devices.dmaOwed]

def lowRegisterPack (devices : DmgDeviceState) : ℕ := leNat devices.lowRegisters
def highRegisterPack (devices : DmgDeviceState) : ℕ := leNat devices.highRegisters
def joypadPack (devices : DmgDeviceState) : ℕ := leNat devices.joypadBytes
def dmaPack (devices : DmgDeviceState) : ℕ := leNat devices.dmaBytes

/-- The registers that are packed hold bytes; the serial countdown holds sixteen bits. -/
structure Typed (devices : DmgDeviceState) : Prop where
  lowRegisters_lt : ∀ byte ∈ devices.lowRegisters, byte < 256
  highRegisters_lt : ∀ byte ∈ devices.highRegisters, byte < 256
  joypadBytes_lt : ∀ byte ∈ devices.joypadBytes, byte < 256
  dmaBytes_lt : ∀ byte ∈ devices.dmaBytes, byte < 256
  apu : devices.apu.Typed

end DmgDeviceState

/-- The scalars of a state, in protocol order. -/
def encodeStateScalars (state : AuthenticatedState) : List ℕ :=
  let cpu := state.vm.cpu
  let registers := cpu.registers
  let mbc3 := state.vm.mbc3
  let devices := state.vm.dmgDevices
  let timer := devices.timer
  let apu := devices.apu
  [registers.a, registers.b, registers.c, registers.d, registers.e, registers.h, registers.l,
    cpu.flags.byte, cpu.pc, cpu.sp, cpu.ime.code, cpu.runState.code, cpu.mCycles,
    mbc3.ramEnabled.toNat, mbc3.romBank, mbc3.ramRtcSelect, state.vm.inputNext,
    state.vm.outputNext, state.roots.busTranscript.nextIndex, state.roots.isaTranscript.nextIndex,
    state.vm.profile.code, devices.interruptRequest, devices.interruptEnable,
    devices.lowRegisterPack, devices.highRegisterPack, devices.ppuLine, devices.ppuDot,
    timer.rawDiv, timer.counter, timer.reloadPhase, timer.edgeLatch.toNat, apu.controlLowPack,
    apu.controlHighPack, apu.mixerPack, apu.waveLowPack, apu.waveHighPack, devices.joypadPack,
    devices.dmaPack]

theorem leNat_injective {first second : List ℕ} (hfirst : ∀ byte ∈ first, byte < 256)
    (hsecond : ∀ byte ∈ second, byte < 256) (heq : leNat first = leNat second)
    (hlength : first.length = second.length) : first = second :=
  Nat.ofDigits_inj_of_len_eq (by decide) hlength hfirst hsecond heq

theorem packEight_injective {first second : List ℕ} (hlength : first.length = second.length)
    (hle : first.length ≤ 8) (hfirst : ∀ byte ∈ first, byte < 256)
    (hsecond : ∀ byte ∈ second, byte < 256) (heq : packEight first = packEight second) :
    first = second := by
  have hpadded : ∀ bytes : List ℕ, (∀ byte ∈ bytes, byte < 256) →
      ∀ byte ∈ (List.range 8).map (fun index => bytes.getD index 0), byte < 256 := by
    intro bytes hbytes byte hbyte
    obtain ⟨index, _, rfl⟩ := List.mem_map.mp hbyte
    by_cases hindex : index < bytes.length
    · rw [List.getD_eq_getElem _ _ hindex]
      exact hbytes _ (List.getElem_mem hindex)
    · rw [List.getD_eq_default _ _ (not_lt.mp hindex)]
      decide
  have hlists := leNat_injective (hpadded first hfirst) (hpadded second hsecond) heq
    (by simp)
  apply List.ext_getElem hlength
  intro index hindex hindex'
  have hat := congrArg (fun bytes => bytes[index]?) hlists
  simp only [List.getElem?_map, List.getElem?_range (hindex.trans_le hle), Option.map_some,
    Option.some.injEq] at hat
  rwa [List.getD_eq_getElem _ _ hindex, List.getD_eq_getElem _ _ hindex'] at hat

/-- A part of a byte array, packed, determines the part. -/
theorem packEight_extract_injective {first second : List ℕ}
    (hlength : first.length = second.length) (start stop : ℕ) (hle : stop - start ≤ 8)
    (hfirst : ∀ byte ∈ first, byte < 256) (hsecond : ∀ byte ∈ second, byte < 256)
    (heq : packEight (first.extract start stop) = packEight (second.extract start stop)) :
    first.extract start stop = second.extract start stop := by
  refine packEight_injective ?_ ?_ (fun byte hbyte => hfirst byte (List.mem_of_mem_drop
    (List.mem_of_mem_take hbyte))) (fun byte hbyte => hsecond byte (List.mem_of_mem_drop
    (List.mem_of_mem_take hbyte))) heq
  · simp [hlength]
  · simp only [List.extract_eq_take_drop, List.length_take, List.length_drop]
    omega

/-- Two consecutive parts of a list. -/
theorem extract_append_extract (bytes : List ℕ) {start middle stop : ℕ} (hmiddle : start ≤ middle)
    (hstop : middle ≤ stop) :
    bytes.extract start middle ++ bytes.extract middle stop = bytes.extract start stop := by
  have hdrop : bytes.drop middle = (bytes.drop start).drop (middle - start) := by
    rw [List.drop_drop, Nat.add_sub_cancel' hmiddle]
  rw [List.extract_eq_take_drop, List.extract_eq_take_drop, List.extract_eq_take_drop, hdrop,
    show stop - start = middle - start + (stop - middle) by omega, List.take_add]

namespace DmgApuState

/-- The five packs determine the APU. -/
theorem packs_injective {first second : DmgApuState} (hfirst : first.Typed)
    (hsecond : second.Typed) (hcontrolLow : first.controlLowPack = second.controlLowPack)
    (hcontrolHigh : first.controlHighPack = second.controlHighPack)
    (hmixer : first.mixerPack = second.mixerPack)
    (hwaveLow : first.waveLowPack = second.waveLowPack)
    (hwaveHigh : first.waveHighPack = second.waveHighPack) : first = second := by
  have hregisters : first.registers = second.registers := by
    have hpart := packEight_extract_injective
      (hfirst.length_registers.trans hsecond.length_registers.symm)
    have hsplit : ∀ apu : DmgApuState, apu.Typed → apu.registers =
        apu.registers.extract 0 8 ++ apu.registers.extract 8 16 ++
          apu.registers.extract 16 23 := by
      intro apu happu
      rw [extract_append_extract _ (by decide) (by decide),
        extract_append_extract _ (by decide) (by decide), ← happu.length_registers,
        List.extract_eq_take_drop, List.drop_zero, Nat.sub_zero, List.take_length]
    rw [hsplit first hfirst, hsplit second hsecond,
      hpart 0 8 (by decide) hfirst.registers_lt hsecond.registers_lt hcontrolLow,
      hpart 8 16 (by decide) hfirst.registers_lt hsecond.registers_lt hcontrolHigh,
      hpart 16 23 (by decide) hfirst.registers_lt hsecond.registers_lt hmixer]
  have hwaveRam : first.waveRam = second.waveRam := by
    have hpart := packEight_extract_injective
      (hfirst.length_waveRam.trans hsecond.length_waveRam.symm)
    have hsplit : ∀ apu : DmgApuState, apu.Typed → apu.waveRam =
        apu.waveRam.extract 0 8 ++ apu.waveRam.extract 8 16 := by
      intro apu happu
      rw [extract_append_extract _ (by decide) (by decide), ← happu.length_waveRam,
        List.extract_eq_take_drop, List.drop_zero, Nat.sub_zero, List.take_length]
    rw [hsplit first hfirst, hsplit second hsecond,
      hpart 0 8 (by decide) hfirst.waveRam_lt hsecond.waveRam_lt hwaveLow,
      hpart 8 16 (by decide) hfirst.waveRam_lt hsecond.waveRam_lt hwaveHigh]
  cases first
  cases second
  exact congrArg₂ DmgApuState.mk hregisters hwaveRam

end DmgApuState

theorem ImeState.code_injective : Function.Injective ImeState.code := by
  intro first second heq
  cases first <;> cases second <;> simp_all [ImeState.code]

theorem RunState.code_injective : Function.Injective RunState.code := by
  intro first second heq
  cases first <;> cases second <;> simp_all [RunState.code]

theorem MachineProfile.code_injective : Function.Injective MachineProfile.code := by
  intro first second heq
  cases first <;> cases second <;> simp_all [MachineProfile.code]

theorem Flags.byte_injective : Function.Injective Flags.byte := by
  rintro ⟨zero, subtract, halfCarry, carry⟩ ⟨zero', subtract', halfCarry', carry'⟩ heq
  revert heq
  revert zero subtract halfCarry carry zero' subtract' halfCarry' carry'
  decide

attribute [ext] Registers CpuState Mbc3State DmgTimerState DmgDeviceState VmState

/-- The scalars determine everything but the authentication roots: the CPU, the mapper, the log
cursors, the profile, the devices and the transcript cursors. -/
theorem encodeStateScalars_injective {first second : AuthenticatedState}
    (hfirst : first.vm.dmgDevices.Typed) (hsecond : second.vm.dmgDevices.Typed)
    (heq : encodeStateScalars first = encodeStateScalars second) :
    first.vm = second.vm ∧
      first.roots.busTranscript.nextIndex = second.roots.busTranscript.nextIndex ∧
      first.roots.isaTranscript.nextIndex = second.roots.isaTranscript.nextIndex := by
  simp only [encodeStateScalars, List.cons.injEq, and_true] at heq
  obtain ⟨ha, hb, hc, hd, he, hh, hl, hflags, hpc, hsp, hime, hrunState, hmCycles, hramEnabled,
    hromBank, hramRtcSelect, hinputNext, houtputNext, hbus, hisa, hprofile, hrequest, henable,
    hlow, hhigh, hppuLine, hppuDot, hrawDiv, hcounter, hreloadPhase, hedgeLatch, hcontrolLow,
    hcontrolHigh, hmixer, hwaveLow, hwaveHigh, hjoypad, hdma⟩ := heq
  refine ⟨?_, hbus, hisa⟩
  have hlow := leNat_injective hfirst.lowRegisters_lt hsecond.lowRegisters_lt hlow rfl
  have hhigh := leNat_injective hfirst.highRegisters_lt hsecond.highRegisters_lt hhigh rfl
  have hjoypad := leNat_injective hfirst.joypadBytes_lt hsecond.joypadBytes_lt hjoypad rfl
  have hdma := leNat_injective hfirst.dmaBytes_lt hsecond.dmaBytes_lt hdma rfl
  have hapu := DmgApuState.packs_injective hfirst.apu hsecond.apu hcontrolLow hcontrolHigh hmixer
    hwaveLow hwaveHigh
  simp only [DmgDeviceState.lowRegisters, List.cons.injEq, and_true] at hlow
  simp only [DmgDeviceState.highRegisters, List.cons.injEq, and_true] at hhigh
  simp only [DmgDeviceState.joypadBytes, List.cons.injEq, and_true] at hjoypad
  simp only [DmgDeviceState.dmaBytes, List.cons.injEq, and_true] at hdma
  obtain ⟨hserialData, hserialControl, hmodulo, hcontrol, hlcdControl, hlcdStatusControl, hscrollY,
    hscrollX⟩ := hlow
  obtain ⟨hbackground, hobjectZero, hobjectOne, hwindowY, hwindowX, hlineCompare, hcountdownLow,
    hcountdownHigh⟩ := hhigh
  obtain ⟨hdmaSource, hdmaIndex, hdmaActive, hdmaOwed⟩ := hdma
  have htoNat : Function.Injective Bool.toNat := by decide
  have hcountdown : first.vm.dmgDevices.serialCyclesRemaining =
      second.vm.dmgDevices.serialCyclesRemaining := by omega
  have hcpu : first.vm.cpu = second.vm.cpu :=
    CpuState.ext (Registers.ext ha hb hc hd he hh hl) (Flags.byte_injective hflags) hpc hsp
      (ImeState.code_injective hime) (RunState.code_injective hrunState) hmCycles
  have hmbc3 : first.vm.mbc3 = second.vm.mbc3 :=
    Mbc3State.ext (htoNat hramEnabled) hromBank hramRtcSelect
  have htimer : first.vm.dmgDevices.timer = second.vm.dmgDevices.timer :=
    DmgTimerState.ext hrawDiv hcounter hmodulo hcontrol (htoNat hedgeLatch)
      hreloadPhase
  have hdevices : first.vm.dmgDevices = second.vm.dmgDevices :=
    DmgDeviceState.ext hrequest henable hserialData hserialControl hcountdown htimer hapu
      hlcdControl hlcdStatusControl hscrollY hscrollX hbackground hobjectZero hobjectOne hwindowY
      hwindowX hlineCompare hppuLine hppuDot hjoypad.1 hjoypad.2 hdmaSource hdmaIndex
      (htoNat hdmaActive) hdmaOwed
  exact VmState.ext (MachineProfile.code_injective hprofile) hcpu hmbc3 hdevices hinputNext
    houtputNext

/-- The initial state over an empty memory and one over another memory root. -/
def initialState (memoryRoot : CommitmentRoot) : AuthenticatedState where
  vm := .dmgPostBootMbc3Initial .dmgPostBootMbc3V1
  roots := ⟨.zero, memoryRoot, .zero, .zero, ⟨0, .zero⟩, ⟨0, .zero⟩⟩

theorem typed_dmgPostBoot : DmgDeviceState.dmgPostBoot.Typed where
  lowRegisters_lt := by decide
  highRegisters_lt := by decide
  joypadBytes_lt := by decide
  dmaBytes_lt := by decide
  apu := ⟨by decide, by decide, by decide, by decide⟩

theorem encodeStateScalars_injective_initial :
    (initialState .zero).vm = (initialState ⟨.replicate 32 1⟩).vm ∧
      (initialState .zero).roots.busTranscript.nextIndex =
        (initialState ⟨.replicate 32 1⟩).roots.busTranscript.nextIndex ∧
      (initialState .zero).roots.isaTranscript.nextIndex =
        (initialState ⟨.replicate 32 1⟩).roots.isaTranscript.nextIndex :=
  encodeStateScalars_injective typed_dmgPostBoot typed_dmgPostBoot rfl

end Zksm83
