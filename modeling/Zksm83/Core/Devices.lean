import Mathlib

/-!
# DMG devices

Timer, APU registers, serial port, PPU position, joypad, OAM DMA and the interrupt registers, with
register I/O and the advance by M-cycles. Registers are natural numbers; the counters count in
their own width. After `dmg.rs`, `dmg/timer.rs` and `dmg/apu.rs`.
-/

namespace Zksm83

inductive DmgInterrupt where
  | vblank | lcdStat | timer | serial | joypad
  deriving DecidableEq, Repr

namespace DmgInterrupt

def bit : DmgInterrupt → ℕ
  | .vblank => 0
  | .lcdStat => 1
  | .timer => 2
  | .serial => 3
  | .joypad => 4

def vector : DmgInterrupt → ℕ
  | .vblank => 0x40
  | .lcdStat => 0x48
  | .timer => 0x50
  | .serial => 0x58
  | .joypad => 0x60

end DmgInterrupt

/-- Divider and programmable timer. -/
structure DmgTimerState where
  rawDiv : ℕ
  counter : ℕ
  modulo : ℕ
  control : ℕ
  edgeLatch : Bool
  reloadPhase : ℕ
  deriving DecidableEq, Repr

namespace DmgTimerState

def dmgPostBoot : DmgTimerState := ⟨0xabcc, 0, 0, 0, false, 0⟩

def read (timer : DmgTimerState) (address : ℕ) : Option ℕ :=
  match address with
  | 0xff04 => some (timer.rawDiv / 256)
  | 0xff05 => some (if timer.reloadPhase = 5 then timer.modulo else timer.counter)
  | 0xff06 => some timer.modulo
  | 0xff07 => some (0xf8 ||| timer.control)
  | _ => none

def writeCounter (timer : DmgTimerState) (value : ℕ) : DmgTimerState :=
  if timer.reloadPhase = 5 then { timer with counter := timer.modulo }
  else { timer with counter := value, reloadPhase := 0 }

def writeModulo (timer : DmgTimerState) (value : ℕ) : DmgTimerState :=
  { timer with
    modulo := value
    counter := if timer.reloadPhase = 5 then value else timer.counter }

/-- The visible byte before the write, and the timer after it. -/
def write (timer : DmgTimerState) (address value : ℕ) : Option (ℕ × DmgTimerState) := do
  let before ← timer.read address
  match address with
  | 0xff04 => some (before, { timer with rawDiv := 0 })
  | 0xff05 => some (before, timer.writeCounter value)
  | 0xff06 => some (before, timer.writeModulo value)
  | 0xff07 => some (before, { timer with control := value % 8 })
  | _ => none

/-- The divider bit that the edge detector watches. -/
def detectorBit (timer : DmgTimerState) : ℕ :=
  match timer.control % 4 with
  | 0 => 9
  | 1 => 3
  | 2 => 5
  | _ => 7

def detectorInput (timer : DmgTimerState) : Bool :=
  timer.control.testBit 2 && timer.rawDiv.testBit timer.detectorBit

def incrementCounter (timer : DmgTimerState) : DmgTimerState :=
  if timer.counter = 255 then { timer with counter := 0, reloadPhase := 1 }
  else { timer with counter := timer.counter + 1 }

/-- The reload pipeline: whether it requests the interrupt, and the timer after it. -/
def advanceReloadPipeline (timer : DmgTimerState) : Bool × DmgTimerState :=
  if timer.reloadPhase = 5 then (true, { timer with counter := timer.modulo, reloadPhase := 0 })
  else (false, { timer with
    reloadPhase := if timer.reloadPhase = 0 then 0 else timer.reloadPhase + 1 })

/-- One T-cycle. -/
def tick (timer : DmgTimerState) : Bool × DmgTimerState :=
  let (requested, reloaded) := timer.advanceReloadPipeline
  let moved := { reloaded with rawDiv := (reloaded.rawDiv + 1) % 65536 }
  let detector := moved.detectorInput
  let latched := { moved with edgeLatch := detector }
  (requested, if moved.edgeLatch && !detector then latched.incrementCounter else latched)

def advanceTCycles (timer : DmgTimerState) : ℕ → Bool × DmgTimerState
  | 0 => (false, timer)
  | ticks + 1 =>
    let (first, next) := timer.tick
    let (later, final) := next.advanceTCycles ticks
    (first || later, final)

def tCyclesUntilInterrupt (timer : DmgTimerState) : Option ℕ :=
  if !timer.control.testBit 2 || timer.reloadPhase ≠ 0 || timer.edgeLatch ≠ timer.detectorInput
  then none
  else
    let period := match timer.control % 4 with
      | 0 => 1024
      | 1 => 16
      | 2 => 64
      | _ => 256
    some (period - timer.rawDiv % period + (255 - timer.counter) * period + 5)

end DmgTimerState

/-- APU registers FF10 to FF26 and the wave RAM. -/
structure DmgApuState where
  registers : List ℕ
  waveRam : List ℕ
  deriving DecidableEq, Repr

namespace DmgApuState

def dmgPostBoot : DmgApuState where
  registers := [0, 0x80, 0xf3, 0, 0, 0, 0, 0, 0, 0, 0, 0, 0, 0, 0, 0, 0, 0, 0, 0, 0x77, 0xf3, 0x81]
  waveRam := List.replicate 16 0

/-- Bits that read as one. -/
def readMask : ℕ → ℕ
  | 0xff10 => 0x80
  | 0xff11 | 0xff16 => 0x3f
  | 0xff13 | 0xff15 | 0xff18 | 0xff1b | 0xff1d | 0xff1f | 0xff20 => 0xff
  | 0xff14 | 0xff19 | 0xff1e | 0xff23 => 0xbf
  | 0xff1a => 0x7f
  | 0xff1c => 0x9f
  | 0xff26 => 0x70
  | _ => 0

def registerByte (apu : DmgApuState) (address : ℕ) : Option ℕ :=
  if 0xff10 ≤ address ∧ address ≤ 0xff26 then apu.registers[address - 0xff10]? else none

def setRegisterByte (apu : DmgApuState) (address value : ℕ) : DmgApuState :=
  { apu with registers := apu.registers.set (address - 0xff10) value }

def read (apu : DmgApuState) (address : ℕ) : Option ℕ :=
  if 0xff27 ≤ address ∧ address ≤ 0xff2f then some 0xff
  else if 0xff30 ≤ address ∧ address ≤ 0xff3f then apu.waveRam[address - 0xff30]?
  else (apu.registerByte address).map (fun stored => stored ||| readMask address)

def powered (apu : DmgApuState) : Bool :=
  match apu.registerByte 0xff26 with
  | some value => value.testBit 7
  | none => false

/-- A change of the master register FF26. -/
def modifyMaster (apu : DmgApuState) (change : ℕ → ℕ) : DmgApuState :=
  { apu with registers := apu.registers.modify 22 change }

def writePower (apu : DmgApuState) (value : ℕ) : DmgApuState :=
  if value.testBit 7 then apu.modifyMaster (fun master => master ||| 0x80)
  else { apu with registers := apu.registers.map (fun _ => 0) }

def isLengthRegister (address : ℕ) : Bool := address ∈ [0xff11, 0xff16, 0xff1b, 0xff20]

def dacRegisterChannel : ℕ → Option ℕ
  | 0xff12 => some 0
  | 0xff17 => some 1
  | 0xff21 => some 3
  | _ => none

def triggerRegisterChannel : ℕ → Option ℕ
  | 0xff14 => some 0
  | 0xff19 => some 1
  | 0xff1e => some 2
  | 0xff23 => some 3
  | _ => none

def setChannelActive (apu : DmgApuState) (channel : ℕ) (active : Bool) : DmgApuState :=
  apu.modifyMaster (fun master =>
    if active then master ||| 2 ^ channel else master &&& (0xff - 2 ^ channel))

def channelDacEnabled (apu : DmgApuState) (channel : ℕ) : Bool :=
  let address := match channel with
    | 0 => 0xff12
    | 1 => 0xff17
    | 2 => 0xff1a
    | _ => 0xff21
  match apu.registerByte address with
  | some value => if channel = 2 then value.testBit 7 else value &&& 0xf8 ≠ 0
  | none => false

/-- DAC switches and channel triggers of a register write. -/
def applyDacAndTrigger (apu : DmgApuState) (address value : ℕ) : DmgApuState :=
  let dac := match dacRegisterChannel address with
    | some channel => if value &&& 0xf8 = 0 then apu.setChannelActive channel false else apu
    | none => apu
  let wave := if address = 0xff1a ∧ !value.testBit 7 then dac.setChannelActive 2 false else dac
  match triggerRegisterChannel address with
  | some channel =>
    if value.testBit 7 ∧ wave.channelDacEnabled channel then wave.setChannelActive channel true
    else wave
  | none => wave

/-- The visible byte before the write, and the APU after it. -/
def write (apu : DmgApuState) (address value : ℕ) : Option (ℕ × DmgApuState) := do
  let before ← apu.read address
  if 0xff27 ≤ address ∧ address ≤ 0xff2f then some (before, apu)
  else if 0xff30 ≤ address ∧ address ≤ 0xff3f then
    some (before, { apu with waveRam := apu.waveRam.set (address - 0xff30) value })
  else if address = 0xff26 then some (before, apu.writePower value)
  else if !apu.powered && !isLengthRegister address then some (before, apu)
  else
    let stored := value &&& (0xff - readMask address)
    some (before, (apu.setRegisterByte address stored).applyDacAndTrigger address value)

end DmgApuState

/-- All DMG devices. -/
structure DmgDeviceState where
  interruptRequest : ℕ
  interruptEnable : ℕ
  serialData : ℕ
  serialControl : ℕ
  serialCyclesRemaining : ℕ
  timer : DmgTimerState
  apu : DmgApuState
  lcdControl : ℕ
  lcdStatusControl : ℕ
  scrollY : ℕ
  scrollX : ℕ
  backgroundPalette : ℕ
  objectPaletteZero : ℕ
  objectPaletteOne : ℕ
  windowY : ℕ
  windowX : ℕ
  lineCompare : ℕ
  ppuLine : ℕ
  ppuDot : ℕ
  joypadSelect : ℕ
  joypadButtons : ℕ
  dmaSourceHigh : ℕ
  dmaIndex : ℕ
  dmaActive : Bool
  dmaOwed : ℕ
  deriving DecidableEq, Repr

namespace DmgDeviceState

def dmgPostBoot : DmgDeviceState where
  interruptRequest := 0x01
  interruptEnable := 0
  serialData := 0
  serialControl := 0x7e
  serialCyclesRemaining := 0
  timer := .dmgPostBoot
  apu := .dmgPostBoot
  lcdControl := 0x91
  lcdStatusControl := 0
  scrollY := 0
  scrollX := 0
  backgroundPalette := 0xfc
  objectPaletteZero := 0xff
  objectPaletteOne := 0xff
  windowY := 0
  windowX := 0
  lineCompare := 0
  ppuLine := 0
  ppuDot := 0
  joypadSelect := 0
  joypadButtons := 0
  dmaSourceHigh := 0
  dmaIndex := 0
  dmaActive := false
  dmaOwed := 0

/-- The first enabled request, in priority order. -/
def pendingInterrupt (devices : DmgDeviceState) : Option DmgInterrupt :=
  let pending := devices.interruptRequest &&& devices.interruptEnable
  if pending.testBit 0 then some .vblank
  else if pending.testBit 1 then some .lcdStat
  else if pending.testBit 2 then some .timer
  else if pending.testBit 3 then some .serial
  else if pending.testBit 4 then some .joypad
  else none

/-- IF with the acknowledged bit cleared. -/
def acknowledgeInterrupt (devices : DmgDeviceState) (interrupt : DmgInterrupt) : DmgDeviceState :=
  { devices with
    interruptRequest := devices.interruptRequest &&& (0xff - 2 ^ interrupt.bit) }

/-- A request, if `requested`. -/
def request (devices : DmgDeviceState) (interrupt : DmgInterrupt) (requested : Bool) :
    DmgDeviceState :=
  if requested then { devices with interruptRequest := devices.interruptRequest ||| 2 ^ interrupt.bit }
  else devices

def dmaSourceAddress (devices : DmgDeviceState) : ℕ :=
  devices.dmaSourceHigh * 256 + devices.dmaIndex

def dmaDestinationAddress (devices : DmgDeviceState) : ℕ := 0xfe00 + devices.dmaIndex

/-- Bytes owed after a step: the M-cycles of a transfer that was active at its start. -/
def scheduleDmaBytes (devices : DmgDeviceState) (mCycles : ℕ) (activeAtStart : Bool) :
    DmgDeviceState :=
  { devices with
    dmaOwed := if activeAtStart then min mCycles (160 - devices.dmaIndex) else 0 }

def completeDmaByte (devices : DmgDeviceState) : DmgDeviceState :=
  let paid := { devices with dmaOwed := devices.dmaOwed - 1 }
  if devices.dmaIndex = 159 then { paid with dmaIndex := 160, dmaActive := false }
  else { paid with dmaIndex := devices.dmaIndex + 1 }

def lcdEnabled (devices : DmgDeviceState) : Bool := devices.lcdControl.testBit 7

def ppuMode (devices : DmgDeviceState) : ℕ :=
  if !devices.lcdEnabled then 0
  else if 144 ≤ devices.ppuLine then 1
  else if devices.ppuDot < 80 then 2
  else if devices.ppuDot < 252 then 3
  else 0

def cpuVramBlocked (devices : DmgDeviceState) : Bool :=
  devices.lcdEnabled && devices.ppuMode = 3

def cpuOamBlocked (devices : DmgDeviceState) : Bool :=
  devices.lcdEnabled && (devices.ppuMode = 2 || devices.ppuMode = 3)

def visibleLcdStatus (devices : DmgDeviceState) : ℕ :=
  0x80 ||| devices.lcdStatusControl |||
    (if devices.ppuLine = devices.lineCompare then 0x04 else 0) ||| devices.ppuMode

/-- The composite STAT line. -/
def statSignal (devices : DmgDeviceState) : Bool :=
  let mode := devices.ppuMode
  let control := devices.lcdStatusControl
  devices.lcdEnabled &&
    (control.testBit 3 && mode = 0 || control.testBit 4 && mode = 1 ||
      control.testBit 5 && mode = 2 || control.testBit 6 && devices.ppuLine = devices.lineCompare)

def requestStatRisingEdge (devices : DmgDeviceState) (before : Bool) : DmgDeviceState :=
  devices.request .lcdStat (!before && devices.statSignal)

def visibleJoypad (devices : DmgDeviceState) : ℕ :=
  let direction := if devices.joypadSelect.testBit 4 then 0xf
    else 0xf - devices.joypadButtons % 16
  let action := if devices.joypadSelect.testBit 5 then 0xf else 0xf - devices.joypadButtons / 16 % 16
  0xc0 ||| devices.joypadSelect ||| (direction &&& action)

def requestJoypadFallingEdge (devices : DmgDeviceState) (before after : ℕ) : DmgDeviceState :=
  devices.request .joypad (before &&& (0xff - after) &&& 0xf ≠ 0)

/-- The visible byte after new buttons were sampled, and the devices after it. -/
def sampleJoypad (devices : DmgDeviceState) (buttons : ℕ) : ℕ × DmgDeviceState :=
  let sampled := { devices with joypadButtons := buttons }
  (sampled.visibleJoypad,
    sampled.requestJoypadFallingEdge devices.visibleJoypad sampled.visibleJoypad)

def readMmio (devices : DmgDeviceState) (address : ℕ) : Option ℕ :=
  if 0xff04 ≤ address ∧ address ≤ 0xff07 then devices.timer.read address
  else if 0xff10 ≤ address ∧ address ≤ 0xff3f then devices.apu.read address
  else match address with
    | 0xff00 => some devices.visibleJoypad
    | 0xff01 => some devices.serialData
    | 0xff02 => some devices.serialControl
    | 0xff0f => some (0xe0 ||| devices.interruptRequest)
    | 0xff40 => some devices.lcdControl
    | 0xff41 => some devices.visibleLcdStatus
    | 0xff42 => some devices.scrollY
    | 0xff43 => some devices.scrollX
    | 0xff44 => some devices.ppuLine
    | 0xff45 => some devices.lineCompare
    | 0xff46 => some devices.dmaSourceHigh
    | 0xff47 => some devices.backgroundPalette
    | 0xff48 => some devices.objectPaletteZero
    | 0xff49 => some devices.objectPaletteOne
    | 0xff4a => some devices.windowY
    | 0xff4b => some devices.windowX
    | 0xffff => some devices.interruptEnable
    | _ => none

/-- LCDC; switching the LCD off resets the PPU position. -/
def writeLcdControl (devices : DmgDeviceState) (value : ℕ) : DmgDeviceState :=
  let written := { devices with lcdControl := value }
  if written.lcdEnabled then written else { written with ppuLine := 0, ppuDot := 0 }

/-- The registers outside the timer and the APU after a write. -/
def writeRegister (devices : DmgDeviceState) (address value before : ℕ) : Option DmgDeviceState :=
  match address with
  | 0xff00 =>
    let selected := { devices with joypadSelect := value &&& 0x30 }
    some (selected.requestJoypadFallingEdge before selected.visibleJoypad)
  | 0xff01 => some { devices with serialData := value }
  | 0xff02 => some { devices with
      serialControl := value
      serialCyclesRemaining := if value &&& 0x81 = 0x81 then 4096 else 0 }
  | 0xff0f => some { devices with interruptRequest := value &&& 0x1f }
  | 0xff40 => some (devices.writeLcdControl value)
  | 0xff41 => some { devices with lcdStatusControl := value &&& 0x78 }
  | 0xff42 => some { devices with scrollY := value }
  | 0xff43 => some { devices with scrollX := value }
  | 0xff44 => some devices
  | 0xff45 => some { devices with lineCompare := value }
  | 0xff46 => some { devices with
      dmaSourceHigh := value
      dmaIndex := 0
      dmaActive := true
      dmaOwed := 0 }
  | 0xff47 => some { devices with backgroundPalette := value }
  | 0xff48 => some { devices with objectPaletteZero := value }
  | 0xff49 => some { devices with objectPaletteOne := value }
  | 0xff4a => some { devices with windowY := value }
  | 0xff4b => some { devices with windowX := value }
  | 0xffff => some { devices with interruptEnable := value &&& 0x1f }
  | _ => none

/-- The visible byte before the write, and the devices after it. -/
def writeMmio (devices : DmgDeviceState) (address value : ℕ) : Option (ℕ × DmgDeviceState) := do
  let before ← devices.readMmio address
  if 0xff04 ≤ address ∧ address ≤ 0xff07 then
    (devices.timer.write address value).map (fun result =>
      (result.1, { devices with timer := result.2 }))
  else if 0xff10 ≤ address ∧ address ≤ 0xff3f then
    (devices.apu.write address value).map (fun result => (result.1, { devices with apu := result.2 }))
  else
    let written ← devices.writeRegister address value before
    if address = 0xff40 ∨ address = 0xff41 ∨ address = 0xff45 then
      some (before, written.requestStatRisingEdge devices.statSignal)
    else some (before, written)

def advanceSerialTCycles (devices : DmgDeviceState) (tCycles : ℕ) : DmgDeviceState :=
  if devices.serialCyclesRemaining = 0 then devices
  else
    let remaining := devices.serialCyclesRemaining - tCycles
    let counted := { devices with serialCyclesRemaining := remaining }
    if remaining = 0 then
      { counted with serialControl := devices.serialControl &&& 0x7f, serialData := 0xff }.request
        .serial true
    else counted

/-- One T-cycle of the PPU. -/
def advancePpuTCycle (devices : DmgDeviceState) : DmgDeviceState :=
  if !devices.lcdEnabled then { devices with ppuLine := 0, ppuDot := 0 }
  else
    let moved :=
      if devices.ppuDot + 1 = 456 then
        let line := if devices.ppuLine = 153 then 0 else devices.ppuLine + 1
        { devices with ppuDot := 0, ppuLine := line }.request .vblank (line = 144)
      else { devices with ppuDot := devices.ppuDot + 1 }
    moved.requestStatRisingEdge devices.statSignal

def advancePpuTCycles (devices : DmgDeviceState) : ℕ → DmgDeviceState
  | 0 => devices
  | ticks + 1 => devices.advancePpuTCycle.advancePpuTCycles ticks

/-- The advance by M-cycles; the T-cycle count of the source saturates at 255. -/
def advanceMCycles (devices : DmgDeviceState) (mCycles : ℕ) : DmgDeviceState :=
  let tCycles := min (mCycles * 4) 255
  let (requested, timer) := devices.timer.advanceTCycles tCycles
  let timed := { devices with timer := timer }.request .timer requested
  (timed.advanceSerialTCycles tCycles).advancePpuTCycles tCycles

/-- M-cycles until an enabled request, counted from `elapsed` with `fuel` cycles left to try. -/
def haltIdleFrom (devices : DmgDeviceState) (elapsed : ℕ) : ℕ → ℕ
  | 0 => elapsed
  | fuel + 1 =>
    let projected := devices.advanceMCycles 1
    if projected.pendingInterrupt.isSome then elapsed + 1
    else projected.haltIdleFrom (elapsed + 1) fuel

/-- The length of a HALT-idle batch, at most six M-cycles. -/
def haltIdleMCycles (devices : DmgDeviceState) : ℕ := devices.haltIdleFrom 0 6

def haltUntilVblankMCycles (devices : DmgDeviceState) : Option ℕ :=
  if devices.pendingInterrupt.isSome || !devices.lcdEnabled ||
      !devices.interruptEnable.testBit 0 || devices.interruptEnable.testBit 4 ||
      devices.lcdStatusControl ≠ 0 || devices.timer.control.testBit 2 ||
      devices.timer.reloadPhase ≠ 0 || devices.timer.edgeLatch ||
      devices.serialCyclesRemaining ≠ 0 || devices.serialControl.testBit 7 ||
      devices.dmaActive || devices.dmaOwed ≠ 0 then none
  else
    let position := devices.ppuLine * 456 + devices.ppuDot
    let remaining := if position < 144 * 456 then 144 * 456 - position
      else 154 * 456 - position + 144 * 456
    if remaining = 0 || remaining % 4 ≠ 0 then none else some (remaining / 4)

def haltUntilSerialMCycles (devices : DmgDeviceState) : Option ℕ :=
  if devices.pendingInterrupt.isSome || !devices.interruptEnable.testBit 3 ||
      devices.lcdEnabled || devices.timer.control.testBit 2 ||
      devices.timer.reloadPhase ≠ 0 || devices.timer.edgeLatch ||
      devices.serialControl &&& 0x81 ≠ 0x81 || devices.serialCyclesRemaining = 0 ||
      4096 < devices.serialCyclesRemaining || devices.serialCyclesRemaining % 4 ≠ 0 ||
      devices.dmaActive || devices.dmaOwed ≠ 0 then none
  else some (devices.serialCyclesRemaining / 4)

def haltUntilTimerMCycles (devices : DmgDeviceState) : Option ℕ :=
  if devices.pendingInterrupt.isSome || !devices.interruptEnable.testBit 2 ||
      devices.lcdEnabled || devices.serialCyclesRemaining ≠ 0 ||
      devices.serialControl.testBit 7 || devices.dmaActive || devices.dmaOwed ≠ 0 then none
  else devices.timer.tCyclesUntilInterrupt.map (fun tCycles => (tCycles + 3) / 4)

/-- The advance over a long HALT, in chunks of at most 63 M-cycles. -/
def advanceQuietLong (devices : DmgDeviceState) (mCycles : ℕ) : DmgDeviceState :=
  if mCycles = 0 then devices
  else (devices.advanceMCycles (min mCycles 63)).advanceQuietLong (mCycles - min mCycles 63)
termination_by mCycles
decreasing_by omega

end DmgDeviceState

end Zksm83
