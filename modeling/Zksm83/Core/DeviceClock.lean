import Zksm83.Core.Devices

/-!
# One T-cycle of the devices

What a T-cycle does to the timer and to the PPU, written out field by field, and how requests reach
the interrupt register. Results about longer advances use these equations instead of the source's
definitions.
-/

namespace Zksm83

namespace DmgTimerState

variable (timer : DmgTimerState)

/-- The counter after the reload pipeline. -/
def reloadedCounter : ℕ := if timer.reloadPhase = 5 then timer.modulo else timer.counter

/-- The reload phase after the reload pipeline. -/
def nextPhase : ℕ :=
  if timer.reloadPhase = 5 ∨ timer.reloadPhase = 0 then 0 else timer.reloadPhase + 1

/-- The divider bit that the edge detector sees, for a control and a divider. -/
def detector (control rawDiv : ℕ) : Bool :=
  (⟨rawDiv, 0, 0, control, false, 0⟩ : DmgTimerState).detectorInput

theorem detectorInput_eq : timer.detectorInput = detector timer.control timer.rawDiv := rfl

/-- The edge detector falls in the next T-cycle. -/
def falls : Bool := timer.edgeLatch && !detector timer.control ((timer.rawDiv + 1) % 65536)

/-- One T-cycle of the timer, field by field. -/
theorem tick_eq : timer.tick = (decide (timer.reloadPhase = 5),
    { rawDiv := (timer.rawDiv + 1) % 65536
      counter := if timer.falls then
          if timer.reloadedCounter = 255 then 0 else timer.reloadedCounter + 1
        else timer.reloadedCounter
      modulo := timer.modulo
      control := timer.control
      edgeLatch := detector timer.control ((timer.rawDiv + 1) % 65536)
      reloadPhase := if timer.falls ∧ timer.reloadedCounter = 255 then 1 else timer.nextPhase }) := by
  obtain ⟨rawDiv, counter, modulo, control, edgeLatch, reloadPhase⟩ := timer
  unfold tick advanceReloadPipeline incrementCounter reloadedCounter nextPhase falls
  simp only [detectorInput_eq]
  cases hdetector : detector control ((rawDiv + 1) % 65536) <;> cases edgeLatch
  -- Only a latched bit that reads zero lets the counter move.
  case false.true =>
    by_cases hreload : reloadPhase = 5
    · by_cases hwrap : modulo = 255 <;> simp [hreload, hwrap, hdetector]
    · by_cases hwrap : counter = 255 <;> simp [hreload, hwrap, hdetector]
  all_goals
    by_cases hreload : reloadPhase = 5 <;> simp [hreload, hdetector]

end DmgTimerState

namespace DmgDeviceState

variable {devices : DmgDeviceState}

/-- IF after a request. -/
def requestedBits (request : ℕ) (interrupt : DmgInterrupt) (requested : Bool) : ℕ :=
  if requested then request ||| 2 ^ interrupt.bit else request

theorem request_eq (devices : DmgDeviceState) (interrupt : DmgInterrupt) (requested : Bool) :
    devices.request interrupt requested = { devices with
      interruptRequest := requestedBits devices.interruptRequest interrupt requested } := by
  unfold request requestedBits
  split_ifs <;> rfl

theorem advanceSerialTCycles_idle (hidle : devices.serialCyclesRemaining = 0) (tCycles : ℕ) :
    devices.advanceSerialTCycles tCycles = devices := by
  rw [advanceSerialTCycles, if_pos hidle]

/-- A transfer that goes on only counts down. -/
theorem advanceSerialTCycles_running {tCycles : ℕ}
    (hrunning : tCycles < devices.serialCyclesRemaining) :
    devices.advanceSerialTCycles tCycles = { devices with
      serialCyclesRemaining := devices.serialCyclesRemaining - tCycles } := by
  have hleft : devices.serialCyclesRemaining - tCycles ≠ 0 := by omega
  rw [advanceSerialTCycles, if_neg (by omega)]
  simp only [hleft, if_false]

/-- A transfer that ends clears its start bit, leaves 0xff and requests. -/
theorem advanceSerialTCycles_done {tCycles : ℕ} (hstarted : devices.serialCyclesRemaining ≠ 0)
    (hdone : devices.serialCyclesRemaining ≤ tCycles) :
    devices.advanceSerialTCycles tCycles = { devices with
      serialCyclesRemaining := 0
      serialControl := devices.serialControl &&& 0x7f
      serialData := 0xff
      interruptRequest := requestedBits devices.interruptRequest .serial true } := by
  have hleft : devices.serialCyclesRemaining - tCycles = 0 := by omega
  rw [advanceSerialTCycles, if_neg hstarted]
  simp only [hleft, if_true, request_eq]

/-- The PPU position one T-cycle later, while the LCD is on. -/
def nextPosition (line dot : ℕ) : ℕ × ℕ :=
  if dot + 1 = 456 then (if line = 153 then 0 else line + 1, 0) else (line, dot + 1)

/-- Devices at another PPU position and with other requests. -/
def atPosition (devices : DmgDeviceState) (request line dot : ℕ) : DmgDeviceState :=
  { devices with interruptRequest := request, ppuLine := line, ppuDot := dot }

theorem advancePpuTCycle_off (hoff : devices.lcdEnabled = false) :
    devices.advancePpuTCycle = devices.atPosition devices.interruptRequest 0 0 := by
  simp [advancePpuTCycle, hoff, atPosition]

/-- The composite STAT line at a position. -/
def statAt (devices : DmgDeviceState) (line dot : ℕ) : Bool :=
  (devices.atPosition devices.interruptRequest line dot).statSignal

/-- IF after a T-cycle of a running PPU. -/
def ppuRequest (devices : DmgDeviceState) : ℕ :=
  let next := nextPosition devices.ppuLine devices.ppuDot
  requestedBits
    (requestedBits devices.interruptRequest .vblank
      (devices.ppuDot + 1 = 456 && next.1 = 144))
    .lcdStat (!devices.statSignal && devices.statAt next.1 next.2)

/-- One T-cycle of a running PPU moves its position and may request. -/
theorem advancePpuTCycle_on (hon : devices.lcdEnabled = true) :
    devices.advancePpuTCycle = devices.atPosition devices.ppuRequest
      (nextPosition devices.ppuLine devices.ppuDot).1
      (nextPosition devices.ppuLine devices.ppuDot).2 := by
  unfold advancePpuTCycle requestStatRisingEdge ppuRequest
  by_cases hwrap : devices.ppuDot + 1 = 456
  · simp only [hon, hwrap, Bool.not_true, Bool.false_eq_true, if_false, if_true, request_eq,
      nextPosition, decide_true, Bool.true_and]
    rfl
  · simp only [hon, hwrap, Bool.not_true, Bool.false_eq_true, if_false, request_eq,
      nextPosition, decide_false, Bool.false_and]
    rfl

end DmgDeviceState

end Zksm83
