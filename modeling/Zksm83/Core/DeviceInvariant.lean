import Zksm83.Core.DeviceClock

/-!
# The device invariant

Every device state that the machine reaches is well formed: the interrupt registers hold five bits,
the PPU position is inside the frame and on an M-cycle, the serial countdown runs exactly while a
transfer is on, and the DMA owes no more bytes than are left. Each device operation keeps this.
-/

namespace Zksm83

/-- The PPU position is inside the frame, on an M-cycle, and at the start while the LCD is off. -/
structure PpuFits (enabled : Bool) (line dot : ℕ) : Prop where
  line_le : line ≤ 153
  dot_le : dot ≤ 455
  aligned : 4 ∣ dot
  off : enabled = false → line = 0 ∧ dot = 0

/-- The serial countdown runs exactly while a transfer on the internal clock is on. -/
structure SerialFits (control remaining : ℕ) : Prop where
  aligned : 4 ∣ remaining
  remaining_le : remaining ≤ 4096
  remaining_iff : remaining ≠ 0 ↔ control &&& 0x81 = 0x81

/-- The DMA owes bytes of an active transfer only, and no more than are left of it. -/
structure DmaFits (index : ℕ) (active : Bool) (owed : ℕ) : Prop where
  index_le : active = true → index ≤ 159
  active_of_owed : 0 < owed → active = true
  owed_le : owed + index ≤ 160

/-- The reload pipeline has five phases, and the timer control three bits. -/
structure TimerFits (timer : DmgTimerState) : Prop where
  reloadPhase_le : timer.reloadPhase ≤ 5
  control_le : timer.control ≤ 7

namespace DmgTimerState

variable {timer : DmgTimerState}

theorem fits_tick (h : TimerFits timer) : TimerFits timer.tick.2 := by
  have hphase := h.reloadPhase_le
  rw [tick_eq]
  refine ⟨?_, h.control_le⟩
  show (if timer.falls ∧ timer.reloadedCounter = 255 then 1 else timer.nextPhase) ≤ 5
  unfold nextPhase
  split_ifs <;> omega

theorem fits_advanceTCycles (h : TimerFits timer) (ticks : ℕ) :
    TimerFits (timer.advanceTCycles ticks).2 := by
  induction ticks generalizing timer with
  | zero => exact h
  | succ ticks ih => exact ih (fits_tick h)

theorem fits_write {address value before : ℕ} {after : DmgTimerState} (h : TimerFits timer)
    (hwrite : timer.write address value = some (before, after)) : TimerFits after := by
  have hphase := h.reloadPhase_le
  have hcontrol := h.control_le
  unfold write at hwrite
  simp only [Option.bind_eq_bind, Option.bind_eq_some_iff] at hwrite
  obtain ⟨visible, _, hwrite⟩ := hwrite
  split at hwrite
  · cases hwrite
    exact ⟨hphase, hcontrol⟩
  · cases hwrite
    unfold writeCounter
    split_ifs
    · exact ⟨hphase, hcontrol⟩
    · exact ⟨Nat.zero_le _, hcontrol⟩
  · cases hwrite
    exact ⟨hphase, hcontrol⟩
  · cases hwrite
    refine ⟨hphase, ?_⟩
    show value % 8 ≤ 7
    omega
  · cases hwrite

end DmgTimerState

namespace DmgDeviceState

/-- What holds of every device state that the machine reaches. -/
structure WellFormed (devices : DmgDeviceState) : Prop where
  request_le : devices.interruptRequest ≤ 0x1f
  enable_le : devices.interruptEnable ≤ 0x1f
  ppu : PpuFits devices.lcdEnabled devices.ppuLine devices.ppuDot
  timer : TimerFits devices.timer
  serial : SerialFits devices.serialControl devices.serialCyclesRemaining
  dma : DmaFits devices.dmaIndex devices.dmaActive devices.dmaOwed

theorem wellFormed_dmgPostBoot : WellFormed dmgPostBoot where
  request_le := by decide
  enable_le := by decide
  ppu := ⟨by decide, by decide, by decide, by decide⟩
  timer := ⟨by decide, by decide⟩
  serial := ⟨by decide, by decide, by decide⟩
  dma := ⟨by decide, by decide, by decide⟩

variable {devices : DmgDeviceState}

theorem requestedBits_le {request : ℕ} (h : request ≤ 0x1f) (interrupt : DmgInterrupt)
    (requested : Bool) : requestedBits request interrupt requested ≤ 0x1f := by
  unfold requestedBits
  split_ifs
  · have hbit : 2 ^ interrupt.bit < 2 ^ 5 := by cases interrupt <;> decide
    have hor := Nat.or_lt_two_pow (show request < 2 ^ 5 by omega) hbit
    omega
  · exact h

theorem WellFormed.request (h : WellFormed devices) (interrupt : DmgInterrupt)
    (requested : Bool) : WellFormed (devices.request interrupt requested) := by
  rw [request_eq]
  exact { h with request_le := requestedBits_le h.request_le _ _ }

theorem WellFormed.acknowledgeInterrupt (h : WellFormed devices) (interrupt : DmgInterrupt) :
    WellFormed (devices.acknowledgeInterrupt interrupt) :=
  { h with request_le := Nat.and_le_left.trans h.request_le }

theorem WellFormed.sampleJoypad (h : WellFormed devices) (buttons : ℕ) :
    WellFormed (devices.sampleJoypad buttons).2 := by
  have hsampled : WellFormed { devices with joypadButtons := buttons } := { h with }
  exact hsampled.request _ _

theorem WellFormed.writeLcdControl (h : WellFormed devices) (value : ℕ) :
    WellFormed (devices.writeLcdControl value) := by
  unfold DmgDeviceState.writeLcdControl
  by_cases hon : ({ devices with lcdControl := value } : DmgDeviceState).lcdEnabled
  · rw [if_pos hon]
    exact { h with ppu := ⟨h.ppu.line_le, h.ppu.dot_le, h.ppu.aligned,
      fun hoff => absurd (hon.symm.trans hoff) (by decide)⟩ }
  · rw [if_neg hon]
    exact { h with
      ppu := ⟨Nat.zero_le _, Nat.zero_le _, dvd_zero 4, fun _ => ⟨rfl, rfl⟩⟩ }

theorem serialFits_write (value : ℕ) :
    SerialFits value (if value &&& 0x81 = 0x81 then 4096 else 0) := by
  by_cases hstart : value &&& 0x81 = 0x81
  · rw [if_pos hstart]
    exact ⟨by decide, by decide, iff_of_true (by decide) hstart⟩
  · rw [if_neg hstart]
    exact ⟨by decide, by decide, iff_of_false (by decide) hstart⟩

theorem WellFormed.writeRegister {address value before : ℕ} {after : DmgDeviceState}
    (h : WellFormed devices) (hwrite : devices.writeRegister address value before = some after) :
    WellFormed after := by
  unfold DmgDeviceState.writeRegister at hwrite
  split at hwrite
  -- FF00, FF02, FF0F, FF40, FF46 and FFFF change what the invariant is about.
  case h_1 =>
    cases hwrite
    have hselected : WellFormed { devices with joypadSelect := value &&& 0x30 } := { h with }
    exact hselected.request _ _
  case h_3 =>
    cases hwrite
    exact { h with serial := serialFits_write value }
  case h_4 =>
    cases hwrite
    exact { h with request_le := Nat.and_le_right }
  case h_5 =>
    cases hwrite
    exact h.writeLcdControl value
  case h_11 =>
    cases hwrite
    exact { h with dma := ⟨by simp, by simp, by simp⟩ }
  case h_17 =>
    cases hwrite
    exact { h with enable_le := Nat.and_le_right }
  case h_18 => cases hwrite
  all_goals
    cases hwrite
    exact { h with }

/-- A register write keeps the invariant. -/
theorem WellFormed.writeMmio {address value before : ℕ} {after : DmgDeviceState}
    (h : WellFormed devices) (hwrite : devices.writeMmio address value = some (before, after)) :
    WellFormed after := by
  unfold DmgDeviceState.writeMmio at hwrite
  simp only [Option.bind_eq_bind, Option.bind_eq_some_iff] at hwrite
  obtain ⟨visible, _, hwrite⟩ := hwrite
  split at hwrite
  · rw [Option.map_eq_some_iff] at hwrite
    obtain ⟨⟨_, timer⟩, htimer, hafter⟩ := hwrite
    cases hafter
    exact { h with timer := DmgTimerState.fits_write h.timer htimer }
  split at hwrite
  · rw [Option.map_eq_some_iff] at hwrite
    obtain ⟨⟨_, apu⟩, _, hafter⟩ := hwrite
    cases hafter
    exact { h with }
  obtain ⟨written, hregister, hwrite⟩ := Option.bind_eq_some_iff.mp hwrite
  have hwritten := h.writeRegister hregister
  split at hwrite
  · cases hwrite
    exact hwritten.request _ _
  · cases hwrite
    exact hwritten

/-- A finished transfer leaves the start bit off. -/
theorem serialFits_finished (control : ℕ) : SerialFits (control &&& 0x7f) 0 := by
  refine ⟨by decide, by decide, iff_of_false (by decide) ?_⟩
  intro hstart
  have hbit : ((control &&& 0x7f) &&& 0x81).testBit 7 = true := by
    rw [hstart]
    decide
  rw [Nat.testBit_and, Nat.testBit_and, show (0x7f : ℕ).testBit 7 = false from by decide,
    Bool.and_false, Bool.false_and] at hbit
  exact Bool.false_ne_true hbit

/-- The serial port keeps the invariant over whole M-cycles. -/
theorem WellFormed.advanceSerialTCycles (h : WellFormed devices) {tCycles : ℕ}
    (haligned : 4 ∣ tCycles) : WellFormed (devices.advanceSerialTCycles tCycles) := by
  have hle := h.serial.remaining_le
  by_cases hidle : devices.serialCyclesRemaining = 0
  · rw [advanceSerialTCycles_idle hidle]
    exact h
  by_cases hdone : devices.serialCyclesRemaining ≤ tCycles
  · rw [advanceSerialTCycles_done hidle hdone]
    exact { h with
      serial := serialFits_finished _
      request_le := requestedBits_le h.request_le .serial true }
  · rw [advanceSerialTCycles_running (by omega)]
    refine { h with serial := ⟨Nat.dvd_sub h.serial.aligned haligned, ?_, ?_⟩ }
    · show devices.serialCyclesRemaining - tCycles ≤ 4096
      omega
    · have hleft : devices.serialCyclesRemaining - tCycles ≠ 0 := by omega
      exact iff_of_true hleft (h.serial.remaining_iff.mp hidle)

theorem ppuRequest_le (h : devices.interruptRequest ≤ 0x1f) : devices.ppuRequest ≤ 0x1f :=
  requestedBits_le (requestedBits_le h _ _) _ _

theorem nextPosition_bounds {line dot : ℕ} (hline : line ≤ 153) (hdot : dot ≤ 455) :
    (nextPosition line dot).1 ≤ 153 ∧ (nextPosition line dot).2 ≤ 455 ∧
      (nextPosition line dot).2 % 4 = (dot + 1) % 4 := by
  unfold nextPosition
  split_ifs
  · exact ⟨Nat.zero_le _, Nat.zero_le _, by show 0 % 4 = _; omega⟩
  · exact ⟨by show line + 1 ≤ 153; omega, Nat.zero_le _, by show 0 % 4 = _; omega⟩
  · exact ⟨hline, by show dot + 1 ≤ 455; omega, rfl⟩

/-- The PPU over T-cycles: the position stays inside the frame and moves on by as many dots. -/
theorem advancePpuTCycles_spec (ticks : ℕ) (hrequest : devices.interruptRequest ≤ 0x1f)
    (hline : devices.ppuLine ≤ 153) (hdot : devices.ppuDot ≤ 455)
    (hoff : devices.lcdEnabled = false → devices.ppuLine = 0 ∧ devices.ppuDot = 0) :
    ∃ request line dot, request ≤ 0x1f ∧ line ≤ 153 ∧ dot ≤ 455 ∧
      (devices.lcdEnabled = false → line = 0 ∧ dot = 0) ∧
      (devices.lcdEnabled = true → dot % 4 = (devices.ppuDot + ticks) % 4) ∧
      devices.advancePpuTCycles ticks = devices.atPosition request line dot := by
  induction ticks generalizing devices with
  | zero => exact ⟨_, _, _, hrequest, hline, hdot, hoff, fun _ => rfl, rfl⟩
  | succ ticks ih =>
    rw [advancePpuTCycles]
    by_cases hon : devices.lcdEnabled = true
    · obtain ⟨hline', hdot', hmod⟩ := nextPosition_bounds hline hdot
      rw [advancePpuTCycle_on hon]
      obtain ⟨last, line, dot, hlast, hline, hdot, hstill, hmoved, hrest⟩ :=
        @ih (devices.atPosition devices.ppuRequest _ _) (ppuRequest_le hrequest) hline' hdot'
          (fun h => absurd (hon.symm.trans h) (by decide))
      refine ⟨last, line, dot, hlast, hline, hdot, fun h => absurd (hon.symm.trans h) (by decide),
        fun _ => ?_, hrest⟩
      rw [hmoved hon]
      show ((nextPosition devices.ppuLine devices.ppuDot).2 + ticks) % 4 = _
      omega
    · rw [Bool.not_eq_true] at hon
      rw [advancePpuTCycle_off hon]
      obtain ⟨last, line, dot, hlast, hline, hdot, hstill, hmoved, hrest⟩ :=
        @ih (devices.atPosition devices.interruptRequest 0 0) hrequest
          (Nat.zero_le _) (Nat.zero_le _) (fun _ => ⟨rfl, rfl⟩)
      exact ⟨last, line, dot, hlast, hline, hdot, fun _ => hstill hon,
        fun h => absurd (hon.symm.trans h) (by decide), hrest⟩

/-- The PPU keeps the invariant over whole M-cycles. -/
theorem WellFormed.advancePpuTCycles (h : WellFormed devices) {ticks : ℕ}
    (haligned : 4 ∣ ticks) : WellFormed (devices.advancePpuTCycles ticks) := by
  obtain ⟨request, line, dot, hrequest, hline, hdot, hoff, hmoved, heq⟩ :=
    advancePpuTCycles_spec ticks h.request_le h.ppu.line_le h.ppu.dot_le h.ppu.off
  rw [heq]
  refine { h with request_le := hrequest, ppu := ⟨hline, hdot, ?_, hoff⟩ }
  by_cases hon : devices.lcdEnabled = true
  · have hdvd := h.ppu.aligned
    have hmod := hmoved hon
    show 4 ∣ dot
    omega
  · rw [Bool.not_eq_true] at hon
    show 4 ∣ dot
    rw [(hoff hon).2]
    exact dvd_zero 4

/-- An advance by at most 63 M-cycles keeps the invariant; beyond that the T-cycle count would
saturate off the M-cycle grid. -/
theorem WellFormed.advanceMCycles (h : WellFormed devices) {mCycles : ℕ} (hshort : mCycles ≤ 63) :
    WellFormed (devices.advanceMCycles mCycles) := by
  have hcycles : min (mCycles * 4) 255 = mCycles * 4 := by omega
  have haligned : 4 ∣ mCycles * 4 := Nat.dvd_mul_left 4 mCycles
  unfold DmgDeviceState.advanceMCycles
  rw [hcycles]
  have htimed : WellFormed { devices with timer := (devices.timer.advanceTCycles (mCycles * 4)).2 } :=
    { h with timer := DmgTimerState.fits_advanceTCycles h.timer _ }
  exact ((htimed.request _ _).advanceSerialTCycles haligned).advancePpuTCycles haligned

theorem WellFormed.advanceQuietLong (h : WellFormed devices) (mCycles : ℕ) :
    WellFormed (devices.advanceQuietLong mCycles) := by
  fun_induction DmgDeviceState.advanceQuietLong devices mCycles with
  | case1 => exact h
  | case2 devices mCycles hmore ih => exact ih (h.advanceMCycles (Nat.min_le_right _ _))

theorem haltIdleFrom_le (devices : DmgDeviceState) (elapsed fuel : ℕ) :
    devices.haltIdleFrom elapsed fuel ≤ elapsed + fuel := by
  induction fuel generalizing devices elapsed with
  | zero => exact le_rfl
  | succ fuel ih =>
    rw [haltIdleFrom]
    split_ifs
    · omega
    · have hrest := ih (devices.advanceMCycles 1) (elapsed + 1)
      omega

/-- A HALT-idle batch has at most six M-cycles. -/
theorem haltIdleMCycles_le (devices : DmgDeviceState) : devices.haltIdleMCycles ≤ 6 :=
  haltIdleFrom_le devices 0 6

/-- Booking DMA bytes keeps the invariant if a transfer that was active still is. -/
theorem WellFormed.scheduleDmaBytes (h : WellFormed devices) (mCycles : ℕ) {activeAtStart : Bool}
    (hactive : activeAtStart = true → devices.dmaActive = true) :
    WellFormed (devices.scheduleDmaBytes mCycles activeAtStart) := by
  have howed := h.dma.owed_le
  unfold DmgDeviceState.scheduleDmaBytes
  refine { h with dma := ⟨h.dma.index_le, ?_, ?_⟩ }
  · intro hpositive
    by_cases hstart : activeAtStart = true
    · exact hactive hstart
    · simp [hstart] at hpositive
  · show (if activeAtStart then min mCycles (160 - devices.dmaIndex) else 0) + devices.dmaIndex ≤ 160
    split_ifs <;> omega

/-- A DMA byte that is owed keeps the invariant. -/
theorem WellFormed.completeDmaByte (h : WellFormed devices) (howed : devices.dmaOwed ≠ 0) :
    WellFormed devices.completeDmaByte := by
  have hactive := h.dma.active_of_owed (Nat.pos_of_ne_zero howed)
  have hindex := h.dma.index_le hactive
  have hle := h.dma.owed_le
  unfold DmgDeviceState.completeDmaByte
  by_cases hlast : devices.dmaIndex = 159
  · rw [if_pos hlast]
    refine { h with dma := ⟨by simp, ?_, ?_⟩ }
    · intro hpositive
      have hpositive : 0 < devices.dmaOwed - 1 := hpositive
      omega
    · show devices.dmaOwed - 1 + 160 ≤ 160
      omega
  · rw [if_neg hlast]
    refine { h with dma := ⟨?_, fun _ => hactive, ?_⟩ }
    · intro _
      show devices.dmaIndex + 1 ≤ 159
      omega
    · show devices.dmaOwed - 1 + (devices.dmaIndex + 1) ≤ 160
      omega

/-- The DMA registers: source, index, whether a transfer is active, and the bytes owed. -/
def dmaState (devices : DmgDeviceState) : ℕ × ℕ × Bool × ℕ :=
  (devices.dmaSourceHigh, devices.dmaIndex, devices.dmaActive, devices.dmaOwed)

@[simp] theorem dmaState_request (interrupt : DmgInterrupt) (requested : Bool) :
    (devices.request interrupt requested).dmaState = devices.dmaState := by
  rw [request_eq]
  rfl

@[simp] theorem dmaState_advanceSerialTCycles (tCycles : ℕ) :
    (devices.advanceSerialTCycles tCycles).dmaState = devices.dmaState := by
  by_cases hidle : devices.serialCyclesRemaining = 0
  · rw [advanceSerialTCycles_idle hidle]
  by_cases hdone : devices.serialCyclesRemaining ≤ tCycles
  · rw [advanceSerialTCycles_done hidle hdone]
    rfl
  · rw [advanceSerialTCycles_running (by omega)]
    rfl

@[simp] theorem dmaState_advancePpuTCycles (ticks : ℕ) :
    (devices.advancePpuTCycles ticks).dmaState = devices.dmaState := by
  induction ticks generalizing devices with
  | zero => rfl
  | succ ticks ih =>
    rw [DmgDeviceState.advancePpuTCycles, ih]
    by_cases hon : devices.lcdEnabled = true
    · rw [advancePpuTCycle_on hon]
      rfl
    · rw [advancePpuTCycle_off (by simpa using hon)]
      rfl

/-- The clock leaves the DMA registers alone. -/
@[simp] theorem dmaState_advanceMCycles (mCycles : ℕ) :
    (devices.advanceMCycles mCycles).dmaState = devices.dmaState := by
  unfold DmgDeviceState.advanceMCycles
  rw [dmaState_advancePpuTCycles, dmaState_advanceSerialTCycles, dmaState_request]
  rfl

@[simp] theorem dmaState_advanceQuietLong (mCycles : ℕ) :
    (devices.advanceQuietLong mCycles).dmaState = devices.dmaState := by
  fun_induction DmgDeviceState.advanceQuietLong devices mCycles with
  | case1 => rfl
  | case2 devices mCycles hmore ih => rw [ih, dmaState_advanceMCycles]

@[simp] theorem dmaState_sampleJoypad (buttons : ℕ) :
    (devices.sampleJoypad buttons).2.dmaState = devices.dmaState := by
  unfold DmgDeviceState.sampleJoypad requestJoypadFallingEdge
  rw [dmaState_request]
  rfl

theorem dmaState_writeRegister {address value before : ℕ} {after : DmgDeviceState}
    (hwrite : devices.writeRegister address value before = some after) :
    after.dmaState = if address = 0xff46 then (value, 0, true, 0) else devices.dmaState := by
  unfold DmgDeviceState.writeRegister at hwrite
  split at hwrite
  case h_1 =>
    cases hwrite
    rw [requestJoypadFallingEdge, dmaState_request]
    rfl
  case h_5 =>
    cases hwrite
    unfold DmgDeviceState.writeLcdControl
    by_cases hon : ({ devices with lcdControl := value } : DmgDeviceState).lcdEnabled
    · rw [if_pos hon]
      rfl
    · rw [if_neg hon]
      rfl
  case h_18 => cases hwrite
  all_goals
    cases hwrite
    rfl

/-- A register write starts a transfer at FF46 and leaves the DMA registers alone elsewhere. -/
theorem dmaState_writeMmio {address value before : ℕ} {after : DmgDeviceState}
    (hwrite : devices.writeMmio address value = some (before, after)) :
    after.dmaState = if address = 0xff46 then (value, 0, true, 0) else devices.dmaState := by
  unfold DmgDeviceState.writeMmio at hwrite
  simp only [Option.bind_eq_bind, Option.bind_eq_some_iff] at hwrite
  obtain ⟨visible, _, hwrite⟩ := hwrite
  split at hwrite
  · rename_i hrange
    rw [Option.map_eq_some_iff] at hwrite
    obtain ⟨_, _, hafter⟩ := hwrite
    cases hafter
    rw [if_neg (by omega)]
    rfl
  split at hwrite
  · rename_i hrange
    rw [Option.map_eq_some_iff] at hwrite
    obtain ⟨_, _, hafter⟩ := hwrite
    cases hafter
    rw [if_neg (by omega)]
    rfl
  obtain ⟨written, hregister, hwrite⟩ := Option.bind_eq_some_iff.mp hwrite
  rw [← dmaState_writeRegister hregister]
  split at hwrite
  · cases hwrite
    rw [requestStatRisingEdge, dmaState_request]
  · cases hwrite
    rfl

end DmgDeviceState

end Zksm83
