import Zksm83.Core.DeviceAdvance
import Zksm83.Core.DeviceInvariant

/-!
# Long HALT skips are exact

A long skip of a halted CPU asks the timer, the serial port or the PPU how far away its interrupt is.
The answer is the exact number of single M-cycles until the request: before it nothing is pending,
and the skip leaves the devices where the single cycles would.
-/

namespace Zksm83

namespace DmgTimerState

variable {timer : DmgTimerState}

/-- The divider period of the selected detector bit. -/
def period (control : ℕ) : ℕ :=
  match control % 4 with
  | 0 => 1024
  | 1 => 16
  | 2 => 64
  | _ => 256

theorem period_cases (control : ℕ) :
    period control = 1024 ∨ period control = 16 ∨ period control = 64 ∨ period control = 256 := by
  unfold period
  split <;> simp

/-- The detector sees the high half of the period. -/
theorem detector_eq {control : ℕ} (hon : control.testBit 2 = true) (rawDiv : ℕ) :
    detector control rawDiv = decide (period control ≤ 2 * (rawDiv % period control)) := by
  unfold detector detectorInput
  rw [hon, Bool.true_and, Nat.testBit_eq_decide_div_mod_eq]
  apply decide_eq_decide.mpr
  have hselect : control % 4 = 0 ∨ control % 4 = 1 ∨ control % 4 = 2 ∨ control % 4 = 3 := by omega
  rcases hselect with h | h | h | h <;> simp only [detectorBit, period, h] <;> norm_num <;> omega

/-- The timer is on, and its edge detector has followed the divider. -/
structure Ticking (timer : DmgTimerState) : Prop where
  enabled : timer.control.testBit 2 = true
  latched : timer.edgeLatch = detector timer.control timer.rawDiv

theorem Ticking.tick (h : timer.Ticking) : timer.tick.2.Ticking := by
  rw [tick_eq]
  exact ⟨h.enabled, rfl⟩

/-- The divider phase after a T-cycle. -/
theorem phase_tick (timer : DmgTimerState) :
    timer.tick.2.rawDiv % period timer.control =
      (timer.rawDiv % period timer.control + 1) % period timer.control := by
  rw [tick_eq]
  show (timer.rawDiv + 1) % 65536 % _ = _
  rcases period_cases timer.control with h | h | h | h <;> rw [h] <;> omega

/-- The detector falls exactly at the end of the period. -/
theorem Ticking.falls_eq (h : timer.Ticking) :
    timer.falls = decide (timer.rawDiv % period timer.control + 1 = period timer.control) := by
  have hmod : (timer.rawDiv + 1) % 65536 % period timer.control =
      (timer.rawDiv % period timer.control + 1) % period timer.control := by
    rcases period_cases timer.control with h | h | h | h <;> rw [h] <;> omega
  unfold falls
  rw [h.latched, detector_eq h.enabled, detector_eq h.enabled, hmod, ← decide_not,
    ← Bool.decide_and]
  apply decide_eq_decide.mpr
  have hlt : timer.rawDiv % period timer.control < period timer.control :=
    Nat.mod_lt _ (by rcases period_cases timer.control with h | h | h | h <;> omega)
  by_cases hend : timer.rawDiv % period timer.control + 1 = period timer.control
  · rw [hend, Nat.mod_self]
    rcases period_cases timer.control with h | h | h | h <;> omega
  · rw [Nat.mod_eq_of_lt (show timer.rawDiv % period timer.control + 1 < period timer.control by
      omega)]
    omega

/-- In the reload pipeline the request comes when the last phase is left. -/
theorem Ticking.reload (h : timer.Ticking) (hphase : 1 ≤ timer.reloadPhase)
    (hle : timer.reloadPhase ≤ 5)
    (hdiv : timer.rawDiv % period timer.control = timer.reloadPhase - 1) (ticks : ℕ) :
    (timer.advanceTCycles ticks).1 = decide (6 - timer.reloadPhase ≤ ticks) := by
  induction ticks generalizing timer with
  | zero =>
    rw [advanceTCycles]
    exact (decide_eq_false (by omega)).symm
  | succ ticks ih =>
    rw [advanceTCycles]
    show (timer.tick.1 || (timer.tick.2.advanceTCycles ticks).1) = _
    have hquiet : timer.falls = false := by
      rw [h.falls_eq, hdiv]
      refine decide_eq_false ?_
      rcases period_cases timer.control with h | h | h | h <;> omega
    by_cases hlast : timer.reloadPhase = 5
    · have hrequest : timer.tick.1 = true := by
        rw [tick_eq]
        exact decide_eq_true hlast
      rw [hrequest, Bool.true_or, hlast]
      exact (decide_eq_true (by omega)).symm
    · have hrequest : timer.tick.1 = false := by
        rw [tick_eq]
        exact decide_eq_false hlast
      have hnext : timer.tick.2.reloadPhase = timer.reloadPhase + 1 := by
        rw [tick_eq]
        show (if timer.falls ∧ timer.reloadedCounter = 255 then 1 else timer.nextPhase) = _
        rw [hquiet, if_neg (by simp), nextPhase, if_neg (by omega)]
      have hcontrol : timer.tick.2.control = timer.control := by rw [tick_eq]
      have hphases : timer.tick.2.rawDiv % period timer.tick.2.control =
          timer.tick.2.reloadPhase - 1 := by
        rw [hcontrol, phase_tick, hdiv, hnext]
        rw [Nat.mod_eq_of_lt (by rcases period_cases timer.control with h | h | h | h <;> omega)]
        omega
      rw [hrequest, Bool.false_or, ih h.tick (by omega) (by omega) hphases, hnext]
      exact decide_eq_decide.mpr (by omega)

/-- T-cycles until the interrupt request of a running timer. -/
def distance (timer : DmgTimerState) : ℕ :=
  period timer.control - timer.rawDiv % period timer.control +
    (255 - timer.counter) * period timer.control + 5

theorem tCyclesUntilInterrupt_eq_some {tCycles : ℕ}
    (h : timer.tCyclesUntilInterrupt = some tCycles) :
    timer.Ticking ∧ timer.reloadPhase = 0 ∧ tCycles = timer.distance := by
  unfold tCyclesUntilInterrupt at h
  split at h
  · cases h
  · rename_i hready
    simp only [Bool.or_eq_true, Bool.not_eq_true', decide_eq_true_eq, not_or, Bool.not_eq_false,
      ne_eq, not_not] at hready
    obtain ⟨⟨hon, hphase⟩, hlatch⟩ := hready
    exact ⟨⟨hon, hlatch⟩, hphase, (Option.some.inj h).symm⟩

/-- The request of a running timer comes after exactly its distance. -/
theorem Ticking.requests (h : timer.Ticking) (hphase : timer.reloadPhase = 0)
    (hcounter : timer.counter ≤ 255) (ticks : ℕ) :
    (timer.advanceTCycles ticks).1 = decide (timer.distance ≤ ticks) := by
  induction ticks generalizing timer with
  | zero =>
    rw [advanceTCycles]
    exact (decide_eq_false (by unfold distance; omega)).symm
  | succ ticks ih =>
    rw [advanceTCycles]
    show (timer.tick.1 || (timer.tick.2.advanceTCycles ticks).1) = _
    have hrequest : timer.tick.1 = false := by
      rw [tick_eq]
      exact decide_eq_false (by omega)
    have hcontrol : timer.tick.2.control = timer.control := by rw [tick_eq]
    have hreloaded : timer.reloadedCounter = timer.counter := if_neg (by omega)
    have hnext : timer.nextPhase = 0 := if_pos (.inr hphase)
    have hlt : timer.rawDiv % period timer.control < period timer.control :=
      Nat.mod_lt _ (by rcases period_cases timer.control with h | h | h | h <;> omega)
    rw [hrequest, Bool.false_or]
    by_cases hend : timer.rawDiv % period timer.control + 1 = period timer.control
    · have hfalls : timer.falls = true := by rw [h.falls_eq, decide_eq_true hend]
      have hdiv : timer.tick.2.rawDiv % period timer.control = 0 := by
        rw [phase_tick, hend, Nat.mod_self]
      by_cases hwrap : timer.counter = 255
      · have hstart : timer.tick.2.reloadPhase = 1 := by
          rw [tick_eq]
          exact if_pos ⟨hfalls, hreloaded.trans hwrap⟩
        rw [h.tick.reload (by omega) (by omega) (by rw [hcontrol, hdiv, hstart]), hstart]
        unfold distance
        rw [hwrap]
        exact decide_eq_decide.mpr (by omega)
      · have hstay : timer.tick.2.reloadPhase = 0 := by
          rw [tick_eq]
          show (if timer.falls ∧ timer.reloadedCounter = 255 then 1 else timer.nextPhase) = 0
          rw [if_neg (by rw [hreloaded]; exact fun hboth => hwrap hboth.2), hnext]
        have hcount : timer.tick.2.counter = timer.counter + 1 := by
          rw [tick_eq]
          show (if timer.falls = true then if timer.reloadedCounter = 255 then 0
            else timer.reloadedCounter + 1 else timer.reloadedCounter) = _
          rw [if_pos hfalls, hreloaded, if_neg hwrap]
        rw [ih h.tick hstay (by omega)]
        unfold distance
        rw [hcontrol, hdiv, hcount]
        apply decide_eq_decide.mpr
        have hsplit : (255 - timer.counter) * period timer.control =
            (255 - (timer.counter + 1)) * period timer.control + period timer.control := by
          rw [← Nat.succ_mul]
          congr 1
          omega
        omega
    · have hfalls : timer.falls = false := by rw [h.falls_eq, decide_eq_false hend]
      have hdiv : timer.tick.2.rawDiv % period timer.control =
          timer.rawDiv % period timer.control + 1 := by
        rw [phase_tick, Nat.mod_eq_of_lt (by omega)]
      have hstay : timer.tick.2.reloadPhase = 0 := by
        rw [tick_eq]
        show (if timer.falls ∧ timer.reloadedCounter = 255 then 1 else timer.nextPhase) = 0
        rw [hfalls, if_neg (by simp), hnext]
      have hcount : timer.tick.2.counter = timer.counter := by
        rw [tick_eq]
        show (if timer.falls = true then if timer.reloadedCounter = 255 then 0
          else timer.reloadedCounter + 1 else timer.reloadedCounter) = _
        rw [hfalls, if_neg (by simp), hreloaded]
      rw [ih h.tick hstay (by omega)]
      unfold distance
      rw [hcontrol, hdiv, hcount]
      exact decide_eq_decide.mpr (by omega)

/-- A timer that is off and has nothing in its pipeline never requests. -/
theorem advanceTCycles_off (hoff : timer.control.testBit 2 = false)
    (hphase : timer.reloadPhase = 0) (hlatch : timer.edgeLatch = false) (ticks : ℕ) :
    (timer.advanceTCycles ticks).1 = false := by
  induction ticks generalizing timer with
  | zero => rfl
  | succ ticks ih =>
    have hdetector : ∀ rawDiv, detector timer.control rawDiv = false := by
      intro rawDiv
      unfold detector detectorInput
      rw [hoff, Bool.false_and]
    rw [advanceTCycles]
    show (timer.tick.1 || (timer.tick.2.advanceTCycles ticks).1) = false
    have hfalls : timer.falls = false := by rw [falls, hlatch, Bool.false_and]
    have hquiet : timer.tick.1 = false := by
      rw [tick_eq]
      exact decide_eq_false (by omega)
    rw [hquiet, Bool.false_or]
    refine ih ?_ ?_ ?_
    · rw [tick_eq]
      exact hoff
    · rw [tick_eq]
      show (if timer.falls ∧ timer.reloadedCounter = 255 then 1 else timer.nextPhase) = 0
      rw [hfalls, if_neg (by simp), nextPhase, if_pos (.inr hphase)]
    · rw [tick_eq]
      exact hdetector _

end DmgTimerState

namespace DmgDeviceState

variable {devices after : DmgDeviceState}

/-- Dots until the PPU enters the vertical blank. -/
def vblankDistance (devices : DmgDeviceState) : ℕ :=
  let position := devices.ppuLine * 456 + devices.ppuDot
  if position < 144 * 456 then 144 * 456 - position else 154 * 456 - position + 144 * 456

/-- Without STAT sources the composite STAT line is low. -/
theorem statSignal_eq_false (hstat : devices.lcdStatusControl = 0) : devices.statSignal = false := by
  simp [statSignal, hstat]

/-- A running PPU without STAT sources requests nothing but the vertical blank, and that exactly
when it is entered. -/
theorem advancePpuTCycles_request (hon : devices.lcdEnabled = true)
    (hstat : devices.lcdStatusControl = 0) (hline : devices.ppuLine ≤ 153)
    (hdot : devices.ppuDot ≤ 455) {ticks : ℕ} (hticks : ticks ≤ devices.vblankDistance) :
    (devices.advancePpuTCycles ticks).interruptRequest =
      requestedBits devices.interruptRequest .vblank (ticks = devices.vblankDistance) := by
  induction ticks generalizing devices with
  | zero =>
    have hpositive : devices.vblankDistance ≠ 0 := by
      unfold vblankDistance
      dsimp only
      split_ifs <;> omega
    rw [requestedBits, if_neg (by simpa using hpositive.symm)]
    rfl
  | succ ticks ih =>
    have hrequest : devices.ppuRequest = requestedBits devices.interruptRequest .vblank
        (devices.ppuDot + 1 = 456 && (nextPosition devices.ppuLine devices.ppuDot).1 = 144) := by
      have hlow : devices.statAt (nextPosition devices.ppuLine devices.ppuDot).1
          (nextPosition devices.ppuLine devices.ppuDot).2 = false := statSignal_eq_false hstat
      unfold ppuRequest
      dsimp only
      rw [hlow, Bool.and_false]
      rfl
    obtain ⟨hline', hdot', _⟩ := nextPosition_bounds hline hdot
    rw [advancePpuTCycles, advancePpuTCycle_on hon, hrequest]
    by_cases henter : devices.vblankDistance = 1
    · have htick : ticks = 0 := by omega
      have hedge : devices.ppuDot + 1 = 456 ∧ devices.ppuLine = 143 := by
        unfold vblankDistance at henter
        dsimp only at henter
        split_ifs at henter <;> omega
      have hnext : (nextPosition devices.ppuLine devices.ppuDot).1 = 144 := by
        rw [nextPosition, if_pos hedge.1, hedge.2]
        rfl
      rw [htick, hedge.1, hnext, henter]
      rfl
    · have hstep : (devices.atPosition (requestedBits devices.interruptRequest .vblank
          (devices.ppuDot + 1 = 456 && (nextPosition devices.ppuLine devices.ppuDot).1 = 144))
          (nextPosition devices.ppuLine devices.ppuDot).1
          (nextPosition devices.ppuLine devices.ppuDot).2).vblankDistance + 1 =
          devices.vblankDistance ∧
          ¬ (devices.ppuDot + 1 = 456 ∧ (nextPosition devices.ppuLine devices.ppuDot).1 = 144) := by
        unfold vblankDistance at henter ⊢
        unfold nextPosition atPosition
        dsimp only at henter ⊢
        split_ifs at henter ⊢ <;> constructor <;> simp at * <;> omega
      have hquiet : (decide (devices.ppuDot + 1 = 456) &&
          decide ((nextPosition devices.ppuLine devices.ppuDot).1 = 144)) = false := by
        rw [← Bool.decide_and]
        exact decide_eq_false hstep.2
      rw [hquiet] at hstep ⊢
      rw [@ih (devices.atPosition _ (nextPosition devices.ppuLine devices.ppuDot).1
        (nextPosition devices.ppuLine devices.ppuDot).2) hon hstat hline' hdot' (by omega)]
      show requestedBits devices.interruptRequest _ _ = _
      congr 1
      exact decide_eq_decide.mpr (by omega)

/-- A PPU that is off requests nothing. -/
theorem advancePpuTCycles_request_off (hoff : devices.lcdEnabled = false) (ticks : ℕ) :
    (devices.advancePpuTCycles ticks).interruptRequest = devices.interruptRequest := by
  induction ticks generalizing devices with
  | zero => rfl
  | succ ticks ih =>
    rw [advancePpuTCycles, advancePpuTCycle_off hoff]
    exact @ih (devices.atPosition _ _ _) hoff

/-- IF after some T-cycles: what the PPU requested, with the timer and the serial port. -/
theorem interruptRequest_advancedT (tCycles : ℕ) :
    (devices.advancedT tCycles).interruptRequest =
      (devices.advancePpuTCycles tCycles).interruptRequest |||
        (requestMask .timer (devices.timer.advanceTCycles tCycles).1 |||
          requestMask .serial (devices.serialEnds tCycles)) := by
  rw [advancedT, clocked, advancePpuTCycles_overlay]
  rfl

theorem interruptEnable_advancePpuTCycles (ticks : ℕ) :
    (devices.advancePpuTCycles ticks).interruptEnable = devices.interruptEnable := by
  induction ticks generalizing devices with
  | zero => rfl
  | succ ticks ih =>
    rw [advancePpuTCycles, ih]
    by_cases hon : devices.lcdEnabled = true
    · rw [advancePpuTCycle_on hon]
      rfl
    · rw [advancePpuTCycle_off (by simpa using hon)]
      rfl

theorem interruptEnable_advancedT (tCycles : ℕ) :
    (devices.advancedT tCycles).interruptEnable = devices.interruptEnable := by
  rw [advancedT, interruptEnable_advancePpuTCycles]
  rfl

/-- Nothing becomes pending without a request. -/
theorem pendingInterrupt_congr (hrequest : after.interruptRequest = devices.interruptRequest)
    (henable : after.interruptEnable = devices.interruptEnable) :
    after.pendingInterrupt = devices.pendingInterrupt := by
  unfold pendingInterrupt
  rw [hrequest, henable]

/-- The request of an enabled interrupt makes it the pending one, if none was. -/
theorem pendingInterrupt_requested {interrupt : DmgInterrupt}
    (hnone : devices.pendingInterrupt = none)
    (hrequest : after.interruptRequest = devices.interruptRequest ||| 2 ^ interrupt.bit)
    (henable : after.interruptEnable = devices.interruptEnable)
    (hbit : devices.interruptEnable.testBit interrupt.bit = true) :
    after.pendingInterrupt = some interrupt := by
  unfold pendingInterrupt at hnone ⊢
  rw [hrequest, henable]
  simp only [Nat.testBit_and, Nat.testBit_or, Nat.testBit_two_pow] at hnone ⊢
  -- The five bits of IF and IE as booleans.
  generalize devices.interruptRequest.testBit 0 = r0 at *
  generalize devices.interruptRequest.testBit 1 = r1 at *
  generalize devices.interruptRequest.testBit 2 = r2 at *
  generalize devices.interruptRequest.testBit 3 = r3 at *
  generalize devices.interruptRequest.testBit 4 = r4 at *
  split_ifs at hnone with h0 h1 h2 h3 h4
  cases interrupt
  all_goals
    simp only [DmgInterrupt.bit] at hbit ⊢
    generalize devices.interruptEnable.testBit 0 = e0 at *
    generalize devices.interruptEnable.testBit 1 = e1 at *
    generalize devices.interruptEnable.testBit 2 = e2 at *
    generalize devices.interruptEnable.testBit 3 = e3 at *
    generalize devices.interruptEnable.testBit 4 = e4 at *
    grind

/-- The device states that the device operations reach from the state after the boot ROM. Register
values and buttons are bytes, and an advance takes a byte of M-cycles. -/
inductive Reachable : DmgDeviceState → Prop
  | postBoot : Reachable dmgPostBoot
  | sampled {devices : DmgDeviceState} {buttons : ℕ} (h : Reachable devices)
      (hbyte : buttons < 256) : Reachable (devices.sampleJoypad buttons).2
  | written {devices after : DmgDeviceState} {address value before : ℕ} (h : Reachable devices)
      (hbyte : value < 256) (hwrite : devices.writeMmio address value = some (before, after)) :
      Reachable after
  | advanced {devices : DmgDeviceState} {mCycles : ℕ} (h : Reachable devices)
      (hbyte : mCycles < 256) : Reachable (devices.advanceMCycles mCycles)
  | skipped {devices : DmgDeviceState} (mCycles : ℕ) (h : Reachable devices) :
      Reachable (devices.advanceQuietLong mCycles)
  | scheduled {devices : DmgDeviceState} (mCycles : ℕ) (activeAtStart : Bool)
      (h : Reachable devices) : Reachable (devices.scheduleDmaBytes mCycles activeAtStart)
  | completed {devices : DmgDeviceState} (h : Reachable devices) : Reachable devices.completeDmaByte
  | acknowledged {devices : DmgDeviceState} (interrupt : DmgInterrupt) (h : Reachable devices) :
      Reachable (devices.acknowledgeInterrupt interrupt)

/-- Timer registers are bytes, and the PPU position is inside the frame. -/
structure Bounded (devices : DmgDeviceState) : Prop where
  counter_le : devices.timer.counter ≤ 255
  modulo_le : devices.timer.modulo ≤ 255
  request_le : devices.interruptRequest ≤ 0x1f
  line_le : devices.ppuLine ≤ 153
  dot_le : devices.ppuDot ≤ 455
  off : devices.lcdEnabled = false → devices.ppuLine = 0 ∧ devices.ppuDot = 0

end DmgDeviceState

namespace DmgTimerState

/-- The timer registers stay bytes. -/
theorem bytes_advanceTCycles {timer : DmgTimerState} (hcounter : timer.counter ≤ 255)
    (hmodulo : timer.modulo ≤ 255) (ticks : ℕ) :
    (timer.advanceTCycles ticks).2.counter ≤ 255 ∧
      (timer.advanceTCycles ticks).2.modulo ≤ 255 := by
  induction ticks generalizing timer with
  | zero => exact ⟨hcounter, hmodulo⟩
  | succ ticks ih =>
    have hreloaded : timer.reloadedCounter ≤ 255 := by
      unfold reloadedCounter
      split_ifs
      · exact hmodulo
      · exact hcounter
    refine @ih timer.tick.2 ?_ ?_
    · rw [tick_eq]
      show (if timer.falls = true then if timer.reloadedCounter = 255 then 0
        else timer.reloadedCounter + 1 else timer.reloadedCounter) ≤ 255
      split_ifs <;> omega
    · rw [tick_eq]
      exact hmodulo

theorem bytes_write {timer after : DmgTimerState} {address value before : ℕ}
    (hcounter : timer.counter ≤ 255) (hmodulo : timer.modulo ≤ 255) (hbyte : value < 256)
    (hwrite : timer.write address value = some (before, after)) :
    after.counter ≤ 255 ∧ after.modulo ≤ 255 := by
  unfold write at hwrite
  simp only [Option.bind_eq_bind, Option.bind_eq_some_iff] at hwrite
  obtain ⟨visible, _, hwrite⟩ := hwrite
  split at hwrite
  case h_2 =>
    cases hwrite
    unfold writeCounter
    split_ifs
    · exact ⟨hmodulo, hmodulo⟩
    · exact ⟨by show value ≤ 255; omega, hmodulo⟩
  case h_3 =>
    cases hwrite
    unfold writeModulo
    refine ⟨?_, by show value ≤ 255; omega⟩
    show (if timer.reloadPhase = 5 then value else timer.counter) ≤ 255
    split_ifs <;> omega
  case h_5 => cases hwrite
  all_goals
    cases hwrite
    exact ⟨hcounter, hmodulo⟩

end DmgTimerState

namespace DmgDeviceState

variable {devices after : DmgDeviceState}

theorem Bounded.request (h : Bounded devices) (interrupt : DmgInterrupt) (requested : Bool) :
    Bounded (devices.request interrupt requested) := by
  rw [request_eq]
  exact { h with request_le := requestedBits_le h.request_le _ _ }

theorem Bounded.advancePpuTCycles (h : Bounded devices) (ticks : ℕ) :
    Bounded (devices.advancePpuTCycles ticks) := by
  obtain ⟨request, line, dot, hrequest, hline, hdot, hoff, _, heq⟩ :=
    advancePpuTCycles_spec ticks h.request_le h.line_le h.dot_le h.off
  rw [heq]
  exact { h with request_le := hrequest, line_le := hline, dot_le := hdot, off := hoff }

theorem Bounded.advanceSerialTCycles (h : Bounded devices) (tCycles : ℕ) :
    Bounded (devices.advanceSerialTCycles tCycles) := by
  by_cases hidle : devices.serialCyclesRemaining = 0
  · rw [advanceSerialTCycles_idle hidle]
    exact h
  by_cases hdone : devices.serialCyclesRemaining ≤ tCycles
  · rw [advanceSerialTCycles_done hidle hdone]
    exact { h with request_le := requestedBits_le h.request_le .serial true }
  · rw [advanceSerialTCycles_running (by omega)]
    exact { h with }

theorem Bounded.advanceMCycles (h : Bounded devices) (mCycles : ℕ) :
    Bounded (devices.advanceMCycles mCycles) := by
  obtain ⟨hcounter, hmodulo⟩ := DmgTimerState.bytes_advanceTCycles h.counter_le h.modulo_le
    (min (mCycles * 4) 255)
  have htimed : Bounded { devices with
      timer := (devices.timer.advanceTCycles (min (mCycles * 4) 255)).2 } :=
    { h with counter_le := hcounter, modulo_le := hmodulo }
  exact ((htimed.request _ _).advanceSerialTCycles _).advancePpuTCycles _

theorem Bounded.advanceQuietLong (h : Bounded devices) (mCycles : ℕ) :
    Bounded (devices.advanceQuietLong mCycles) := by
  fun_induction DmgDeviceState.advanceQuietLong devices mCycles with
  | case1 => exact h
  | case2 devices mCycles hmore ih => exact ih (h.advanceMCycles _)

theorem Bounded.writeRegister {address value before : ℕ} (h : Bounded devices)
    (hwrite : devices.writeRegister address value before = some after) : Bounded after := by
  unfold DmgDeviceState.writeRegister at hwrite
  split at hwrite
  case h_1 =>
    cases hwrite
    have hselected : Bounded { devices with joypadSelect := value &&& 0x30 } := { h with }
    exact hselected.request _ _
  case h_4 =>
    cases hwrite
    exact { h with request_le := Nat.and_le_right }
  case h_5 =>
    cases hwrite
    unfold DmgDeviceState.writeLcdControl
    by_cases hon : ({ devices with lcdControl := value } : DmgDeviceState).lcdEnabled
    · rw [if_pos hon]
      exact { h with off := fun hoff => absurd (hon.symm.trans hoff) (by decide) }
    · rw [if_neg hon]
      exact { h with
        line_le := Nat.zero_le _
        dot_le := Nat.zero_le _
        off := fun _ => ⟨rfl, rfl⟩ }
  case h_18 => cases hwrite
  all_goals
    cases hwrite
    exact { h with }

theorem Bounded.writeMmio {address value before : ℕ} (h : Bounded devices) (hbyte : value < 256)
    (hwrite : devices.writeMmio address value = some (before, after)) : Bounded after := by
  unfold DmgDeviceState.writeMmio at hwrite
  simp only [Option.bind_eq_bind, Option.bind_eq_some_iff] at hwrite
  obtain ⟨visible, _, hwrite⟩ := hwrite
  split at hwrite
  · rw [Option.map_eq_some_iff] at hwrite
    obtain ⟨⟨_, timer⟩, htimer, hafter⟩ := hwrite
    cases hafter
    obtain ⟨hcounter, hmodulo⟩ :=
      DmgTimerState.bytes_write h.counter_le h.modulo_le hbyte htimer
    exact { h with counter_le := hcounter, modulo_le := hmodulo }
  split at hwrite
  · rw [Option.map_eq_some_iff] at hwrite
    obtain ⟨⟨_, apu⟩, _, hafter⟩ := hwrite
    cases hafter
    exact { h with }
  obtain ⟨written, hregister, hwrite⟩ := Option.bind_eq_some_iff.mp hwrite
  have hwritten := h.writeRegister hregister
  split at hwrite
  · cases hwrite
    exact hwritten.request _ _
  · cases hwrite
    exact hwritten

theorem Reachable.bounded (h : Reachable devices) : Bounded devices := by
  induction h with
  | postBoot => exact ⟨by decide, by decide, by decide, by decide, by decide, by decide⟩
  | @sampled devices buttons _ hbyte ih =>
    have hsampled : Bounded { devices with joypadButtons := buttons } := { ih with }
    exact hsampled.request _ _
  | written _ hbyte hwrite ih => exact ih.writeMmio hbyte hwrite
  | advanced _ hbyte ih => exact ih.advanceMCycles _
  | skipped mCycles _ ih => exact ih.advanceQuietLong mCycles
  | scheduled mCycles activeAtStart _ ih => exact { ih with }
  | completed _ ih =>
    unfold completeDmaByte
    split_ifs <;> exact { ih with }
  | acknowledged interrupt _ ih => exact { ih with request_le := Nat.and_le_left.trans ih.request_le }

/-- A skip by `mCycles` is exact: it ends where as many single M-cycles end, nothing is pending
before, and the interrupt is pending after it. -/
def SkipsTo (devices : DmgDeviceState) (interrupt : DmgInterrupt) (mCycles : ℕ) : Prop :=
  devices.advanceQuietLong mCycles =
      (fun projected : DmgDeviceState => projected.advanceMCycles 1)^[mCycles] devices ∧
    (∀ elapsed < mCycles,
      ((fun projected : DmgDeviceState => projected.advanceMCycles 1)^[elapsed] devices
        ).pendingInterrupt = none) ∧
    ((fun projected : DmgDeviceState => projected.advanceMCycles 1)^[mCycles] devices
      ).pendingInterrupt = some interrupt

/-- A skip is exact if the request comes after its T-cycles and not before its last M-cycle. -/
theorem skipsTo_of_request {interrupt : DmgInterrupt} {mCycles : ℕ}
    (hnone : devices.pendingInterrupt = none)
    (henabled : devices.interruptEnable.testBit interrupt.bit = true)
    (hbefore : ∀ elapsed < mCycles,
      (devices.advancedT (elapsed * 4)).interruptRequest = devices.interruptRequest)
    (hafter : (devices.advancedT (mCycles * 4)).interruptRequest =
      devices.interruptRequest ||| 2 ^ interrupt.bit) :
    devices.SkipsTo interrupt mCycles := by
  refine ⟨?_, ?_, ?_⟩
  · rw [advanceQuietLong_eq, iterate_advanceMCycles]
  · intro elapsed hlt
    rw [iterate_advanceMCycles, pendingInterrupt_congr (hbefore elapsed hlt)
      (interruptEnable_advancedT _), hnone]
  · rw [iterate_advanceMCycles]
    exact pendingInterrupt_requested hnone hafter (interruptEnable_advancedT _) henabled

theorem serialEnds_eq_false (hidle : devices.serialCyclesRemaining = 0) (tCycles : ℕ) :
    devices.serialEnds tCycles = false := by
  simp [serialEnds, hidle]

theorem skipsTo_vblank (h : Bounded devices) {mCycles : ℕ}
    (hskip : devices.haltUntilVblankMCycles = some mCycles) :
    devices.SkipsTo .vblank mCycles := by
  unfold haltUntilVblankMCycles at hskip
  split at hskip
  · cases hskip
  rename_i hready
  simp only [Bool.or_eq_true, Bool.not_eq_true', decide_eq_true_eq, not_or, Bool.not_eq_false,
    Bool.not_eq_true, ne_eq, not_not, Option.isSome_eq_false_iff, Option.isNone_iff_eq_none]
    at hready
  obtain ⟨⟨⟨⟨⟨⟨⟨⟨⟨⟨⟨hnone, hon⟩, henabled⟩, _⟩, hstat⟩, htimer⟩, hphase⟩, hlatch⟩, hserial⟩, _⟩, _⟩, _⟩ :=
    hready
  change (if (devices.vblankDistance = 0 || devices.vblankDistance % 4 ≠ 0) = true then none
    else some (devices.vblankDistance / 4)) = some mCycles at hskip
  split at hskip
  · cases hskip
  rename_i haligned
  simp only [Bool.or_eq_true, decide_eq_true_eq, not_or, ne_eq, not_not] at haligned
  have hdistance : mCycles * 4 = devices.vblankDistance := by
    have hcycles := Option.some.inj hskip
    omega
  have hquiet : ∀ tCycles ≤ devices.vblankDistance,
      (devices.advancedT tCycles).interruptRequest =
        requestedBits devices.interruptRequest .vblank (tCycles = devices.vblankDistance) := by
    intro tCycles hle
    rw [interruptRequest_advancedT, DmgTimerState.advanceTCycles_off htimer hphase hlatch,
      serialEnds_eq_false hserial, advancePpuTCycles_request hon hstat h.line_le h.dot_le hle]
    exact Nat.or_zero _
  refine skipsTo_of_request hnone henabled ?_ ?_
  · intro elapsed hlt
    rw [hquiet _ (by omega), requestedBits, if_neg (by simp; omega)]
  · rw [hdistance, hquiet _ le_rfl, requestedBits, if_pos (by simp)]

theorem skipsTo_serial {mCycles : ℕ} (hskip : devices.haltUntilSerialMCycles = some mCycles) :
    devices.SkipsTo .serial mCycles := by
  unfold haltUntilSerialMCycles at hskip
  split at hskip
  · cases hskip
  rename_i hready
  simp only [Bool.or_eq_true, Bool.not_eq_true', decide_eq_true_eq, not_or, Bool.not_eq_false,
    Bool.not_eq_true, ne_eq, not_not, Option.isSome_eq_false_iff, Option.isNone_iff_eq_none]
    at hready
  obtain ⟨⟨⟨⟨⟨⟨⟨⟨⟨⟨⟨hnone, henabled⟩, hoff⟩, htimer⟩, hphase⟩, hlatch⟩, _⟩, hserial⟩, _⟩, haligned⟩, _⟩, _⟩ :=
    hready
  have hcycles : mCycles * 4 = devices.serialCyclesRemaining := by
    have hcount := Option.some.inj hskip
    omega
  have hrequest : ∀ tCycles, (devices.advancedT tCycles).interruptRequest =
      requestedBits devices.interruptRequest .serial (devices.serialCyclesRemaining ≤ tCycles) := by
    intro tCycles
    rw [interruptRequest_advancedT, DmgTimerState.advanceTCycles_off htimer hphase hlatch,
      advancePpuTCycles_request_off hoff, requestedBits_eq, serialEnds]
    simp [hserial, requestMask]
  refine skipsTo_of_request hnone henabled ?_ ?_
  · intro elapsed hlt
    rw [hrequest, requestedBits, if_neg (by simp; omega)]
  · rw [hrequest, requestedBits, if_pos (by simp; omega)]

theorem skipsTo_timer (h : Bounded devices) {mCycles : ℕ}
    (hskip : devices.haltUntilTimerMCycles = some mCycles) :
    devices.SkipsTo .timer mCycles := by
  unfold haltUntilTimerMCycles at hskip
  split at hskip
  · cases hskip
  rename_i hready
  simp only [Bool.or_eq_true, Bool.not_eq_true', decide_eq_true_eq, not_or, Bool.not_eq_false,
    Bool.not_eq_true, ne_eq, not_not, Option.isSome_eq_false_iff, Option.isNone_iff_eq_none]
    at hready
  obtain ⟨⟨⟨⟨⟨⟨hnone, henabled⟩, hoff⟩, hserial⟩, _⟩, _⟩, _⟩ := hready
  rw [Option.map_eq_some_iff] at hskip
  obtain ⟨tCycles, huntil, hcycles⟩ := hskip
  obtain ⟨hticking, hphase, hdistance⟩ := DmgTimerState.tCyclesUntilInterrupt_eq_some huntil
  have hrequest : ∀ tCycles, (devices.advancedT tCycles).interruptRequest =
      requestedBits devices.interruptRequest .timer (devices.timer.distance ≤ tCycles) := by
    intro tCycles
    rw [interruptRequest_advancedT, hticking.requests hphase h.counter_le,
      serialEnds_eq_false hserial, advancePpuTCycles_request_off hoff, requestedBits_eq]
    simp [requestMask]
  refine skipsTo_of_request hnone henabled ?_ ?_
  · intro elapsed hlt
    rw [hrequest, requestedBits, if_neg (by simp; omega)]
  · rw [hrequest, requestedBits, if_pos (by simp; omega)]

/-- Long HALT skips are exact from every reachable device state. -/
theorem haltSkip_exact {devices : DmgDeviceState} (hreachable : Reachable devices) (mCycles : ℕ) :
    (devices.haltUntilVblankMCycles = some mCycles → devices.SkipsTo .vblank mCycles) ∧
      (devices.haltUntilSerialMCycles = some mCycles → devices.SkipsTo .serial mCycles) ∧
      (devices.haltUntilTimerMCycles = some mCycles → devices.SkipsTo .timer mCycles) :=
  ⟨skipsTo_vblank hreachable.bounded, skipsTo_serial, skipsTo_timer hreachable.bounded⟩

/-- A serial transfer with its interrupt enabled, LCD and timer off. -/
def serialHalt : DmgDeviceState :=
  { dmgPostBoot with
    lcdControl := 0
    interruptRequest := 0
    interruptEnable := 0x08
    serialControl := 0x81
    serialCyclesRemaining := 4096 }

/-- Register writes one after another. -/
def writeAll (devices : DmgDeviceState) : List (ℕ × ℕ) → Option DmgDeviceState
  | [] => some devices
  | (address, value) :: rest => do
    let (_, after) ← devices.writeMmio address value
    after.writeAll rest

theorem Reachable.writeAll {writes : List (ℕ × ℕ)} (h : Reachable devices)
    (hbytes : ∀ write ∈ writes, write.2 < 256) (hwrites : devices.writeAll writes = some after) :
    Reachable after := by
  induction writes generalizing devices with
  | nil =>
    cases hwrites
    exact h
  | cons write rest ih =>
    simp only [DmgDeviceState.writeAll, Option.bind_eq_bind, Option.bind_eq_some_iff] at hwrites
    obtain ⟨⟨before, middle⟩, hwrite, hrest⟩ := hwrites
    exact ih (.written h (hbytes write List.mem_cons_self) hwrite)
      (fun other hmem => hbytes other (List.mem_cons_of_mem _ hmem)) hrest

theorem reachable_serialHalt : Reachable serialHalt :=
  Reachable.postBoot.writeAll
    (show ∀ write ∈ [(0xff40, 0), (0xff0f, 0), (0xffff, 0x08), (0xff02, 0x81)], write.2 < 256 by
      decide)
    (by decide +kernel)

theorem haltSkip_exact_serial : serialHalt.SkipsTo .serial 1024 :=
  (haltSkip_exact reachable_serialHalt 1024).2.1 (by decide +kernel)

end DmgDeviceState

end Zksm83
