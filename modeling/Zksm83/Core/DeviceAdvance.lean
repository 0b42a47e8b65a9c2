import Zksm83.Core.DeviceClock

/-!
# Device time composes

Timer, serial port and PPU run side by side and meet only in the interrupt register, where requests
accumulate. An advance by two amounts of time is therefore an advance by their sum, and the chunks of
a long HALT add up to single M-cycles.
-/

namespace Zksm83

namespace DmgTimerState

/-- The timer over two amounts of time. -/
theorem advanceTCycles_add (timer : DmgTimerState) (first second : ℕ) :
    timer.advanceTCycles (first + second) =
      ((timer.advanceTCycles first).1 ||
          ((timer.advanceTCycles first).2.advanceTCycles second).1,
        ((timer.advanceTCycles first).2.advanceTCycles second).2) := by
  induction first generalizing timer with
  | zero => rw [Nat.zero_add, advanceTCycles, Bool.false_or]
  | succ first ih =>
    rw [show first + 1 + second = first + second + 1 by omega]
    simp only [advanceTCycles]
    rw [ih]
    simp only [Bool.or_assoc]

end DmgTimerState

namespace DmgDeviceState

variable {devices : DmgDeviceState}

/-- The bits that a request adds to IF. -/
def requestMask (interrupt : DmgInterrupt) (requested : Bool) : ℕ :=
  if requested then 2 ^ interrupt.bit else 0

theorem requestedBits_eq (request : ℕ) (interrupt : DmgInterrupt) (requested : Bool) :
    requestedBits request interrupt requested = request ||| requestMask interrupt requested := by
  unfold requestedBits requestMask
  split_ifs
  · rfl
  · rw [Nat.or_zero]

theorem requestMask_or (interrupt : DmgInterrupt) (first second : Bool) :
    requestMask interrupt first ||| requestMask interrupt second =
      requestMask interrupt (first || second) := by
  cases first <;> cases second <;> simp [requestMask]

/-- Other timer and serial registers, with more requests. -/
def overlay (devices : DmgDeviceState) (timer : DmgTimerState)
    (data control remaining requests : ℕ) : DmgDeviceState :=
  { devices with
    timer := timer
    serialData := data
    serialControl := control
    serialCyclesRemaining := remaining
    interruptRequest := devices.interruptRequest ||| requests }

/-- The PPU neither reads nor changes the timer and the serial port. -/
theorem advancePpuTCycle_overlay (timer : DmgTimerState) (data control remaining requests : ℕ) :
    (devices.overlay timer data control remaining requests).advancePpuTCycle =
      devices.advancePpuTCycle.overlay timer data control remaining requests := by
  by_cases hon : devices.lcdEnabled = true
  · have hrequest : (devices.overlay timer data control remaining requests).ppuRequest =
        devices.ppuRequest ||| requests := by
      simp only [ppuRequest, requestedBits_eq]
      show devices.interruptRequest ||| requests ||| _ ||| _ =
        devices.interruptRequest ||| _ ||| _ ||| requests
      rw [Nat.or_right_comm devices.interruptRequest requests, Nat.or_right_comm _ requests]
      rfl
    rw [advancePpuTCycle_on hon, advancePpuTCycle_on (show (devices.overlay _ _ _ _ _).lcdEnabled = _
      from hon), hrequest]
    rfl
  · rw [Bool.not_eq_true] at hon
    rw [advancePpuTCycle_off hon,
      advancePpuTCycle_off (show (devices.overlay _ _ _ _ _).lcdEnabled = _ from hon)]
    rfl

theorem advancePpuTCycles_overlay (timer : DmgTimerState) (data control remaining requests ticks : ℕ) :
    (devices.overlay timer data control remaining requests).advancePpuTCycles ticks =
      (devices.advancePpuTCycles ticks).overlay timer data control remaining requests := by
  induction ticks generalizing devices with
  | zero => rfl
  | succ ticks ih => rw [advancePpuTCycles, advancePpuTCycles, advancePpuTCycle_overlay, ih]

theorem advancePpuTCycles_add (first second : ℕ) :
    devices.advancePpuTCycles (first + second) =
      (devices.advancePpuTCycles first).advancePpuTCycles second := by
  induction first generalizing devices with
  | zero => rw [Nat.zero_add, advancePpuTCycles]
  | succ first ih =>
    rw [show first + 1 + second = first + second + 1 by omega, advancePpuTCycles,
      advancePpuTCycles, ih]

/-- The timer and the serial port of the devices. -/
def clockState (devices : DmgDeviceState) : DmgTimerState × ℕ × ℕ × ℕ :=
  (devices.timer, devices.serialData, devices.serialControl, devices.serialCyclesRemaining)

@[simp] theorem clockState_advancePpuTCycles (ticks : ℕ) :
    (devices.advancePpuTCycles ticks).clockState = devices.clockState := by
  induction ticks generalizing devices with
  | zero => rfl
  | succ ticks ih =>
    rw [advancePpuTCycles, ih]
    by_cases hon : devices.lcdEnabled = true
    · rw [advancePpuTCycle_on hon]
      rfl
    · rw [advancePpuTCycle_off (by simpa using hon)]
      rfl

/-- A serial transfer ends within some T-cycles. -/
def serialEnds (devices : DmgDeviceState) (tCycles : ℕ) : Bool :=
  devices.serialCyclesRemaining ≠ 0 && devices.serialCyclesRemaining ≤ tCycles

/-- Timer and serial port after some T-cycles; the PPU stays. -/
def clocked (devices : DmgDeviceState) (tCycles : ℕ) : DmgDeviceState :=
  devices.overlay (devices.timer.advanceTCycles tCycles).2
    (if devices.serialEnds tCycles then 0xff else devices.serialData)
    (if devices.serialEnds tCycles then devices.serialControl &&& 0x7f else devices.serialControl)
    (devices.serialCyclesRemaining - tCycles)
    (requestMask .timer (devices.timer.advanceTCycles tCycles).1 |||
      requestMask .serial (devices.serialEnds tCycles))

/-- All devices after some T-cycles. -/
def advancedT (devices : DmgDeviceState) (tCycles : ℕ) : DmgDeviceState :=
  (devices.clocked tCycles).advancePpuTCycles tCycles

theorem overlay_overlay (timer timer' : DmgTimerState)
    (data control remaining requests data' control' remaining' requests' : ℕ) :
    (devices.overlay timer data control remaining requests).overlay timer' data' control' remaining'
        requests' =
      devices.overlay timer' data' control' remaining' (requests ||| requests') := by
  simp only [overlay, Nat.or_assoc]

theorem request_timer_eq (timer : DmgTimerState) (requested : Bool) :
    ({ devices with timer := timer } : DmgDeviceState).request .timer requested =
      devices.overlay timer devices.serialData devices.serialControl
        devices.serialCyclesRemaining (requestMask .timer requested) := by
  rw [request_eq, requestedBits_eq]
  rfl

/-- The serial port after some T-cycles. -/
theorem advanceSerialTCycles_eq (tCycles : ℕ) :
    devices.advanceSerialTCycles tCycles = devices.overlay devices.timer
      (if devices.serialEnds tCycles then 0xff else devices.serialData)
      (if devices.serialEnds tCycles then devices.serialControl &&& 0x7f else devices.serialControl)
      (devices.serialCyclesRemaining - tCycles)
      (requestMask .serial (devices.serialEnds tCycles)) := by
  unfold overlay serialEnds
  by_cases hidle : devices.serialCyclesRemaining = 0
  · rw [advanceSerialTCycles_idle hidle]
    simp [hidle, requestMask]
    rw [← hidle]
  by_cases hdone : devices.serialCyclesRemaining ≤ tCycles
  · rw [advanceSerialTCycles_done hidle hdone, requestedBits_eq]
    simp [hidle, hdone]
  · rw [advanceSerialTCycles_running (by simpa using hdone)]
    simp [hdone, requestMask]

/-- The advance by M-cycles is the advance by their T-cycles. -/
theorem advanceMCycles_eq {mCycles : ℕ} (hshort : mCycles ≤ 63) :
    devices.advanceMCycles mCycles = devices.advancedT (mCycles * 4) := by
  unfold advanceMCycles advancedT
  rw [show min (mCycles * 4) 255 = mCycles * 4 by omega]
  generalize mCycles * 4 = tCycles
  show (((_ : DmgDeviceState).request .timer (devices.timer.advanceTCycles tCycles).1)
    |>.advanceSerialTCycles tCycles).advancePpuTCycles tCycles = _
  rw [request_timer_eq, advanceSerialTCycles_eq, overlay_overlay]
  rfl

/-- A transfer ends in a sum of times if it ends in the first or in the second. -/
theorem serialEnds_add (first second : ℕ) :
    devices.serialEnds (first + second) =
      (devices.serialEnds first || (devices.clocked first).serialEnds second) := by
  unfold serialEnds clocked overlay
  by_cases hidle : devices.serialCyclesRemaining = 0
  · simp [hidle]
  by_cases hdone : devices.serialCyclesRemaining ≤ first
  · simp [hidle, hdone, show devices.serialCyclesRemaining ≤ first + second by omega]
  · have hleft : devices.serialCyclesRemaining - first ≠ 0 := by omega
    simp only [ne_eq, hidle, hleft, not_false_eq_true, decide_true, hdone, decide_false,
      Bool.true_and, Bool.false_or]
    exact decide_eq_decide.mpr (by omega)

/-- Timer and serial port over two amounts of time. -/
theorem clocked_clocked (first second : ℕ) :
    (devices.clocked first).clocked second = devices.clocked (first + second) := by
  have htimer := devices.timer.advanceTCycles_add first second
  have hends : devices.serialEnds (first + second) = _ := serialEnds_add first second
  show (devices.overlay _ _ _ _ _).overlay _ _ _ _ _ = devices.overlay _ _ _ _ _
  rw [overlay_overlay, htimer, hends, ← requestMask_or, ← requestMask_or]
  have hmask : ∀ a b c d : ℕ, a ||| b ||| (c ||| d) = a ||| c ||| (b ||| d) := by
    intro a b c d
    rw [Nat.or_assoc, Nat.or_assoc, Nat.or_left_comm b]
  -- A transfer that ended in the first part has nothing left to end in the second.
  have honce : devices.serialEnds first = true → (devices.clocked first).serialEnds second = false := by
    intro hfirst
    have hle : devices.serialCyclesRemaining ≤ first := by
      simp only [serialEnds, Bool.and_eq_true, decide_eq_true_eq] at hfirst
      exact hfirst.2
    have hleft : (devices.clocked first).serialCyclesRemaining = 0 := by
      show devices.serialCyclesRemaining - first = 0
      omega
    simp [serialEnds, hleft]
  have hdata : (devices.clocked first).serialData =
      if devices.serialEnds first then 0xff else devices.serialData := rfl
  have hcontrol : (devices.clocked first).serialControl =
      if devices.serialEnds first then devices.serialControl &&& 0x7f else devices.serialControl := rfl
  rw [hdata, hcontrol]
  congr 1
  · by_cases hfirst : devices.serialEnds first = true <;> simp [hfirst]
  · by_cases hfirst : devices.serialEnds first = true
    · simp [hfirst, honce hfirst]
    · simp [hfirst]
  · show devices.serialCyclesRemaining - first - second = _
    omega
  · exact hmask _ _ _ _

/-- Timer and serial port run beside the PPU. -/
theorem clocked_advancePpuTCycles (tCycles ticks : ℕ) :
    (devices.advancePpuTCycles ticks).clocked tCycles =
      (devices.clocked tCycles).advancePpuTCycles ticks := by
  have hclock : (devices.advancePpuTCycles ticks).clockState = devices.clockState :=
    clockState_advancePpuTCycles ticks
  simp only [clockState, Prod.mk.injEq] at hclock
  obtain ⟨htimer, hdata, hcontrol, hremaining⟩ := hclock
  have hends : (devices.advancePpuTCycles ticks).serialEnds tCycles = devices.serialEnds tCycles := by
    rw [serialEnds, hremaining, serialEnds]
  rw [clocked, clocked, htimer, hdata, hcontrol, hremaining, hends, advancePpuTCycles_overlay]

/-- Device time composes. -/
theorem advancedT_add (first second : ℕ) :
    (devices.advancedT first).advancedT second = devices.advancedT (first + second) := by
  rw [advancedT, advancedT, clocked_advancePpuTCycles, clocked_clocked, ← advancePpuTCycles_add,
    advancedT]

theorem advancedT_zero : devices.advancedT 0 = devices := by
  simp [advancedT, clocked, overlay, serialEnds, DmgTimerState.advanceTCycles, requestMask,
    advancePpuTCycles]

/-- Single M-cycles add up. -/
theorem iterate_advanceMCycles (count : ℕ) :
    (fun projected : DmgDeviceState => projected.advanceMCycles 1)^[count] devices =
      devices.advancedT (count * 4) := by
  induction count with
  | zero => exact advancedT_zero.symm
  | succ count ih =>
    rw [Function.iterate_succ_apply', ih, advanceMCycles_eq (by decide), advancedT_add]
    congr 1
    omega

/-- The chunks of a long HALT add up. -/
theorem advanceQuietLong_eq (mCycles : ℕ) :
    devices.advanceQuietLong mCycles = devices.advancedT (mCycles * 4) := by
  fun_induction DmgDeviceState.advanceQuietLong devices mCycles with
  | case1 => exact advancedT_zero.symm
  | case2 devices mCycles hmore ih =>
    rw [ih, advanceMCycles_eq (Nat.min_le_right _ _), advancedT_add]
    congr 1
    omega

/-- Batches of at most 63 M-cycles add up. -/
theorem foldl_advanceMCycles (batches : List ℕ) (hshort : ∀ batch ∈ batches, batch ≤ 63) :
    batches.foldl advanceMCycles devices = devices.advancedT (batches.sum * 4) := by
  induction batches generalizing devices with
  | nil => exact advancedT_zero.symm
  | cons batch batches ih =>
    rw [List.foldl_cons, ih (fun other hother => hshort other (List.mem_cons_of_mem _ hother)),
      advanceMCycles_eq (hshort batch List.mem_cons_self), advancedT_add, List.sum_cons,
      Nat.add_mul]

/-- An advance splits at every M-cycle, and batches with the same total advance alike. -/
theorem advanceMCycles_additive (devices : DmgDeviceState) :
    (∀ first second, first + second ≤ 63 →
      devices.advanceMCycles (first + second) =
        (devices.advanceMCycles first).advanceMCycles second) ∧
      ∀ left right : List ℕ, (∀ batch ∈ left, batch ≤ 63) → (∀ batch ∈ right, batch ≤ 63) →
        left.sum = right.sum →
          left.foldl advanceMCycles devices = right.foldl advanceMCycles devices := by
  constructor
  · intro first second hshort
    rw [advanceMCycles_eq hshort, advanceMCycles_eq (show first ≤ 63 by omega),
      advanceMCycles_eq (show second ≤ 63 by omega), advancedT_add, Nat.add_mul]
  · intro left right hleft hright hsum
    rw [foldl_advanceMCycles left hleft, foldl_advanceMCycles right hright, hsum]

/-- Three M-cycles after the boot ROM, in two ways. -/
theorem advanceMCycles_additive_dmgPostBoot :
    dmgPostBoot.advanceMCycles (1 + 2) = (dmgPostBoot.advanceMCycles 1).advanceMCycles 2 ∧
      [1, 2].foldl advanceMCycles dmgPostBoot = [2, 0, 1].foldl advanceMCycles dmgPostBoot :=
  ⟨(advanceMCycles_additive dmgPostBoot).1 1 2 (by decide),
    (advanceMCycles_additive dmgPostBoot).2 [1, 2] [2, 0, 1] (by decide) (by decide) rfl⟩

end DmgDeviceState

end Zksm83
