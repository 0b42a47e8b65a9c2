import Zksm83.Core.DeviceClock

/-!
# STAT and VBlank requests

When a T-cycle of the PPU or a register write requests the STAT or the VBlank interrupt. A request
only ever adds its bit to IF, so a rising edge shows as a new bit exactly when the bit was clear.
-/

namespace Zksm83

namespace DmgDeviceState

variable {devices : DmgDeviceState}

/-- An operation sets a bit of IF that was clear before. -/
def newlySet (before after : DmgDeviceState) (interrupt : DmgInterrupt) : Bool :=
  !before.interruptRequest.testBit interrupt.bit && after.interruptRequest.testBit interrupt.bit

/-- The composite STAT line rises. -/
def statRises (before after : DmgDeviceState) : Bool := !before.statSignal && after.statSignal

/-- The PPU enters line 144 with the LCD on. -/
def entersVblank (before after : DmgDeviceState) : Bool :=
  after.lcdEnabled && before.ppuLine ≠ 144 && after.ppuLine = 144

/-- `EdgeExact before after` says that IF bits 1 and 0 accumulate the rising edges of the STAT line
and the entries into VBlank, and nothing else. -/
structure EdgeExact (before after : DmgDeviceState) : Prop where
  stat : after.interruptRequest.testBit 1 =
    (before.interruptRequest.testBit 1 || statRises before after)
  vblank : after.interruptRequest.testBit 0 =
    (before.interruptRequest.testBit 0 || entersVblank before after)

/-- A bit of IF after a request. -/
theorem testBit_requestedBits (request : ℕ) (interrupt : DmgInterrupt) (requested : Bool)
    (index : ℕ) :
    (requestedBits request interrupt requested).testBit index =
      (request.testBit index || (requested && decide (interrupt.bit = index))) := by
  unfold requestedBits
  cases requested
  · simp
  · rw [if_pos rfl, Nat.testBit_or, Nat.testBit_two_pow, Bool.true_and]

/-- Requests do not move the STAT line. -/
theorem statSignal_request (interrupt : DmgInterrupt) (requested : Bool) :
    (devices.request interrupt requested).statSignal = devices.statSignal := by
  rw [request_eq]
  rfl

/-- The STAT line at the position it already has. -/
theorem statAt_position (request line dot : ℕ) :
    (devices.atPosition request line dot).statSignal = devices.statAt line dot := rfl

/-- A T-cycle wraps into line 144 exactly when it enters that line. -/
theorem wraps_iff_enters (line dot : ℕ) :
    (dot + 1 = 456 ∧ (nextPosition line dot).1 = 144) ↔
      line ≠ 144 ∧ (nextPosition line dot).1 = 144 := by
  unfold nextPosition
  by_cases hwrap : dot + 1 = 456
  · by_cases hlast : line = 153
    · simp [hwrap, hlast]
    · simp only [hwrap, if_true, hlast, if_false, true_and]
      omega
  · simp only [hwrap, if_false, false_and, false_iff]
    exact fun h => h.1 h.2

/-- IF bits 1 and 0 after a T-cycle of a running PPU. -/
theorem testBit_ppuRequest (devices : DmgDeviceState) :
    devices.ppuRequest.testBit 1 = (devices.interruptRequest.testBit 1 ||
        (!devices.statSignal && devices.statAt (nextPosition devices.ppuLine devices.ppuDot).1
          (nextPosition devices.ppuLine devices.ppuDot).2)) ∧
      devices.ppuRequest.testBit 0 = (devices.interruptRequest.testBit 0 ||
        (devices.ppuDot + 1 = 456 && (nextPosition devices.ppuLine devices.ppuDot).1 = 144)) := by
  unfold ppuRequest
  simp only [testBit_requestedBits, DmgInterrupt.bit]
  simp

/-- A T-cycle of the PPU requests exactly its edges. -/
theorem edgeExact_advancePpuTCycle (devices : DmgDeviceState) :
    EdgeExact devices devices.advancePpuTCycle := by
  by_cases hon : devices.lcdEnabled = true
  · obtain ⟨hstat, hvblank⟩ := testBit_ppuRequest devices
    rw [advancePpuTCycle_on hon]
    generalize hnext : nextPosition devices.ppuLine devices.ppuDot = next at hstat hvblank ⊢
    have henters : entersVblank devices (devices.atPosition devices.ppuRequest next.1 next.2) =
        (devices.lcdEnabled && devices.ppuLine ≠ 144 && next.1 = 144) := rfl
    constructor
    · exact hstat
    · refine hvblank.trans (congrArg _ ?_)
      rw [henters, hon, Bool.true_and, ← Bool.decide_and, ← Bool.decide_and, ← hnext]
      exact decide_eq_decide.mpr (wraps_iff_enters _ _)
  · -- With the LCD off the position is reset and the line stays low.
    rw [Bool.not_eq_true] at hon
    rw [advancePpuTCycle_off hon]
    have hlow : (devices.atPosition devices.interruptRequest 0 0).lcdEnabled = false := hon
    constructor
    · have hline : (devices.atPosition devices.interruptRequest 0 0).statSignal = false := by
        rw [statSignal, hlow, Bool.false_and]
      rw [statRises, hline, Bool.and_false, Bool.or_false]
      rfl
    · rw [entersVblank, hlow, Bool.false_and, Bool.false_and, Bool.or_false]
      rfl

/-- No write enters line 144. -/
theorem entersVblank_of_line {after : DmgDeviceState}
    (hline : after.ppuLine = devices.ppuLine ∨ after.ppuLine = 0) :
    entersVblank devices after = false := by
  rw [entersVblank]
  obtain hline | hline := hline
  · rw [hline]
    by_cases h144 : devices.ppuLine = 144 <;> simp [h144]
  · simp [hline]

/-- An operation that touches neither IF bit nor the STAT line nor the PPU position is exact. -/
theorem EdgeExact.of_unchanged {after : DmgDeviceState}
    (hbits : ∀ index < 2, after.interruptRequest.testBit index =
      devices.interruptRequest.testBit index)
    (hstat : after.statSignal = devices.statSignal) (hline : after.ppuLine = devices.ppuLine) :
    EdgeExact devices after := by
  constructor
  · rw [hbits 1 (by decide), statRises, hstat]
    simp
  · rw [hbits 0 (by decide), entersVblank_of_line (.inl hline), Bool.or_false]

/-- A request of the STAT interrupt after a write that leaves IF and stays out of line 144. -/
theorem EdgeExact.of_requestStatRisingEdge {written : DmgDeviceState}
    (hrequest : written.interruptRequest = devices.interruptRequest)
    (hline : written.ppuLine = devices.ppuLine ∨ written.ppuLine = 0) :
    EdgeExact devices (written.requestStatRisingEdge devices.statSignal) := by
  have hline' : (written.requestStatRisingEdge devices.statSignal).ppuLine = written.ppuLine := by
    rw [requestStatRisingEdge, request_eq]
  have hbit : ∀ index, (written.requestStatRisingEdge devices.statSignal).interruptRequest.testBit
      index = (devices.interruptRequest.testBit index ||
        ((!devices.statSignal && written.statSignal) && decide (1 = index))) := by
    intro index
    rw [requestStatRisingEdge, request_eq, ← hrequest]
    exact testBit_requestedBits _ _ _ _
  constructor
  · rw [hbit, statRises, requestStatRisingEdge, statSignal_request]
    simp
  · rw [hbit, entersVblank_of_line (by rw [hline']; exact hline)]
    simp

/-- The line that switching the LCD off leaves. -/
theorem writeLcdControl_line (value : ℕ) :
    (devices.writeLcdControl value).ppuLine = devices.ppuLine ∨
      (devices.writeLcdControl value).ppuLine = 0 := by
  unfold writeLcdControl
  by_cases hon : ({ devices with lcdControl := value } : DmgDeviceState).lcdEnabled = true
  · rw [if_pos hon]
    exact .inl rfl
  · rw [if_neg hon]
    exact .inr rfl

theorem writeLcdControl_request (value : ℕ) :
    (devices.writeLcdControl value).interruptRequest = devices.interruptRequest := by
  unfold writeLcdControl
  by_cases hon : ({ devices with lcdControl := value } : DmgDeviceState).lcdEnabled = true
  · rw [if_pos hon]
  · rw [if_neg hon]

/-- A joypad request leaves IF bits 1 and 0. -/
theorem testBit_requestJoypad (before after index : ℕ) (hindex : index < 2) :
    (devices.requestJoypadFallingEdge before after).interruptRequest.testBit index =
      devices.interruptRequest.testBit index := by
  rw [requestJoypadFallingEdge, request_eq]
  refine (testBit_requestedBits _ _ _ _).trans ?_
  have hother : decide (DmgInterrupt.joypad.bit = index) = false := by
    rw [DmgInterrupt.bit, decide_eq_false_iff_not]
    omega
  rw [hother, Bool.and_false, Bool.or_false]

/-- The registers whose write does not compare the STAT line. -/
theorem edgeExact_writeRegister {address value before : ℕ} {written : DmgDeviceState}
    (hwrite : devices.writeRegister address value before = some written)
    (hrequest : address ≠ 0xff0f)
    (hplain : ¬(address = 0xff40 ∨ address = 0xff41 ∨ address = 0xff45)) :
    EdgeExact devices written := by
  unfold writeRegister at hwrite
  split at hwrite
  case h_1 =>
    -- Selecting joypad lines may request the joypad interrupt.
    obtain rfl := Option.some.inj hwrite
    refine .of_unchanged (fun index hindex => testBit_requestJoypad _ _ _ hindex) ?_ ?_
    · rw [requestJoypadFallingEdge, statSignal_request]
      rfl
    · rw [requestJoypadFallingEdge, request_eq]
  case h_4 => exact absurd rfl hrequest
  case h_5 => exact absurd (.inl rfl) hplain
  case h_6 => exact absurd (.inr (.inl rfl)) hplain
  case h_10 => exact absurd (.inr (.inr rfl)) hplain
  case h_18 => cases hwrite
  all_goals
    obtain rfl := Option.some.inj hwrite
    exact .of_unchanged (fun _ _ => rfl) rfl rfl

/-- The registers whose write compares the STAT line leave IF and stay out of line 144. -/
theorem writeRegister_lcd {address value before : ℕ} {written : DmgDeviceState}
    (hwrite : devices.writeRegister address value before = some written)
    (hlcd : address = 0xff40 ∨ address = 0xff41 ∨ address = 0xff45) :
    written.interruptRequest = devices.interruptRequest ∧
      (written.ppuLine = devices.ppuLine ∨ written.ppuLine = 0) := by
  obtain rfl | rfl | rfl := hlcd <;> obtain rfl := Option.some.inj hwrite
  · exact ⟨writeLcdControl_request value, writeLcdControl_line value⟩
  · exact ⟨rfl, .inl rfl⟩
  · exact ⟨rfl, .inl rfl⟩

/-- A register write away from IF requests exactly its edges. -/
theorem edgeExact_writeMmio {address value before : ℕ} {after : DmgDeviceState}
    (haddress : address ≠ 0xff0f)
    (hwrite : devices.writeMmio address value = some (before, after)) :
    EdgeExact devices after := by
  unfold writeMmio at hwrite
  obtain ⟨visible, -, hwrite⟩ := Option.bind_eq_some_iff.mp hwrite
  by_cases htimer : 0xff04 ≤ address ∧ address ≤ 0xff07
  · rw [if_pos htimer] at hwrite
    obtain ⟨result, -, hafter⟩ := Option.map_eq_some_iff.mp hwrite
    obtain ⟨-, rfl⟩ := Prod.mk.inj hafter
    exact .of_unchanged (fun _ _ => rfl) rfl rfl
  rw [if_neg htimer] at hwrite
  by_cases hapu : 0xff10 ≤ address ∧ address ≤ 0xff3f
  · rw [if_pos hapu] at hwrite
    obtain ⟨result, -, hafter⟩ := Option.map_eq_some_iff.mp hwrite
    obtain ⟨-, rfl⟩ := Prod.mk.inj hafter
    exact .of_unchanged (fun _ _ => rfl) rfl rfl
  rw [if_neg hapu] at hwrite
  obtain ⟨written, hregister, hwrite⟩ := Option.bind_eq_some_iff.mp hwrite
  by_cases hlcd : address = 0xff40 ∨ address = 0xff41 ∨ address = 0xff45
  · rw [if_pos hlcd] at hwrite
    obtain ⟨-, rfl⟩ := Prod.mk.inj (Option.some.inj hwrite)
    obtain ⟨hrequest, hline⟩ := writeRegister_lcd hregister hlcd
    exact .of_requestStatRisingEdge hrequest hline
  · rw [if_neg hlcd] at hwrite
    obtain ⟨-, rfl⟩ := Prod.mk.inj (Option.some.inj hwrite)
    exact edgeExact_writeRegister hregister haddress hlcd

/-- An exact operation sets a bit newly when its edge comes while the bit is clear. -/
theorem EdgeExact.newlySet_iff {after : DmgDeviceState} (hexact : EdgeExact devices after) :
    (newlySet devices after .lcdStat =
        (!devices.interruptRequest.testBit 1 && statRises devices after)) ∧
      newlySet devices after .vblank =
        (!devices.interruptRequest.testBit 0 && entersVblank devices after) := by
  unfold newlySet
  constructor
  · show (!devices.interruptRequest.testBit 1 && after.interruptRequest.testBit 1) = _
    rw [hexact.stat]
    cases devices.interruptRequest.testBit 1 <;> rfl
  · show (!devices.interruptRequest.testBit 0 && after.interruptRequest.testBit 0) = _
    rw [hexact.vblank]
    cases devices.interruptRequest.testBit 0 <;> rfl

/-- STAT and VBlank requests are edge-exact, for a T-cycle of the PPU and for a register write away
from IF: the bits accumulate their edges, and each is newly set exactly at an edge that finds it
clear. -/
theorem requests_edgeExact (devices : DmgDeviceState) :
    ∀ after, (after = devices.advancePpuTCycle ∨ ∃ address value before, address ≠ 0xff0f ∧
        devices.writeMmio address value = some (before, after)) →
      EdgeExact devices after ∧
      (newlySet devices after .lcdStat =
        (!devices.interruptRequest.testBit 1 && statRises devices after)) ∧
      newlySet devices after .vblank =
        (!devices.interruptRequest.testBit 0 && entersVblank devices after) := by
  rintro after (rfl | ⟨address, value, before, haddress, hwrite⟩)
  · exact ⟨edgeExact_advancePpuTCycle devices, (edgeExact_advancePpuTCycle devices).newlySet_iff⟩
  · have hexact := edgeExact_writeMmio haddress hwrite
    exact ⟨hexact, hexact.newlySet_iff⟩

/-- Writing STAT after the boot ROM: the mode-2 source raises the line and sets bit 1. -/
theorem requests_edgeExact_dmgPostBoot :
    newlySet dmgPostBoot { dmgPostBoot with interruptRequest := 3, lcdStatusControl := 0x20 }
      .lcdStat = true :=
  (requests_edgeExact dmgPostBoot _
    (.inr ⟨0xff41, 0x20, 0x86, by decide, by decide⟩)).2.1.trans (by decide)

/-- A STAT edge while the request is already pending: the line rises and nothing is newly set. -/
theorem writeMmio_pendingEdge :
    ¬∀ devices after : DmgDeviceState, (after = devices.advancePpuTCycle ∨
        ∃ address value before, address ≠ 0xff0f ∧
          devices.writeMmio address value = some (before, after)) →
      newlySet devices after .lcdStat = statRises devices after := by
  intro hclaim
  have hpending := hclaim { dmgPostBoot with interruptRequest := 3 }
    { dmgPostBoot with interruptRequest := 3, lcdStatusControl := 0x20 }
    (.inr ⟨0xff41, 0x20, 0x86, by decide, by decide⟩)
  exact absurd hpending (by decide)

end DmgDeviceState

end Zksm83
