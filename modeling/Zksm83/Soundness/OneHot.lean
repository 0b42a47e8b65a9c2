import Zksm83.Library.Bits
import Zksm83.NativeField

/-!
# Sums of bits in the native field

A sum of few bits that is itself a bit has at most one bit that is set, and a sum that is one has
exactly one. Selectors that the relations sum up are read with these.
-/

namespace Zksm83

open Constraint

namespace Reading

/-- The number of ones among some bits whose sum is a bit. -/
theorem sum_bitNat_le_one {count : ℕ} {f : ℕ → NativeField} (hcount : count < 1000)
    (hbits : ∀ index < count, IsBit (f index)) (htotal : IsBit (totalOver count f)) :
    ∑ index ∈ Finset.range count, bitNat (f index) ≤ 1 := by
  have hle : ∑ index ∈ Finset.range count, bitNat (f index) ≤ count := by
    calc ∑ index ∈ Finset.range count, bitNat (f index)
        ≤ ∑ _index ∈ Finset.range count, 1 := Finset.sum_le_sum (fun i _ => bitNat_le_one (f i))
      _ = count := by simp
  have hsmall : ∑ index ∈ Finset.range count, bitNat (f index) < fieldModulus :=
    hle.trans_lt (hcount.trans (by norm_num))
  rw [totalOver_eq_natCast hbits] at htotal
  rcases htotal with hzero | hone
  · rw [← Nat.cast_zero, natCast_inj hsmall (by norm_num)] at hzero
    omega
  · rw [← Nat.cast_one, natCast_inj hsmall (by norm_num)] at hone
    omega

/-- Where the sum of some bits is a bit, at most one of them is set. -/
theorem eq_of_isBit_totalOver {count : ℕ} {f : ℕ → NativeField} (hcount : count < 1000)
    (hbits : ∀ index < count, IsBit (f index)) (htotal : IsBit (totalOver count f))
    {left right : ℕ} (hleft : left < count) (hright : right < count) (hone : f left = 1)
    (hone' : f right = 1) : left = right := by
  by_contra hne
  have hle := sum_bitNat_le_one hcount hbits htotal
  have hpair : bitNat (f left) + bitNat (f right) ≤
      ∑ index ∈ Finset.range count, bitNat (f index) := by
    rw [← Finset.sum_pair (f := fun index => bitNat (f index)) hne]
    refine Finset.sum_le_sum_of_subset ?_
    intro index hindex
    rcases Finset.mem_insert.mp hindex with rfl | hindex
    · exact Finset.mem_range.mpr hleft
    · rw [Finset.mem_singleton.mp hindex]
      exact Finset.mem_range.mpr hright
  rw [hone, hone', bitNat_one] at hpair
  omega

/-- Where the sum of some bits is one, one of them is set. -/
theorem exists_of_totalOver_eq_one {count : ℕ} {f : ℕ → NativeField}
    (hbits : ∀ index < count, IsBit (f index)) (htotal : totalOver count f = 1) :
    ∃ index < count, f index = 1 := by
  by_contra hnone
  rw [not_exists] at hnone
  rw [totalOver_eq_sum, Finset.sum_eq_zero] at htotal
  · exact zero_ne_one htotal
  · intro index hindex
    have hlt := Finset.mem_range.mp hindex
    exact (hbits index hlt).resolve_right (fun hone => hnone index ⟨hlt, hone⟩)

/-- Where some bits sum up to one, the bits beside a set one vanish. -/
theorem eq_zero_of_totalOver_eq_one {count : ℕ} {f : ℕ → NativeField} (hcount : count < 1000)
    (hbits : ∀ index < count, IsBit (f index)) (htotal : totalOver count f = 1) {set other : ℕ}
    (hset : set < count) (hother : other < count) (hne : other ≠ set) (hone : f set = 1) :
    f other = 0 := by
  refine (hbits other hother).resolve_right (fun hother' => hne ?_)
  exact eq_of_isBit_totalOver hcount hbits (by rw [htotal]; exact isBit_one) hother hset hother' hone

/-- The sum of few bits vanishes exactly if none of them is set. -/
theorem total_map_eq_zero_iff {list : List ℕ} {f : ℕ → NativeField} (hlength : list.length < 1000)
    (hbits : ∀ index ∈ list, IsBit (f index)) :
    total (list.map f) = 0 ↔ ∀ index ∈ list, f index ≠ 1 := by
  have hcast : total (list.map f) = ((list.map (fun index => bitNat (f index))).sum : ℕ) := by
    rw [total_eq_sum, Nat.cast_list_sum, List.map_map]
    congr 1
    refine List.map_congr_left ?_
    intro index hindex
    exact (natCast_bitNat (hbits index hindex)).symm
  have hle : (list.map (fun index => bitNat (f index))).sum ≤ list.length := by
    have hsum := List.sum_le_card_nsmul (list.map (fun index => bitNat (f index))) 1 (by
      intro value hvalue
      obtain ⟨index, -, rfl⟩ := List.mem_map.mp hvalue
      exact bitNat_le_one _)
    simpa using hsum
  rw [hcast, ← Nat.cast_zero, natCast_inj (hle.trans_lt (hlength.trans (by norm_num)))
    (by norm_num), List.sum_eq_zero_iff]
  constructor
  · intro hzero index hindex hone
    have hbit := hzero _ (List.mem_map_of_mem hindex)
    rw [hone, bitNat_one] at hbit
    omega
  · intro hnone value hvalue
    obtain ⟨index, hindex, rfl⟩ := List.mem_map.mp hvalue
    rw [bitNat, if_neg (hnone index hindex)]

theorem totalOver_eq_zero_iff {count : ℕ} {f : ℕ → NativeField} (hcount : count < 1000)
    (hbits : ∀ index < count, IsBit (f index)) :
    totalOver count f = 0 ↔ ∀ index < count, f index ≠ 1 := by
  rw [totalOver, total_map_eq_zero_iff (by simpa using hcount)
    (fun index hindex => hbits index (List.mem_range.mp hindex))]
  simp only [List.mem_range]

/-- The sum of few bits is a bit exactly if at most one of them is set. -/
theorem isBit_totalOver_iff {count : ℕ} {f : ℕ → NativeField} (hcount : count < 1000)
    (hbits : ∀ index < count, IsBit (f index)) :
    IsBit (totalOver count f) ↔
      ∀ left < count, ∀ right < count, f left = 1 → f right = 1 → left = right := by
  constructor
  · intro htotal left hleft right hright hone hone'
    exact eq_of_isBit_totalOver hcount hbits htotal hleft hright hone hone'
  · intro hunique
    by_cases hset : ∃ index < count, f index = 1
    · obtain ⟨index, hindex, hone⟩ := hset
      refine Or.inr ?_
      rw [totalOver_eq_sum, Finset.sum_eq_single index, hone]
      · intro other hother hne
        have hlt := Finset.mem_range.mp hother
        exact (hbits other hlt).resolve_right (fun h => hne (hunique other hlt index hindex h hone))
      · exact fun hnot => absurd (Finset.mem_range.mpr hindex) hnot
    · refine Or.inl ((totalOver_eq_zero_iff hcount hbits).mpr ?_)
      exact fun index hindex hone => hset ⟨index, hindex, hone⟩

/-- Bits of which none is set after an unset one are a run of ones before a run of zeros. -/
theorem exists_activeCount {count : ℕ} {f : ℕ → NativeField}
    (hbits : ∀ index < count, IsBit (f index))
    (hearlier : ∀ index, index + 1 < count → f (index + 1) = 1 → f index = 1) :
    ∃ active ≤ count, ∀ index < count, f index = if index < active then 1 else 0 := by
  induction count with
  | zero => exact ⟨0, le_rfl, fun index hindex => absurd hindex (Nat.not_lt_zero index)⟩
  | succ count ih =>
    obtain ⟨active, hactive, hvalue⟩ := ih (fun index hindex => hbits index (by omega))
      (fun index hindex => hearlier index (by omega))
    rcases hbits count (by omega) with hzero | hone
    · refine ⟨active, by omega, ?_⟩
      intro index hindex
      rcases Nat.lt_succ_iff_lt_or_eq.mp hindex with hlt | rfl
      · exact hvalue index hlt
      · rw [if_neg (by omega), hzero]
    -- The bit before the new one is set, so all bits before it are.
    · have hfull : active = count := by
        by_contra hne
        have hbefore := hearlier (count - 1) (by omega) (by
          rwa [Nat.sub_add_cancel (by omega)])
        rw [hvalue (count - 1) (by omega), if_neg (by omega)] at hbefore
        exact zero_ne_one hbefore
      refine ⟨count + 1, le_rfl, ?_⟩
      intro index hindex
      rw [if_pos hindex]
      rcases Nat.lt_succ_iff_lt_or_eq.mp hindex with hlt | rfl
      · rw [hvalue index hlt, if_pos (by omega)]
      · exact hone

end Reading

end Zksm83
