import Zksm83.Library.Constraint

/-!
# Bits in a field

What the bit constraints of a row say: a value that passes `boolean` is zero or one, a list of such
values spells a natural number, `packed` is the image of that number, and a selector product is one
at the spelled code and zero at every other code.
-/

namespace Constraint

section Ring

variable {F : Type*} [CommRing F]

/-- The value is one of the two bits. -/
def IsBit (value : F) : Prop := value = 0 ∨ value = 1

instance [DecidableEq F] (value : F) : Decidable (IsBit value) :=
  inferInstanceAs (Decidable (_ ∨ _))

@[simp] theorem isBit_zero : IsBit (0 : F) := Or.inl rfl

@[simp] theorem isBit_one : IsBit (1 : F) := Or.inr rfl

/-- The bit constraint in a domain. -/
theorem boolean_eq_zero_iff [IsDomain F] (value : F) : boolean value = 0 ↔ IsBit value := by
  rw [boolean, mul_eq_zero, Nat.cast_one, sub_eq_zero, IsBit]

theorem holds_booleans_iff [IsDomain F] (values : List F) :
    Holds (booleans values) ↔ ∀ value ∈ values, IsBit value := by
  simp only [booleans, holds_map, boolean_eq_zero_iff]

theorem total_cons (term : F) (terms : List F) : total (term :: terms) = term + total terms := by
  have hshift : ∀ (xs : List F) (a b : F),
      xs.foldl (fun sum x => sum + x) (a + b) = a + xs.foldl (fun sum x => sum + x) b := by
    intro xs
    induction xs with
    | nil => simp
    | cons x xs ih =>
      intro a b
      simp only [List.foldl_cons]
      rw [add_assoc, ih]
  simp only [total, List.foldl_cons]
  rw [add_comm _ term, hshift]

@[simp] theorem total_nil : total ([] : List F) = 0 := by simp [total]

/-- The accumulated sum is the list sum. -/
theorem total_eq_sum (terms : List F) : total terms = terms.sum := by
  induction terms with
  | nil => simp
  | cons term terms ih => rw [total_cons, ih, List.sum_cons]

theorem totalOver_eq_sum (count : ℕ) (f : ℕ → F) :
    totalOver count f = ∑ index ∈ Finset.range count, f index := by
  rw [totalOver, total_eq_sum]
  rfl

/-- The accumulated product is the initial value times the list product. -/
theorem productFrom_eq_prod (initial : F) (terms : List F) :
    productFrom initial terms = initial * terms.prod := by
  unfold productFrom
  induction terms generalizing initial with
  | nil => simp
  | cons term terms ih => rw [List.foldl_cons, ih, List.prod_cons, mul_assoc]

/-- Recomposition, bit by bit. -/
theorem packed_cons (bit : F) (bits : List F) : packed (bit :: bits) = bit + 2 * packed bits := by
  have hshift : ∀ (xs : List F) (sum weight : F),
      (xs.foldl (fun (state : F × F) x => (state.1 + state.2 * x, state.2 + state.2))
        (sum, weight)).1 =
      sum + weight * (xs.foldl (fun (state : F × F) x => (state.1 + state.2 * x, state.2 + state.2))
        (((0 : ℕ) : F), ((1 : ℕ) : F))).1 := by
    intro xs
    induction xs with
    | nil => simp
    | cons x xs ih =>
      intro sum weight
      simp only [List.foldl_cons]
      rw [ih, ih (((0 : ℕ) : F) + _)]
      push_cast
      ring
  simp only [packed, List.foldl_cons]
  rw [hshift]
  push_cast
  ring

@[simp] theorem packed_nil : packed ([] : List F) = 0 := by simp [packed]

end Ring

section Spelling

variable {F : Type*} [CommRing F] [DecidableEq F]

/-- The natural number of a bit. -/
def bitNat (value : F) : ℕ := if value = 1 then 1 else 0

/-- The natural number that a list of bits spells, lowest bit first. -/
def bitsNat : List F → ℕ
  | [] => 0
  | value :: bits => bitNat value + 2 * bitsNat bits

theorem natCast_bitNat {value : F} (hbit : IsBit value) : (bitNat value : F) = value := by
  unfold bitNat
  split
  case isTrue h => simp [h]
  case isFalse h => simp [hbit.resolve_right h]

theorem bitNat_le_one (value : F) : bitNat value ≤ 1 := by
  unfold bitNat
  split <;> omega

theorem bitsNat_lt (bits : List F) : bitsNat bits < 2 ^ bits.length := by
  induction bits with
  | nil => simp [bitsNat]
  | cons value bits ih =>
    have hvalue := bitNat_le_one value
    rw [bitsNat, List.length_cons, pow_succ]
    omega

/-- Recomposed bits are the image of the number they spell. -/
theorem packed_eq_natCast {bits : List F} (hbits : ∀ value ∈ bits, IsBit value) :
    packed bits = (bitsNat bits : F) := by
  induction bits with
  | nil => simp [bitsNat]
  | cons value bits ih =>
    have hvalue := natCast_bitNat (hbits value (by simp))
    rw [packed_cons, ih (fun v hv => hbits v (by simp [hv])), bitsNat]
    push_cast
    rw [hvalue]

theorem bitNat_one : bitNat (1 : F) = 1 := by simp [bitNat]

/-- The accumulated sum of bits is the image of the number of ones. -/
theorem totalOver_eq_natCast {count : ℕ} {f : ℕ → F} (hbits : ∀ index < count, IsBit (f index)) :
    totalOver count f = ((∑ index ∈ Finset.range count, bitNat (f index) : ℕ) : F) := by
  rw [totalOver_eq_sum, Nat.cast_sum]
  refine Finset.sum_congr rfl ?_
  intro index hindex
  exact (natCast_bitNat (hbits index (Finset.mem_range.mp hindex))).symm

/-- The number that the `width` columns from `start` on spell. -/
def columnsNat (row : Row F) (start width : ℕ) : ℕ :=
  bitsNat ((List.range width).map (fun bit => row (start + bit)))

theorem columnsNat_lt (row : Row F) (start width : ℕ) : columnsNat row start width < 2 ^ width := by
  simpa [columnsNat] using bitsNat_lt ((List.range width).map (fun bit => row (start + bit)))

theorem columnsNat_slice (row : Row F) (offset start width : ℕ) :
    columnsNat (slice row offset) start width = columnsNat row (offset + start) width := by
  simp only [columnsNat, slice_apply, Nat.add_assoc]

theorem bitsNat_append (low high : List F) :
    bitsNat (low ++ high) = bitsNat low + 2 ^ low.length * bitsNat high := by
  induction low with
  | nil => simp [bitsNat]
  | cons value low ih =>
    rw [List.cons_append, bitsNat, ih, bitsNat, List.length_cons, pow_succ]
    ring

/-- The columns of a number, split at a width. -/
theorem columnsNat_add (row : Row F) (start low high : ℕ) :
    columnsNat row start (low + high) =
      columnsNat row start low + 2 ^ low * columnsNat row (start + low) high := by
  rw [columnsNat, List.range_add, List.map_append, bitsNat_append, List.map_map]
  simp only [columnsNat, List.length_map, List.length_range, Function.comp_def, Nat.add_assoc]

theorem columnsNat_one (row : Row F) (start : ℕ) : columnsNat row start 1 = bitNat (row start) := by
  simp [columnsNat, bitsNat]

/-- A bit of a spelled number. -/
theorem testBit_bitsNat (bits : List F) {index : ℕ} (hindex : index < bits.length) :
    (bitsNat bits).testBit index = decide (bits[index] = 1) := by
  induction bits generalizing index with
  | nil => exact absurd hindex (Nat.not_lt_zero _)
  | cons value bits ih =>
    have hhead := bitNat_le_one value
    cases index with
    | zero =>
      rw [bitsNat, Nat.testBit_zero, Nat.add_mul_mod_self_left, List.getElem_cons_zero, bitNat]
      split <;> simp_all
    | succ index =>
      have hhalf : (bitNat value + 2 * bitsNat bits) / 2 = bitsNat bits := by omega
      rw [bitsNat, Nat.testBit_succ, hhalf, List.getElem_cons_succ]
      exact ih (Nat.lt_of_succ_lt_succ hindex)

theorem testBit_columnsNat (row : Row F) (start : ℕ) {width index : ℕ} (hindex : index < width) :
    (columnsNat row start width).testBit index = decide (row (start + index) = 1) := by
  rw [columnsNat, testBit_bitsNat _ (by simpa using hindex)]
  simp

/-- Recomposed bit columns are the image of the number they spell. -/
theorem packedBits_eq_natCast {row : Row F} {start width : ℕ}
    (hbits : ∀ bit < width, IsBit (row (start + bit))) :
    packedBits row start width = (columnsNat row start width : F) := by
  refine packed_eq_natCast ?_
  intro value hvalue
  obtain ⟨bit, hbit, rfl⟩ := List.mem_map.mp hvalue
  exact hbits bit (List.mem_range.mp hbit)

omit [DecidableEq F] in
/-- Every number below `2^width` is recomposed from its own bits. -/
theorem packed_natBits (width number : ℕ) (hnumber : number < 2 ^ width) :
    packed ((List.range width).map (fun bit => ((number / 2 ^ bit % 2 : ℕ) : F))) = number := by
  induction width generalizing number with
  | zero =>
    have hzero : number = 0 := by simpa using hnumber
    simp [hzero]
  | succ width ih =>
    have hhalf : number / 2 < 2 ^ width := by
      rw [pow_succ] at hnumber
      omega
    have hshift : ∀ bit, number / 2 ^ (bit + 1) = number / 2 / 2 ^ bit := by
      intro bit
      rw [pow_succ', Nat.div_div_eq_div_mul]
    rw [List.range_succ_eq_map, List.map_cons, List.map_map, packed_cons]
    simp only [Function.comp_def, Nat.succ_eq_add_one, hshift, pow_zero, Nat.div_one]
    rw [ih _ hhalf]
    conv_rhs => rw [← Nat.mod_add_div number 2]
    push_cast
    rfl

variable [Nontrivial F]

/-- The bits of a number below `2^width` spell it. -/
theorem bitsNat_natBits (width number : ℕ) (hnumber : number < 2 ^ width) :
    bitsNat ((List.range width).map (fun bit => ((number / 2 ^ bit % 2 : ℕ) : F))) = number := by
  induction width generalizing number with
  | zero =>
    have hzero : number = 0 := by simpa using hnumber
    simp [hzero, bitsNat]
  | succ width ih =>
    have hhalf : number / 2 < 2 ^ width := by
      rw [pow_succ] at hnumber
      omega
    have hshift : ∀ bit, number / 2 ^ (bit + 1) = number / 2 / 2 ^ bit := by
      intro bit
      rw [pow_succ', Nat.div_div_eq_div_mul]
    have hlow : bitNat ((number % 2 : ℕ) : F) = number % 2 := by
      rcases Nat.mod_two_eq_zero_or_one number with h | h <;> simp [h, bitNat]
    rw [List.range_succ_eq_map, List.map_cons, List.map_map, bitsNat]
    simp only [Function.comp_def, Nat.succ_eq_add_one, hshift, pow_zero, Nat.div_one]
    rw [ih _ hhalf, hlow]
    omega

theorem bitNat_zero : bitNat (0 : F) = 0 := by simp [bitNat]

/-- A selector factor decides whether a bit is the lowest bit of the code. -/
theorem selectorFactor_eq {value : F} (hbit : IsBit value) (code : ℕ) :
    selectorFactor code value = if bitNat value = code % 2 then 1 else 0 := by
  rcases hbit with rfl | rfl
  · rw [bitNat_zero]
    unfold selectorFactor
    rcases Nat.mod_two_eq_zero_or_one code with h | h <;> simp [h]
  · rw [bitNat_one]
    unfold selectorFactor
    rcases Nat.mod_two_eq_zero_or_one code with h | h <;> simp [h]

theorem bitSelectorFrom_eq {bits : List F} (hbits : ∀ value ∈ bits, IsBit value) (selector : F)
    (code : ℕ) (hcode : code < 2 ^ bits.length) :
    bitSelectorFrom selector code bits = if bitsNat bits = code then selector else 0 := by
  induction bits generalizing selector code with
  | nil =>
    have hzero : code = 0 := by simpa using hcode
    simp [bitSelectorFrom, bitsNat, hzero]
  | cons value bits ih =>
    have hvalue := selectorFactor_eq (hbits value (by simp)) code
    have hone := bitNat_le_one value
    have hhalf : code / 2 < 2 ^ bits.length := by
      rw [List.length_cons, pow_succ] at hcode
      omega
    rw [bitSelectorFrom, ih (fun v hv => hbits v (by simp [hv])) _ _ hhalf, hvalue, bitsNat]
    by_cases hlow : bitNat value = code % 2
    · rw [if_pos hlow, mul_one]
      exact if_congr (by omega) rfl rfl
    · rw [if_neg hlow, mul_zero, ite_self, if_neg (by omega)]

/-- The selector product of a spelled code. -/
theorem bitSelector_eq {bits : List F} (hbits : ∀ value ∈ bits, IsBit value) (code : ℕ)
    (hcode : code < 2 ^ bits.length) :
    bitSelector bits code = if bitsNat bits = code then 1 else 0 := by
  rw [bitSelector, bitSelectorFrom_eq hbits _ code hcode, Nat.cast_one]

end Spelling

end Constraint
