import Zksm83.Library.Challenges

/-!
# Lookups in a table

Several readers look a table up, row by row. In a row, a reader has a selector, the bits of an
address and a value, which should be the selected entry of the table. Mixed with a coefficient for
each reader and summed over the rows with the weights of a random point, the values are the inner
product of the table and of `reads`, which says how much is read at each position; and the extension
of `reads` is a sum over the rows again. So two sumchecks and the values of the columns at two
points show that the mixed errors vanish at the point.
-/

open Finset

namespace TableLookup

open Challenges Multilinear

variable {F : Type*} [Field F]

structure Reader (F : Type*) where
  coefficient : F
  selector : ℕ → F
  bits : List (ℕ → F)
  value : ℕ → F

namespace Reader

variable (reader : Reader F)

def address (row : ℕ) : List F := reader.bits.map (fun bit => bit row)

omit [Field F] in
@[simp] theorem length_address (row : ℕ) : (reader.address row).length = reader.bits.length :=
  List.length_map _

/-- By how much the value of a row differs from the selected entry of the table. -/
def error (table : ℕ → F) (row : ℕ) : F :=
  reader.value row - reader.selector row * extension (reader.address row) table

end Reader

/-! ## Sums over the rows -/

theorem extension_list_sum {ι : Type*} (terms : List ι) (point : List F) (table : ι → ℕ → F) :
    extension point (fun index => (terms.map (fun term => table term index)).sum) =
      (terms.map (fun term => extension point (table term))).sum := by
  induction terms with
  | nil => exact extension_const point 0
  | cons term terms ih =>
    simp only [List.map_cons, List.sum_cons]
    rw [extension_add, ih]

theorem extension_mul (c : F) (point : List F) (table : ℕ → F) :
    extension point (fun index => c * table index) = c * extension point table :=
  extension_smul c point table

/-- Extensions at two points of a table in two indices. -/
theorem extension_comm (point point' : List F) (table : ℕ → ℕ → F) :
    extension point (fun index => extension point' (fun index' => table index index')) =
      extension point' (fun index' => extension point (fun index => table index index')) := by
  unfold extension
  simp only [smul_sum]
  rw [sum_comm]
  exact sum_congr rfl fun index' _ => sum_congr rfl fun index _ => smul_comm _ _ _

/-- How much the readers read at a position. -/
def reads (cyclePoint : List F) (readers : List (Reader F)) (position : ℕ) : F :=
  extension cyclePoint (fun row => (readers.map (fun reader =>
    reader.coefficient * reader.selector row * weight (reader.address row) position)).sum)

/-- What a mix of the readers' entries is worth, where an entry depends on the address. -/
def mixedEntries (readers : List (Reader F)) (entry : List F → F) (row : ℕ) : F :=
  (readers.map (fun reader =>
    reader.coefficient * reader.selector row * entry (reader.address row))).sum

def mixedValues (readers : List (Reader F)) (row : ℕ) : F :=
  (readers.map (fun reader => reader.coefficient * reader.value row)).sum

def mixedErrors (table : ℕ → F) (readers : List (Reader F)) (row : ℕ) : F :=
  (readers.map (fun reader => reader.coefficient * reader.error table row)).sum

theorem mixedErrors_eq (table : ℕ → F) (readers : List (Reader F)) (row : ℕ) :
    mixedErrors table readers row = mixedValues readers row -
      mixedEntries readers (fun address => extension address table) row := by
  induction readers with
  | nil => simp [mixedErrors, mixedValues, mixedEntries]
  | cons reader readers ih =>
    unfold mixedErrors mixedValues mixedEntries at *
    simp only [List.map_cons, List.sum_cons]
    rw [ih, Reader.error]
    ring

section Reduction

variable {readers : List (Reader F)} {cyclePoint tablePoint : List F}

/-- The extension of what is read, as a sum over the rows. -/
theorem extension_reads
    (hbits : ∀ reader ∈ readers, reader.bits.length = tablePoint.length) :
    extension tablePoint (reads cyclePoint readers) =
      extension cyclePoint (mixedEntries readers (fun address => equality address tablePoint)) := by
  unfold reads
  rw [extension_comm]
  refine extension_congr fun row _ => ?_
  rw [extension_list_sum, mixedEntries]
  refine congrArg List.sum (List.map_congr_left fun reader hreader => ?_)
  rw [extension_mul, ← extension_weight ((reader.length_address row).trans (hbits reader hreader))]

/-- The inner product of what is read and the table, as a sum over the rows. -/
theorem sum_reads_mul {count : ℕ} (hbits : ∀ reader ∈ readers, reader.bits.length = count)
    (table : ℕ → F) :
    ∑ position ∈ range (2 ^ count), reads cyclePoint readers position * table position =
      extension cyclePoint
        (mixedEntries readers (fun address => extension address table)) := by
  have hswap : ∑ position ∈ range (2 ^ count), reads cyclePoint readers position * table position =
      extension cyclePoint (fun row => ∑ position ∈ range (2 ^ count), (readers.map (fun reader =>
        reader.coefficient * reader.selector row *
          weight (reader.address row) position)).sum * table position) := by
    rw [extension_sum]
    refine sum_congr rfl fun position _ => ?_
    rw [reads, mul_comm, ← extension_mul]
    exact extension_congr fun row _ => mul_comm _ _
  rw [hswap]
  refine extension_congr fun row _ => ?_
  rw [mixedEntries]
  clear hswap
  induction readers with
  | nil => simp
  | cons reader readers ih =>
    obtain ⟨hreader, hreaders⟩ := List.forall_mem_cons.mp hbits
    simp only [List.map_cons, List.sum_cons, add_mul]
    rw [sum_add_distrib, ih hreaders, extension, reader.length_address, hreader, mul_sum]
    simp only [smul_eq_mul, mul_assoc]

/-- The mixed values are what the table gives exactly when the mixed errors vanish at the point. -/
theorem extension_mixedErrors {count : ℕ}
    (hbits : ∀ reader ∈ readers, reader.bits.length = count) (table : ℕ → F) :
    extension cyclePoint (mixedErrors table readers) =
      extension cyclePoint (mixedValues readers) -
        ∑ position ∈ range (2 ^ count), reads cyclePoint readers position * table position := by
  rw [sum_reads_mul hbits, sub_eq_add_neg, ← neg_one_mul, ← extension_mul, ← extension_add]
  refine extension_congr fun row _ => ?_
  rw [mixedErrors_eq]
  ring

end Reduction

/-! ## Addresses of bits -/

variable [DecidableEq F]

/-- The number that bits stand for, the lowest first. -/
def number : List F → ℕ
  | [] => 0
  | bit :: bits => (if bit = 1 then 1 else 0) + 2 * number bits

/-- Every field element is a bit. -/
def Bits (address : List F) : Prop := ∀ bit ∈ address, bit = 0 ∨ bit = 1

theorem number_lt (address : List F) : number address < 2 ^ address.length := by
  induction address with
  | nil => exact Nat.one_pos
  | cons bit bits ih =>
    rw [number, List.length_cons, pow_succ]
    split_ifs <;> omega

/-- At an address of bits, the extension is the entry. -/
theorem extension_of_bits {address : List F} (hbits : Bits address) (table : ℕ → F) :
    extension address table = table (number address) := by
  induction address generalizing table with
  | nil => exact extension_nil table
  | cons bit bits ih =>
    obtain ⟨hbit, hrest⟩ := List.forall_mem_cons.mp hbits
    rw [extension_cons, ih hrest, Multilinear.fold, number]
    obtain rfl | rfl := hbit
    · rw [if_neg zero_ne_one, line_zero, zero_add]
    · rw [if_pos rfl, line_one, add_comm]

/-- The equality polynomial of an address of bits is one at its number and zero elsewhere. -/
theorem weight_of_bits {address : List F} (hbits : Bits address) {position : ℕ}
    (hposition : position < 2 ^ address.length) :
    weight address position = if number address = position then 1 else 0 := by
  induction address generalizing position with
  | nil => rw [weight, number, if_pos (Nat.lt_one_iff.mp hposition).symm]
  | cons bit bits ih =>
    obtain ⟨hbit, hrest⟩ := List.forall_mem_cons.mp hbits
    rw [List.length_cons, pow_succ] at hposition
    rw [weight, ih hrest (by omega), number]
    obtain rfl | rfl := hbit
    · rw [if_neg zero_ne_one]
      obtain heven | hodd := Nat.mod_two_eq_zero_or_one position
      · rw [if_neg (by omega), sub_zero, one_mul]
        exact if_congr (by omega) rfl rfl
      · rw [if_pos hodd, zero_mul, if_neg (by omega)]
    · rw [if_pos rfl]
      obtain heven | hodd := Nat.mod_two_eq_zero_or_one position
      · rw [if_neg (by omega), sub_self, zero_mul, if_neg (by omega)]
      · rw [if_pos hodd, one_mul]
        exact if_congr (by omega) rfl rfl

end TableLookup
