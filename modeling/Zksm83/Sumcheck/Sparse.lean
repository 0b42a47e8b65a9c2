import Zksm83.Sumcheck.Product

/-!
# The product sumcheck with a sparse table

The left table is a list of entries, an index with a value, and stands for the table that sums the
values at each index. Neither the order of the entries nor repeated or zero entries change that
table, so the prover makes the honest run of the dense tables. Read `proveSparseLeft_eq_prove`
first. After `sumcheck/sparse.rs`.
-/

namespace Zksm83

open Finset Sumcheck FieldFold
open Multilinear (extension line)

namespace ProductSumcheck

variable {F : Type} [Field F] [DecidableEq F]

structure SparseTable (F : Type) where
  entries : List (ℕ × F)
  length : ℕ
  deriving DecidableEq

/-- One more entry, with the entries so far in reverse: it is added to the last entry of its
index. -/
def pushEntry (normalized : List (ℕ × F)) (entry : ℕ × F) : List (ℕ × F) :=
  match normalized with
  | (lastIndex, lastValue) :: rest =>
    if lastIndex = entry.1 then (lastIndex, lastValue + entry.2) :: rest
    else entry :: (lastIndex, lastValue) :: rest
  | [] => [entry]

def mergeSorted (entries : List (ℕ × F)) : List (ℕ × F) :=
  (entries.foldl pushEntry []).reverse.filter (fun entry => entry.2 ≠ 0)

/-- The entries by index. The order of entries with one index does not matter. -/
def normalize (entries : List (ℕ × F)) : List (ℕ × F) :=
  mergeSorted (entries.mergeSort (fun first second => decide (first.1 ≤ second.1)))

/-- What one entry adds to the message of a round. -/
def sparseEntryRound (index : ℕ) (value : F) (right : List F) (points : Vector F 3) :
    Except ProductSumcheckError (Vector F 3) := do
  let pairStart := index / 2 * 2
  let rightZero ← someOr right[pairStart]? .foldingShape
  let rightOne ← someOr right[pairStart + 1]? .foldingShape
  return points.map (fun point =>
    let left := if index % 2 = 0 then value * (1 - point) else value * point
    left * (rightZero + point * (rightOne - rightZero)))

namespace SparseTable

def new (entries : List (ℕ × F)) (length : ℕ) : Except ProductSumcheckError (SparseTable F) := do
  rejectIf (length = 0) .emptyTable
  rejectIf (¬ length.isPowerOfTwo) .nonPowerOfTwo
  rejectIf (∃ entry ∈ entries, length ≤ entry.1) .lengthMismatch
  return ⟨normalize entries, length⟩

def validateRight (table : SparseTable F) (right : List F) : Except ProductSumcheckError Unit :=
  rejectIf (right.length ≠ table.length) .lengthMismatch

def innerProduct (table : SparseTable F) (right : List F) : Except ProductSumcheckError F := do
  table.validateRight right
  table.entries.foldlM (fun sum entry => do
    let value ← someOr right[entry.1]? .lengthMismatch
    return sum + entry.2 * value) 0

def round (table : SparseTable F) (right : List F) :
    Except ProductSumcheckError (Vector F 3) := do
  table.validateRight right
  rejectIf (table.length = 1) .foldingShape
  table.entries.foldlM (fun message entry => do
    let value ← sparseEntryRound entry.1 entry.2 right productPoints
    return addMessages message value) (Vector.replicate 3 0)

/-- The entries of a folded table, not yet merged. -/
def foldEntries (challenge : F) (entries : List (ℕ × F)) : List (ℕ × F) :=
  entries.map (fun entry =>
    (entry.1 / 2, (if entry.1 % 2 = 0 then 1 - challenge else challenge) * entry.2))

def fold (table : SparseTable F) (challenge : F) : Except ProductSumcheckError (SparseTable F) := do
  rejectIf (table.length ≤ 1 ∨ ¬ table.length.isPowerOfTwo) .foldingShape
  return ⟨mergeSorted (foldEntries challenge table.entries), table.length / 2⟩

def finalValue (table : SparseTable F) : Except ProductSumcheckError F := do
  rejectIf (table.length ≠ 1) .foldingShape
  match table.entries with
  | [] => .ok 0
  | [(0, value)] => .ok value
  | _ => .error .foldingShape

end SparseTable

section Transcript

variable (transcript : AkitaTranscript F)

def proveSparseRounds (tables : SparseTable F × List F) (state : transcript.State) :
    Except ProductSumcheckError (List (Vector F 3) × List F × (SparseTable F × List F) ×
      transcript.State) :=
  proveFrom (channel transcript) Vector.toList
    (fun tables => tables.1.round tables.2)
    (fun _ challenge tables => do
      let left ← tables.1.fold challenge
      let right ← foldBorrowed tables.2 challenge
      return (left, right))
    (fun tables => decide (1 < tables.1.length))
    (fun tables => tables.1.round tables.2)
    (fun _ challenge tables => do
      let left ← tables.1.fold challenge
      let right ← ProductSumcheck.fold tables.2 challenge
      return (left, right))
    (fun tables => tables.1.length) tables state

def proveSparseLeft (leftEntries : List (ℕ × F)) (logicalLength : ℕ) (right : List F)
    (state : transcript.State) :
    Except ProductSumcheckError (Output F × transcript.State) := do
  let left ← SparseTable.new leftEntries logicalLength
  rejectIf (right.length ≠ logicalLength) .lengthMismatch
  let claim ← left.innerProduct right
  let _ ← variableCount logicalLength
  if logicalLength = 1 then
    let finalLeft ← left.finalValue
    finishProductSumcheck transcript [finalLeft] right [] claim [] state
  else
    let (rounds, point, (left, right), state) ← proveSparseRounds transcript (left, right) state
    let finalLeft ← left.finalValue
    finishProductSumcheck transcript [finalLeft] right rounds claim point state

end Transcript

/-! ## The table of a list of entries -/

/-- The sum of the values at an index. -/
def sumAt (entries : List (ℕ × F)) (index : ℕ) : F :=
  (entries.map (fun entry => if entry.1 = index then entry.2 else 0)).sum

/-- The table that sums the entries. -/
def denseTable (entries : List (ℕ × F)) (length : ℕ) : List F :=
  (List.range length).map (sumAt entries)

omit [DecidableEq F] in
theorem sumAt_cons (entry : ℕ × F) (entries : List (ℕ × F)) (index : ℕ) :
    sumAt (entry :: entries) index =
      (if entry.1 = index then entry.2 else 0) + sumAt entries index := by
  rw [sumAt, List.map_cons, List.sum_cons, sumAt]

omit [DecidableEq F] in
theorem sumAt_perm {entries entries' : List (ℕ × F)} (hperm : entries.Perm entries') :
    sumAt entries = sumAt entries' := by
  funext index
  exact (hperm.map _).sum_eq

omit [DecidableEq F] in
theorem sumAt_pushEntry (normalized : List (ℕ × F)) (entry : ℕ × F) :
    sumAt (pushEntry normalized entry) = sumAt (entry :: normalized) := by
  funext index
  match normalized with
  | [] => rfl
  | (lastIndex, lastValue) :: rest =>
    unfold pushEntry
    by_cases hlast : lastIndex = entry.1
    · subst hlast
      simp only [if_true, sumAt_cons]
      split <;> ring
    · simp only [if_neg hlast]

omit [DecidableEq F] in
theorem sumAt_foldl_pushEntry (entries normalized : List (ℕ × F)) :
    sumAt (entries.foldl pushEntry normalized) = sumAt (entries ++ normalized) := by
  induction entries generalizing normalized with
  | nil => rfl
  | cons entry entries ih =>
    rw [List.foldl_cons, ih, List.cons_append, ← sumAt_perm List.perm_middle]
    funext index
    have hpush := congrFun (sumAt_pushEntry normalized entry) index
    rw [sumAt, List.map_append, List.sum_append, sumAt, List.map_append, List.sum_append]
    exact congrArg _ hpush

theorem sumAt_filter (entries : List (ℕ × F)) :
    sumAt (entries.filter (fun entry => entry.2 ≠ 0)) = sumAt entries := by
  funext index
  induction entries with
  | nil => rfl
  | cons entry entries ih =>
    rw [sumAt_cons, ← ih]
    by_cases hzero : entry.2 = 0
    · simp [hzero]
    · rw [List.filter_cons_of_pos (by simpa using hzero), sumAt_cons]

/-- Merging keeps the table. -/
theorem sumAt_mergeSorted (entries : List (ℕ × F)) : sumAt (mergeSorted entries) = sumAt entries := by
  rw [mergeSorted, sumAt_filter, sumAt_perm (List.reverse_perm _), sumAt_foldl_pushEntry,
    List.append_nil]

theorem sumAt_normalize (entries : List (ℕ × F)) : sumAt (normalize entries) = sumAt entries := by
  rw [normalize, sumAt_mergeSorted, sumAt_perm (List.mergeSort_perm _ _)]

omit [DecidableEq F] in
/-- A sum over the entries is a sum over the table. -/
theorem sum_entries {entries : List (ℕ × F)} {length : ℕ}
    (hindices : ∀ entry ∈ entries, entry.1 < length) (f : ℕ → F) :
    (entries.map (fun entry => entry.2 * f entry.1)).sum =
      ∑ index ∈ range length, sumAt entries index * f index := by
  induction entries with
  | nil => simp [sumAt]
  | cons entry entries ih =>
    have hentry := hindices entry List.mem_cons_self
    rw [List.map_cons, List.sum_cons,
      ih (fun entry hentry => hindices entry (List.mem_cons_of_mem _ hentry))]
    simp only [sumAt_cons, add_mul, sum_add_distrib, ite_mul, zero_mul]
    rw [sum_ite_eq, if_pos (mem_range.mpr hentry)]

omit [DecidableEq F] in
/-- Folding the entries folds the table. -/
theorem sumAt_foldEntries (challenge : F) (entries : List (ℕ × F)) :
    sumAt (SparseTable.foldEntries challenge entries) =
      Multilinear.fold challenge (sumAt entries) := by
  funext index
  induction entries with
  | nil => simp [SparseTable.foldEntries, sumAt, Multilinear.fold, line]
  | cons entry entries ih =>
    rw [SparseTable.foldEntries, List.map_cons, sumAt_cons, ← SparseTable.foldEntries, ih]
    simp only [Multilinear.fold, line, sumAt_cons, smul_eq_mul]
    obtain heven | hodd := Nat.mod_two_eq_zero_or_one entry.1
    · have hlow : entry.1 / 2 = index ↔ entry.1 = 2 * index := by omega
      have hhigh : ¬ entry.1 = 2 * index + 1 := by omega
      simp only [hlow, if_neg hhigh, heven, if_true]
      split <;> ring
    · have hlow : ¬ entry.1 = 2 * index := by omega
      have hhigh : entry.1 / 2 = index ↔ entry.1 = 2 * index + 1 := by omega
      simp only [hhigh, if_neg hlow, hodd, one_ne_zero, if_false]
      split <;> ring

omit [DecidableEq F] in
theorem mem_pushEntry {normalized : List (ℕ × F)} {entry other : ℕ × F}
    (hmem : other ∈ pushEntry normalized entry) :
    other.1 = entry.1 ∨ ∃ old ∈ normalized, other.1 = old.1 := by
  match normalized with
  | [] => exact Or.inl (congrArg Prod.fst (List.mem_singleton.mp hmem))
  | (lastIndex, lastValue) :: rest =>
    unfold pushEntry at hmem
    by_cases hlast : lastIndex = entry.1
    · simp only [if_pos hlast] at hmem
      obtain rfl | hmem := List.mem_cons.mp hmem
      · exact Or.inl hlast
      · exact Or.inr ⟨other, List.mem_cons_of_mem _ hmem, rfl⟩
    · simp only [if_neg hlast] at hmem
      obtain rfl | hmem := List.mem_cons.mp hmem
      · exact Or.inl rfl
      · exact Or.inr ⟨other, hmem, rfl⟩

omit [DecidableEq F] in
theorem mem_foldl_pushEntry {entries normalized : List (ℕ × F)} {other : ℕ × F}
    (hmem : other ∈ entries.foldl pushEntry normalized) :
    ∃ old ∈ entries ++ normalized, other.1 = old.1 := by
  induction entries generalizing normalized with
  | nil => exact ⟨other, hmem, rfl⟩
  | cons entry entries ih =>
    obtain ⟨old, hold, hequal⟩ := ih hmem
    obtain hold | hold := List.mem_append.mp hold
    · exact ⟨old, List.mem_append_left _ (List.mem_cons_of_mem _ hold), hequal⟩
    · obtain hentry | ⟨older, holder, hsame⟩ := mem_pushEntry hold
      · exact ⟨entry, List.mem_append_left _ List.mem_cons_self, hequal.trans hentry⟩
      · exact ⟨older, List.mem_append_right _ holder, hequal.trans hsame⟩

/-- Merging adds no index. -/
theorem mem_mergeSorted {entries : List (ℕ × F)} {other : ℕ × F}
    (hmem : other ∈ mergeSorted entries) : ∃ old ∈ entries, other.1 = old.1 := by
  have hreversed := (List.mem_filter.mp hmem).1
  obtain ⟨old, hold, hequal⟩ := mem_foldl_pushEntry (List.mem_reverse.mp hreversed)
  exact ⟨old, by simpa using hold, hequal⟩

omit [DecidableEq F] in
/-- Entries of one index are merged into one. -/
theorem foldl_pushEntry_zero {entries normalized : List (ℕ × F)}
    (hentries : ∀ entry ∈ entries, entry.1 = 0)
    (hnormalized : normalized = [] ∨ ∃ value, normalized = [(0, value)]) :
    entries.foldl pushEntry normalized = [] ∨
      ∃ value, entries.foldl pushEntry normalized = [(0, value)] := by
  induction entries generalizing normalized with
  | nil => exact hnormalized
  | cons entry entries ih =>
    obtain ⟨index, value⟩ := entry
    obtain rfl : index = 0 := hentries _ List.mem_cons_self
    refine ih (fun entry hentry => hentries entry (List.mem_cons_of_mem _ hentry)) (Or.inr ?_)
    obtain rfl | ⟨last, rfl⟩ := hnormalized
    · exact ⟨value, rfl⟩
    · exact ⟨last + value, rfl⟩

theorem mergeSorted_zero {entries : List (ℕ × F)} (hentries : ∀ entry ∈ entries, entry.1 = 0) :
    mergeSorted entries = [] ∨ ∃ value, mergeSorted entries = [(0, value)] := by
  unfold mergeSorted
  obtain hempty | ⟨value, hsingle⟩ := foldl_pushEntry_zero hentries (Or.inl rfl)
  · rw [hempty]
    exact Or.inl rfl
  · rw [hsingle]
    by_cases hzero : value = 0
    · exact Or.inl (by simp [hzero])
    · exact Or.inr ⟨value, by simp [hzero]⟩

/-! ## The honest run -/

/-- The rows of a sparse table and a table. -/
def sparseRowsOf (entries : List (ℕ × F)) (right : List F) (index : ℕ) : F × F :=
  (sumAt entries index, tableOf right index)

/-- A sparse table and a table over a number of coordinates, with their rows. A table of one row
has at most one entry. -/
structure StandsSparse (count : ℕ) (tables : SparseTable F × List F) (table : ℕ → F × F) :
    Prop where
  left_length : tables.1.length = 2 ^ count
  right_length : tables.2.length = 2 ^ count
  indices : ∀ entry ∈ tables.1.entries, entry.1 < 2 ^ count
  single : count = 0 → tables.1.entries = [] ∨ ∃ value, tables.1.entries = [(0, value)]
  rows : table = sparseRowsOf tables.1.entries tables.2

section Stands

variable {tables : SparseTable F × List F} {table : ℕ → F × F} {count : ℕ}

omit [DecidableEq F] in
theorem validateRight_eq (hstands : StandsSparse count tables table) :
    tables.1.validateRight tables.2 = .ok () :=
  rejectIf_eq_ok.mpr (not_not_intro (hstands.right_length.trans hstands.left_length.symm))

omit [DecidableEq F] in
theorem sparse_innerProduct_eq (hstands : StandsSparse count tables table) :
    tables.1.innerProduct tables.2 = .ok (summand.total count table) := by
  refine Except.check_eq_ok.mpr ⟨validateRight_eq hstands, ?_⟩
  have hstep (entry : ℕ × F) (hentry : entry ∈ tables.1.entries) (sum : F) :
      (do
        let value ← someOr tables.2[entry.1]? .lengthMismatch
        return sum + entry.2 * value : Except ProductSumcheckError F) =
        .ok (sum + entry.2 * tableOf tables.2 entry.1) := by
    have hindex := hstands.right_length.symm ▸ hstands.indices entry hentry
    refine Except.bind_eq_ok.mpr ⟨_, someOr_eq_ok.mpr (List.getElem?_eq_getElem hindex), ?_⟩
    rw [tableOf_eq hindex]
    rfl
  rw [foldlM_eq_ok hstep, foldl_add (fun entry : ℕ × F => entry.2 * tableOf tables.2 entry.1),
    zero_add, sum_entries hstands.indices, hstands.rows]
  simp [Summand.total, Multilinear.cubeSum, sparseRowsOf]

end Stands

omit [DecidableEq F] in
/-- What one entry adds is its share of the folded tables. -/
theorem sparseEntryRound_eq {index count : ℕ} {value : F} {right : List F}
    (hright : right.length = 2 ^ (count + 1)) (hindex : index < 2 ^ (count + 1)) :
    sparseEntryRound index value right productPoints = .ok (productPoints.map (fun point =>
      (if index % 2 = 0 then 1 - point else point) * value *
        Multilinear.fold point (tableOf right) (index / 2))) := by
  have hlow : index / 2 * 2 < right.length := by
    rw [hright]
    omega
  have hhigh : index / 2 * 2 + 1 < right.length := by
    rw [hright, pow_succ] at *
    omega
  refine Except.bind_eq_ok.mpr ⟨_, someOr_eq_ok.mpr (List.getElem?_eq_getElem hlow),
    Except.bind_eq_ok.mpr ⟨_, someOr_eq_ok.mpr (List.getElem?_eq_getElem hhigh),
      congrArg Except.ok (Vector.map_congr_left fun point _ => ?_)⟩⟩
  rw [Multilinear.fold, line, mul_comm 2, tableOf_eq hlow, tableOf_eq hhigh, smul_eq_mul]
  split <;> ring

omit [DecidableEq F] in
/-- The shares of the entries add up to the sum over the folded tables. -/
theorem sum_shares {entries : List (ℕ × F)} {count : ℕ}
    (hindices : ∀ entry ∈ entries, entry.1 < 2 ^ (count + 1)) (right : List F) (point : F) :
    (entries.map (fun entry => (if entry.1 % 2 = 0 then 1 - point else point) * entry.2 *
        Multilinear.fold point (tableOf right) (entry.1 / 2))).sum =
      summand.total count (Multilinear.fold point (sparseRowsOf entries right)) := by
  have hfolded : ∀ entry ∈ SparseTable.foldEntries point entries, entry.1 < 2 ^ count := by
    intro entry hentry
    obtain ⟨old, hold, rfl⟩ := List.mem_map.mp hentry
    have hlt := hindices old hold
    rw [pow_succ] at hlt
    show old.1 / 2 < 2 ^ count
    omega
  have hsum := sum_entries hfolded (Multilinear.fold point (tableOf right))
  rw [SparseTable.foldEntries, List.map_map, ← SparseTable.foldEntries, sumAt_foldEntries] at hsum
  exact hsum.trans (sum_congr rfl fun index _ =>
    (summand_value (Multilinear.fold point (sparseRowsOf entries right) index)).symm)

omit [DecidableEq F] in
/-- The message of a round holds the values of the honest polynomial. -/
theorem round_eq {tables : SparseTable F × List F} {table : ℕ → F × F} {count : ℕ}
    (hstands : StandsSparse (count + 1) tables table) :
    ∃ message, tables.1.round tables.2 = .ok message ∧
      message.toList = summand.message count table := by
  have hlong : tables.1.length ≠ 1 := by
    have hpos := Nat.two_pow_pos count
    rw [hstands.left_length, pow_succ]
    omega
  have hstep (entry : ℕ × F) (hentry : entry ∈ tables.1.entries) (message : Vector F 3) :
      (do
        let value ← sparseEntryRound entry.1 entry.2 tables.2 productPoints
        return addMessages message value : Except ProductSumcheckError (Vector F 3)) =
        .ok (addMessages message (productPoints.map (fun point =>
          (if entry.1 % 2 = 0 then 1 - point else point) * entry.2 *
            Multilinear.fold point (tableOf tables.2) (entry.1 / 2)))) :=
    Except.bind_eq_ok.mpr ⟨_, sparseEntryRound_eq hstands.right_length
      (hstands.indices entry hentry), rfl⟩
  refine ⟨_, Except.check_eq_ok.mpr ⟨validateRight_eq hstands, Except.check_eq_ok.mpr
    ⟨rejectIf_eq_ok.mpr hlong, foldlM_eq_ok hstep _⟩⟩, ?_⟩
  rw [foldl_addMessages, toList_message, hstands.rows, ← sum_shares hstands.indices,
    ← sum_shares hstands.indices, ← sum_shares hstands.indices]
  simp [productPoints]

omit [DecidableEq F] in
theorem fold_sparseRowsOf (challenge : F) {entries : List (ℕ × F)} {right : List F} {count : ℕ}
    (hright : right.length = 2 ^ (count + 1)) :
    Multilinear.fold challenge (sparseRowsOf entries right) =
      sparseRowsOf (SparseTable.foldEntries challenge entries) (foldPairs challenge right) := by
  funext index
  rw [sparseRowsOf, sumAt_foldEntries, tableOf_foldPairs challenge
    (hright ▸ pow_succ_mod_two _)]
  rfl

/-- Folding keeps what the tables stand for. -/
theorem StandsSparse.fold {tables : SparseTable F × List F} {table : ℕ → F × F} {count : ℕ}
    (hstands : StandsSparse (count + 1) tables table) (challenge : F) :
    tables.1.fold challenge = .ok ⟨mergeSorted (SparseTable.foldEntries challenge
        tables.1.entries), tables.1.length / 2⟩ ∧
      StandsSparse count (⟨mergeSorted (SparseTable.foldEntries challenge tables.1.entries),
        tables.1.length / 2⟩, foldPairs challenge tables.2) (Multilinear.fold challenge table) := by
  have hlong : 1 < tables.1.length := by
    have hpos := Nat.two_pow_pos count
    rw [hstands.left_length, pow_succ]
    omega
  have hentries : ∀ entry ∈ SparseTable.foldEntries challenge tables.1.entries,
      entry.1 < 2 ^ count := by
    intro entry hentry
    obtain ⟨old, hold, rfl⟩ := List.mem_map.mp hentry
    have hlt := hstands.indices old hold
    rw [pow_succ] at hlt
    show old.1 / 2 < 2 ^ count
    omega
  refine ⟨Except.check_eq_ok.mpr ⟨rejectIf_eq_ok.mpr (not_or.mpr ⟨not_le.mpr hlong,
    not_not_intro ⟨_, hstands.left_length⟩⟩), rfl⟩, ?_, ?_, ?_, ?_, ?_⟩
  · show tables.1.length / 2 = 2 ^ count
    rw [hstands.left_length, pow_succ, Nat.mul_div_cancel _ (by norm_num)]
  · exact length_foldPairs_of_pow hstands.right_length challenge
  · intro entry hentry
    obtain ⟨old, hold, hequal⟩ := mem_mergeSorted hentry
    exact hequal ▸ hentries old hold
  · rintro rfl
    exact mergeSorted_zero fun entry hentry => Nat.lt_one_iff.mp (hentries entry hentry)
  · rw [hstands.rows, fold_sparseRowsOf challenge hstands.right_length]
    funext index
    rw [sparseRowsOf, sparseRowsOf, sumAt_mergeSorted]

/-- A round computes the honest message and folds both tables. -/
theorem sparse_round_represents
    {foldTable : List F → F → Except ProductSumcheckError (List F)}
    (hfold : ∀ {values : List F} {count : ℕ}, values.length = 2 ^ (count + 1) → ∀ challenge,
      foldTable values challenge = .ok (foldPairs challenge values)) :
    RoundRepresents (summand (F := F)) Vector.toList StandsSparse StandsSparse
      (fun tables => tables.1.round tables.2)
      (fun _ challenge tables => do
        let left ← tables.1.fold challenge
        let right ← foldTable tables.2 challenge
        return (left, right)) := by
  intro count tables table hstands
  obtain ⟨message, hmessage, hvalues⟩ := round_eq hstands
  refine ⟨message, hmessage, hvalues, fun challenge => ⟨_, ?_, (hstands.fold challenge).2⟩⟩
  exact Except.bind_eq_ok.mpr ⟨_, (hstands.fold challenge).1, Except.bind_eq_ok.mpr
    ⟨_, hfold hstands.right_length challenge, rfl⟩⟩

omit [DecidableEq F] in
theorem sparse_more_eq {tables : SparseTable F × List F} {table : ℕ → F × F} {count : ℕ}
    (hstands : StandsSparse count tables table) :
    decide (1 < tables.1.length) = decide (0 < count) ∧ count ≤ tables.1.length := by
  rw [hstands.left_length]
  refine ⟨decide_eq_decide.mpr ?_, Nat.lt_two_pow_self.le⟩
  rw [Nat.one_lt_two_pow_iff, Nat.pos_iff_ne_zero]

omit [DecidableEq F] in
theorem finalValue_eq {tables : SparseTable F × List F} {table : ℕ → F × F}
    (hstands : StandsSparse 0 tables table) : tables.1.finalValue = .ok (table 0).1 := by
  have hlength : ¬ tables.1.length ≠ 1 := not_not_intro (hstands.left_length.trans (pow_zero 2))
  refine Except.check_eq_ok.mpr ⟨rejectIf_eq_ok.mpr hlength, ?_⟩
  rw [hstands.rows]
  obtain hempty | ⟨value, hsingle⟩ := hstands.single rfl
  · simp [hempty, sparseRowsOf, sumAt]
  · simp [hsingle, sparseRowsOf, sumAt]

section Prover

variable (transcript : AkitaTranscript F)

omit [DecidableEq F] in
theorem finish_sparse_eq {tables : SparseTable F × List F} {table : ℕ → F × F}
    (hstands : StandsSparse 0 tables table) (rounds : List (Vector F 3)) (claim : F)
    (point : List F) (state : transcript.State) :
    (do
      let finalLeft ← tables.1.finalValue
      finishProductSumcheck transcript [finalLeft] tables.2 rounds claim point state) =
      .ok ((⟨rounds, (table 0).1, (table 0).2⟩, claim, point),
        absorbFinals transcript (asciiBytes "product-sumcheck-final")
          [(table 0).1, (table 0).2] state) := by
  refine Except.bind_eq_ok.mpr ⟨_, finalValue_eq hstands, ?_⟩
  have hlast : Stands 0 ([(table 0).1], tables.2) (rowsOf ([(table 0).1], tables.2)) :=
    ⟨rfl, hstands.right_length, rfl⟩
  have hrow : rowsOf ([(table 0).1], tables.2) 0 = table 0 := by
    rw [hstands.rows]
    rfl
  rw [finishProductSumcheck_eq rounds claim point state hlast, hrow]

omit [DecidableEq F] in
theorem tableOf_denseTable {entries : List (ℕ × F)} {length : ℕ}
    (hindices : ∀ entry ∈ entries, entry.1 < length) :
    tableOf (denseTable entries length) = sumAt entries := by
  funext index
  by_cases hindex : index < length
  · rw [tableOf_eq (by simpa [denseTable] using hindex)]
    simp [denseTable]
  · have hzero : sumAt entries index = 0 := by
      refine List.sum_eq_zero fun value hvalue => ?_
      obtain ⟨entry, hentry, rfl⟩ := List.mem_map.mp hvalue
      have hne : entry.1 ≠ index := fun hequal => hindex (hequal ▸ hindices entry hentry)
      exact if_neg hne
    have hbeyond : (denseTable entries length).length ≤ index := by
      simpa [denseTable] using hindex
    rw [hzero, tableOf, List.getD_eq_getElem?_getD, List.getElem?_eq_none hbeyond]
    rfl

theorem standsSparse_new {entries : List (ℕ × F)} {right : List F} {count : ℕ}
    (hindices : ∀ entry ∈ entries, entry.1 < 2 ^ count) (hright : right.length = 2 ^ count) :
    SparseTable.new entries (2 ^ count) = .ok ⟨normalize entries, 2 ^ count⟩ ∧
      StandsSparse count (⟨normalize entries, 2 ^ count⟩, right)
        (rowsOf (denseTable entries (2 ^ count), right)) := by
  have hmember : ∀ entry ∈ normalize entries, entry.1 < 2 ^ count := by
    intro entry hentry
    obtain ⟨old, hold, hequal⟩ := mem_mergeSorted hentry
    exact hequal ▸ hindices old (List.mem_mergeSort.mp hold)
  refine ⟨Except.check_eq_ok.mpr ⟨rejectIf_eq_ok.mpr (Nat.two_pow_pos count).ne',
    Except.check_eq_ok.mpr ⟨rejectIf_eq_ok.mpr (not_not_intro ⟨count, rfl⟩),
      Except.check_eq_ok.mpr ⟨rejectIf_eq_ok.mpr ?_, rfl⟩⟩⟩, rfl, hright, hmember, ?_, ?_⟩
  · rintro ⟨entry, hentry, hle⟩
    exact absurd (hindices entry hentry) (not_lt.mpr hle)
  · rintro rfl
    refine mergeSorted_zero fun entry hentry => ?_
    exact Nat.lt_one_iff.mp (hindices entry (List.mem_mergeSort.mp hentry))
  · funext index
    rw [rowsOf, sparseRowsOf, sumAt_normalize, tableOf_denseTable hindices]

/-- The prover with a sparse table makes the honest run of the dense table. -/
theorem proveSparseLeft_eq {entries : List (ℕ × F)} {right : List F} {count : ℕ}
    (hindices : ∀ entry ∈ entries, entry.1 < 2 ^ count) (hright : right.length = 2 ^ count)
    (state : transcript.State) :
    ∃ rounds : List (Vector F 3),
      rounds.map Vector.toList =
        (run transcript count (denseTable entries (2 ^ count)) right state).1 ∧
      proveSparseLeft transcript entries (2 ^ count) right state =
        .ok (honestOutput transcript rounds count (denseTable entries (2 ^ count)) right state) := by
  obtain ⟨hnew, hstands⟩ := standsSparse_new hindices hright
  have hclaim := sparse_innerProduct_eq hstands
  have hvariables : variableCount (2 ^ count) = .ok (2 ^ count).log2 :=
    Except.check_eq_ok.mpr ⟨rejectIf_eq_ok.mpr (not_or.mpr
      ⟨(Nat.two_pow_pos count).ne', not_not_intro ⟨count, rfl⟩⟩), rfl⟩
  have hfront {result : Output F × transcript.State} (hrest : (if 2 ^ count = 1 then do
      let finalLeft ← (SparseTable.mk (normalize entries) (2 ^ count)).finalValue
      finishProductSumcheck transcript [finalLeft] right []
        (summand.total count (rowsOf (denseTable entries (2 ^ count), right))) [] state
    else do
      let (rounds, point, (left, last), state) ← proveSparseRounds transcript
        (SparseTable.mk (normalize entries) (2 ^ count), right) state
      let finalLeft ← left.finalValue
      finishProductSumcheck transcript [finalLeft] last rounds
        (summand.total count (rowsOf (denseTable entries (2 ^ count), right))) point state) =
      .ok result) : proveSparseLeft transcript entries (2 ^ count) right state = .ok result :=
    Except.bind_eq_ok.mpr ⟨_, hnew, Except.check_eq_ok.mpr ⟨rejectIf_eq_ok.mpr
      (not_not_intro hright), Except.bind_eq_ok.mpr ⟨_, hclaim, Except.bind_eq_ok.mpr
        ⟨_, hvariables, hrest⟩⟩⟩⟩
  cases count with
  | zero =>
    refine ⟨[], rfl, hfront ?_⟩
    rw [if_pos (pow_zero 2)]
    refine (finish_sparse_eq transcript hstands [] _ [] state).trans ?_
    have hfinals := foldAll_rowsOf [] (denseTable entries (2 ^ 0)) right
    rw [Multilinear.foldAll_nil] at hfinals
    rw [hfinals]
    rfl
  | succ count =>
    have hlong : 2 ^ (count + 1) ≠ 1 := by
      have hpos := Nat.two_pow_pos count
      rw [pow_succ]
      omega
    obtain ⟨rounds, tables, hrun, hrounds, hlast⟩ := proveFrom_eq (channel transcript)
      (fun count _ _ htables => sparse_more_eq htables) (sparse_round_represents foldBorrowed_eq)
      (sparse_round_represents fold_eq) hstands state
    refine ⟨rounds, hrounds, hfront ?_⟩
    rw [if_neg hlong]
    refine Except.bind_eq_ok.mpr
      ⟨_, hrun, (finish_sparse_eq transcript hlast _ _ _ _).trans ?_⟩
    rw [foldAll_rowsOf]
    rfl

/-- For entries with indices below the length of the table, the sparse prover and the dense prover
return the same proof, claim, challenges and transcript, or both fail. -/
theorem proveSparseLeft_eq_prove (entries : List (ℕ × F)) (length : ℕ) (right : List F)
    (state : transcript.State) (hindices : ∀ entry ∈ entries, entry.1 < length) :
    (proveSparseLeft transcript entries length right state).toOption =
      (prove transcript (denseTable entries length) right state).toOption := by
  have hdense : (denseTable entries length).length = length := by simp [denseTable]
  by_cases hshape : right.length = length ∧ length.isPowerOfTwo
  · obtain ⟨hright, count, rfl⟩ := hshape
    obtain ⟨rounds, hrounds, hsparse⟩ := proveSparseLeft_eq transcript hindices hright state
    obtain ⟨rounds', hrounds', hprove⟩ :=
      @prove_eq F _ transcript _ _ _ hdense hright state
    have hsame : rounds = rounds' :=
      List.map_injective_iff.mpr (fun _ _ => Vector.toList_inj.mp) (hrounds.trans hrounds'.symm)
    rw [hsparse, hprove, hsame]
  · have hprove (result : Output F × transcript.State) :
        prove transcript (denseTable entries length) right state ≠ .ok result := by
      intro h
      obtain ⟨hvalid, -⟩ := Except.check_eq_ok.mp h
      obtain ⟨-, hvalid⟩ := Except.check_eq_ok.mp hvalid
      obtain ⟨hlength, hpower⟩ := Except.check_eq_ok.mp hvalid
      rw [rejectIf_eq_ok, not_not, hdense] at hlength hpower
      exact hshape ⟨hlength.symm, hpower⟩
    have hsparse (result : Output F × transcript.State) :
        proveSparseLeft transcript entries length right state ≠ .ok result := by
      intro h
      obtain ⟨left, hnew, h⟩ := Except.bind_eq_ok.mp h
      obtain ⟨hlength, -⟩ := Except.check_eq_ok.mp h
      obtain ⟨-, hnew⟩ := Except.check_eq_ok.mp hnew
      obtain ⟨hpower, -⟩ := Except.check_eq_ok.mp hnew
      rw [rejectIf_eq_ok, not_not] at hlength hpower
      exact hshape ⟨hlength, hpower⟩
    match hfirst : proveSparseLeft transcript entries length right state,
      hsecond : prove transcript (denseTable entries length) right state with
    | .ok result, _ => exact absurd hfirst (hsparse result)
    | _, .ok result => exact absurd hsecond (hprove result)
    | .error _, .error _ => rfl

/-- Unsorted, repeated and cancelling entries. -/
theorem proveSparseLeft_eq_prove_unsorted :
    (proveSparseLeft (sumTranscript ℚ) [(3, 5), (0, 2), (3, -5), (1, 7), (0, 1)] 4 [1, 2, 3, 4]
      (0 : ℚ)).toOption =
    (prove (sumTranscript ℚ) (denseTable [(3, 5), (0, 2), (3, -5), (1, 7), (0, 1)] 4) [1, 2, 3, 4]
      (0 : ℚ)).toOption :=
  proveSparseLeft_eq_prove (sumTranscript ℚ) _ 4 _ _ (by simp)

end Prover

end ProductSumcheck

end Zksm83
