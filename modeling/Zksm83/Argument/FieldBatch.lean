import Mathlib.Algebra.BigOperators.Ring.List
import Mathlib.Algebra.Field.Basic
import Mathlib.Data.List.Induction
import Mathlib.Data.List.OfFn
import Mathlib.Tactic.LinearCombination
import Mathlib.Tactic.Ring
import Zksm83.Library.Failure
import Zksm83.Library.Numerals

/-!
# Batch inversion of selected denominators

One field inversion serves a whole batch: the prefix products of the selected denominators are
collected forwards, and the inverse of their product is peeled off backwards. An entry with scale
zero stays out of the product and becomes zero. Read `batchInvertSelected_eq` first. After
`field_batch.rs`.
-/

namespace Zksm83

/-- A request for `scale / denominator`, overwritten with the answer. -/
structure SelectedDenominator (F : Type*) where
  scale : F
  denominator : F
  deriving DecidableEq

inductive FieldBatchError where
  | shape
  | zeroDenominator
  deriving DecidableEq, Repr

namespace FieldBatch

abbrev fieldBatchRowChunk : ℕ := 4096

variable {F : Type*} [Field F] [DecidableEq F]

/-- The products before every entry, and the product of all selected denominators. -/
def prefixProducts (product : F) :
    List (SelectedDenominator F) → Except FieldBatchError (List F × F)
  | [] => .ok ([], product)
  | entry :: rest =>
    if entry.scale ≠ 0 then
      if entry.denominator = 0 then .error .zeroDenominator
      else do
        let (prefixes, final) ← prefixProducts (product * entry.denominator) rest
        pure (product :: prefixes, final)
    else do
      let (prefixes, final) ← prefixProducts product rest
      pure (product :: prefixes, final)

/-- The backward pass over entries in reverse order with their prefix products. -/
def peel (productInverse : F) : List (SelectedDenominator F × F) → List (SelectedDenominator F)
  | [] => []
  | (entry, before) :: rest =>
    if entry.scale = 0 then { entry with denominator := 0 } :: peel productInverse rest
    else { entry with denominator := entry.scale * before * productInverse } ::
      peel (productInverse * entry.denominator) rest

/-- Batch inversion of a list of entries. -/
def batchInvertEntries (entries : List (SelectedDenominator F)) :
    Except FieldBatchError (List (SelectedDenominator F)) := do
  let (prefixes, product) ← prefixProducts 1 entries
  if product = 0 then .error .zeroDenominator
  else pure (peel product⁻¹ (entries.zip prefixes).reverse).reverse

/-- Batch inversion of rows of `N` entries: the entries are taken row by row. -/
def batchInvertSelected {N : ℕ} (rows : List (Fin N → SelectedDenominator F)) :
    Except FieldBatchError (List (Fin N → SelectedDenominator F)) := do
  let inverted ← batchInvertEntries (rows.flatMap List.ofFn)
  pure ((List.range rows.length).map (fun row entry =>
    inverted.getD (row * N + entry) ⟨0, 0⟩))

/-- The answer to a request. -/
def answer (entry : SelectedDenominator F) : SelectedDenominator F :=
  { entry with denominator := if entry.scale = 0 then 0 else entry.scale / entry.denominator }

/-- A request that no inversion can answer. -/
def Unanswerable (entry : SelectedDenominator F) : Prop :=
  entry.scale ≠ 0 ∧ entry.denominator = 0

instance (entry : SelectedDenominator F) : Decidable (Unanswerable entry) :=
  inferInstanceAs (Decidable (_ ∧ _))

/-- The factor of an entry in the product. -/
def factor (entry : SelectedDenominator F) : F :=
  if entry.scale = 0 then 1 else entry.denominator

/-- The product before every entry. -/
def productsBefore (product : F) : List (SelectedDenominator F) → List F
  | [] => []
  | entry :: rest => product :: productsBefore (product * factor entry) rest

theorem length_productsBefore (product : F) (entries : List (SelectedDenominator F)) :
    (productsBefore product entries).length = entries.length := by
  induction entries generalizing product with
  | nil => rfl
  | cons entry rest ih => rw [productsBefore, List.length_cons, ih, List.length_cons]

theorem productsBefore_append (product : F) (entries : List (SelectedDenominator F))
    (entry : SelectedDenominator F) :
    productsBefore product (entries ++ [entry]) =
      productsBefore product entries ++ [product * (entries.map factor).prod] := by
  induction entries generalizing product with
  | nil => simp [productsBefore]
  | cons head rest ih =>
    rw [List.cons_append, productsBefore, ih, productsBefore, List.cons_append, List.map_cons,
      List.prod_cons, mul_assoc]

theorem prefixProducts_eq (product : F) {entries : List (SelectedDenominator F)}
    (hall : ∀ entry ∈ entries, ¬ Unanswerable entry) :
    prefixProducts product entries =
      .ok (productsBefore product entries, product * (entries.map factor).prod) := by
  induction entries generalizing product with
  | nil => simp [prefixProducts, productsBefore]
  | cons entry rest ih =>
    have hentry := hall entry List.mem_cons_self
    have hrest : ∀ other ∈ rest, ¬ Unanswerable other :=
      fun other hother => hall other (List.mem_cons_of_mem _ hother)
    rw [productsBefore, List.map_cons, List.prod_cons, ← mul_assoc, prefixProducts]
    by_cases hscale : entry.scale = 0
    · rw [if_neg (by simpa using hscale), ih product hrest]
      simp [factor, hscale, pure, Except.pure, bind, Except.bind]
    · have hdenominator : entry.denominator ≠ 0 := fun hzero => hentry ⟨hscale, hzero⟩
      rw [if_pos hscale, if_neg hdenominator, ih _ hrest]
      simp [factor, hscale, pure, Except.pure, bind, Except.bind]

theorem prefixProducts_error (product : F) {entries : List (SelectedDenominator F)}
    (hsome : ∃ entry ∈ entries, Unanswerable entry) :
    prefixProducts product entries = .error .zeroDenominator := by
  induction entries generalizing product with
  | nil => simp at hsome
  | cons entry rest ih =>
    obtain ⟨found, hmem, hfound⟩ := hsome
    rw [prefixProducts]
    rcases List.mem_cons.mp hmem with rfl | hrest
    · rw [if_pos hfound.1, if_pos hfound.2]
    · have hnext : ∀ next, prefixProducts next rest = .error .zeroDenominator :=
        fun next => ih next ⟨found, hrest, hfound⟩
      by_cases hscale : entry.scale = 0
      · rw [if_neg (by simpa using hscale), hnext]
        rfl
      · rw [if_pos hscale]
        by_cases hdenominator : entry.denominator = 0
        · rw [if_pos hdenominator]
        · rw [if_neg hdenominator, hnext]
          rfl

theorem factor_ne_zero {entry : SelectedDenominator F} (h : ¬ Unanswerable entry) :
    factor entry ≠ 0 := by
  unfold factor
  split
  case isTrue => exact one_ne_zero
  case isFalse hscale => exact fun hzero => h ⟨hscale, hzero⟩

/-- The backward pass answers every request. -/
theorem peel_eq (product productInverse : F) (entries : List (SelectedDenominator F))
    (hall : ∀ entry ∈ entries, ¬ Unanswerable entry)
    (hinverse : productInverse * (product * (entries.map factor).prod) = 1) :
    peel productInverse (entries.zip (productsBefore product entries)).reverse =
      (entries.map answer).reverse := by
  induction entries using List.reverseRecOn generalizing productInverse with
  | nil => rfl
  | append_singleton rest entry ih =>
    have hentry := hall entry (by simp)
    have hrest : ∀ other ∈ rest, ¬ Unanswerable other := fun other hother => hall other (by simp [hother])
    rw [List.map_append, List.prod_append, List.map_singleton, List.prod_singleton] at hinverse
    have hnext : productInverse * factor entry * (product * (rest.map factor).prod) = 1 := by
      rw [← hinverse]
      ring
    rw [productsBefore_append, List.zip_append (length_productsBefore product rest).symm,
      List.reverse_append, List.map_append, List.reverse_append]
    simp only [List.zip_cons_cons, List.zip_nil_right, List.reverse_singleton,
      List.singleton_append, List.map_singleton]
    rw [peel]
    by_cases hscale : entry.scale = 0
    · rw [if_pos hscale, answer, if_pos hscale]
      rw [factor, if_pos hscale, mul_one] at hnext
      rw [ih productInverse hrest hnext]
    · rw [if_neg hscale, answer, if_neg hscale]
      rw [factor, if_neg hscale] at hnext hinverse
      rw [ih _ hrest hnext]
      have hdenominator : entry.denominator ≠ 0 := fun hzero => hentry ⟨hscale, hzero⟩
      have hvalue : entry.scale * (product * (rest.map factor).prod) * productInverse =
          entry.scale / entry.denominator := by
        rw [eq_div_iff hdenominator]
        linear_combination entry.scale * hnext
      rw [hvalue]

/-- A batch without an unanswerable request answers every request. -/
theorem batchInvertEntries_eq {entries : List (SelectedDenominator F)}
    (hall : ∀ entry ∈ entries, ¬ Unanswerable entry) :
    batchInvertEntries entries = .ok (entries.map answer) := by
  have hproduct : (1 : F) * (entries.map factor).prod ≠ 0 := by
    rw [one_mul]
    refine List.prod_ne_zero ?_
    intro hzero
    obtain ⟨entry, hmem, heq⟩ := List.mem_map.mp hzero
    exact factor_ne_zero (hall entry hmem) heq
  rw [batchInvertEntries, prefixProducts_eq 1 hall]
  show (if (1 : F) * (entries.map factor).prod = 0 then Except.error FieldBatchError.zeroDenominator
    else pure (peel (1 * (entries.map factor).prod)⁻¹
      (entries.zip (productsBefore 1 entries)).reverse).reverse) = _
  rw [if_neg hproduct, peel_eq 1 _ entries hall (inv_mul_cancel₀ hproduct), List.reverse_reverse]
  rfl

theorem batchInvertEntries_error {entries : List (SelectedDenominator F)}
    (hsome : ∃ entry ∈ entries, Unanswerable entry) :
    batchInvertEntries entries = .error .zeroDenominator := by
  rw [batchInvertEntries, prefixProducts_error 1 hsome]
  rfl

omit [Field F] [DecidableEq F] in
/-- The entries of consecutive rows, by row and position. -/
theorem getElem?_flatMap_ofFn {N : ℕ} (rows : List (Fin N → SelectedDenominator F)) {index : ℕ}
    {row : Fin N → SelectedDenominator F} (hrow : rows[index]? = some row) (entry : Fin N) :
    (rows.flatMap List.ofFn)[index * N + entry]? = some (row entry) := by
  induction rows generalizing index with
  | nil => simp at hrow
  | cons head rest ih =>
    rw [List.flatMap_cons]
    cases index with
    | zero =>
      obtain rfl : head = row := by simpa using hrow
      rw [List.getElem?_append_left (by simp), Nat.zero_mul, Nat.zero_add]
      simp
    | succ index =>
      rw [List.getElem?_cons_succ] at hrow
      rw [List.getElem?_append_right (by rw [List.length_ofFn, Nat.succ_mul]; omega),
        List.length_ofFn, show (index + 1) * N + entry - N = index * N + entry by
          rw [Nat.succ_mul]; omega]
      exact ih hrow

/-- Rows without an unanswerable request are answered entry by entry. -/
theorem batchInvertSelected_eq {N : ℕ} {rows : List (Fin N → SelectedDenominator F)}
    (hall : ∀ row ∈ rows, ∀ entry, ¬ Unanswerable (row entry)) :
    batchInvertSelected rows = .ok (rows.map (fun row entry => answer (row entry))) := by
  have hentries : ∀ entry ∈ rows.flatMap List.ofFn, ¬ Unanswerable entry := by
    intro entry hentry
    obtain ⟨row, hrow, hmem⟩ := List.mem_flatMap.mp hentry
    obtain ⟨position, rfl⟩ := (List.mem_ofFn' _ _).mp hmem
    exact hall row hrow position
  rw [batchInvertSelected, batchInvertEntries_eq hentries]
  refine congrArg Except.ok (List.ext_getElem (by simp) ?_)
  intro index hleft hright
  have hlt : index < rows.length := by simpa using hright
  rw [List.getElem_map, List.getElem_map, List.getElem_range]
  funext entry
  rw [List.getD_eq_getElem?_getD, List.getElem?_map,
    getElem?_flatMap_ofFn rows (List.getElem?_eq_getElem hlt) entry]
  rfl

/-- An unanswerable request fails the batch. -/
theorem batchInvertSelected_error {N : ℕ} {rows : List (Fin N → SelectedDenominator F)}
    (hsome : ∃ row ∈ rows, ∃ entry, Unanswerable (row entry)) :
    batchInvertSelected rows = .error .zeroDenominator := by
  obtain ⟨row, hrow, entry, hentry⟩ := hsome
  rw [batchInvertSelected, batchInvertEntries_error
    ⟨row entry, List.mem_flatMap.mpr ⟨row, hrow, (List.mem_ofFn' _ _).mpr ⟨entry, rfl⟩⟩, hentry⟩]
  rfl

section Columns

variable {N M : ℕ} {τ ε : Type} {K : Type} [Field K] [DecidableEq K]

/-- The rows of the chunks from `start` on; a chunk has at least one row. -/
def chunkRanges (chunk rowCount start : ℕ) : List (List ℕ) :=
  if _h : start < rowCount ∧ 0 < chunk then
    List.range' start (min (start + chunk) rowCount - start) ::
      chunkRanges chunk rowCount (min (start + chunk) rowCount)
  else []
termination_by rowCount - start

/-- The encoded rows of one chunk: all rows are prepared, their requests answered in one batch, and
the answers encoded. -/
def encodeChunk (prepare : ℕ → Except ε ((Fin N → SelectedDenominator K) × τ))
    (encode : (Fin N → SelectedDenominator K) → τ → Except ε (Fin M → ℕ))
    (mapBatchError : FieldBatchError → ε) (rows : List ℕ) : Except ε (List (Fin M → ℕ)) := do
  let prepared ← rows.mapM prepare
  let inverted ← (batchInvertSelected (prepared.map Prod.fst)).mapError mapBatchError
  (inverted.zip (prepared.map Prod.snd)).mapM (fun pair => encode pair.1 pair.2)

/-- The columns of all rows, chunk by chunk. -/
def selectedInverseColumns (chunk rowCount : ℕ)
    (prepare : ℕ → Except ε ((Fin N → SelectedDenominator K) × τ))
    (encode : (Fin N → SelectedDenominator K) → τ → Except ε (Fin M → ℕ))
    (mapBatchError : FieldBatchError → ε) : Except ε (Fin M → List ℕ) := do
  let encoded ← (chunkRanges chunk rowCount 0).mapM (encodeChunk prepare encode mapBatchError)
  pure (fun column => encoded.flatten.map (fun row => row column))

/-- The chunks cover the rows in order. -/
theorem flatten_chunkRanges {chunk : ℕ} (hchunk : 0 < chunk) (rowCount start : ℕ) :
    (chunkRanges chunk rowCount start).flatten = List.range' start (rowCount - start) := by
  fun_induction chunkRanges chunk rowCount start with
  | case1 start h ih =>
    have hlength : rowCount - start =
        (min (start + chunk) rowCount - start) + (rowCount - min (start + chunk) rowCount) := by
      omega
    rw [List.flatten_cons, ih, hlength, ← List.range'_append_1]
    congr 2
    omega
  | case2 start h =>
    have hge : rowCount ≤ start := by
      by_contra hlt
      exact h ⟨by omega, hchunk⟩
    rw [Nat.sub_eq_zero_of_le hge]
    rfl

/-- The encoding of one row: its requests answered on their own. -/
def encodeRow (prepare : ℕ → Except ε ((Fin N → SelectedDenominator K) × τ))
    (encode : (Fin N → SelectedDenominator K) → τ → Except ε (Fin M → ℕ)) (row : ℕ)
    (encoded : Fin M → ℕ) : Prop :=
  ∃ requests payload, prepare row = .ok (requests, payload) ∧
    (∀ entry, ¬ Unanswerable (requests entry)) ∧
    encode (fun entry => answer (requests entry)) payload = .ok encoded

/-- Rows that are prepared, answered and encoded one after the other. -/
theorem forall₂_encodeRow {prepare : ℕ → Except ε ((Fin N → SelectedDenominator K) × τ)}
    {encode : (Fin N → SelectedDenominator K) → τ → Except ε (Fin M → ℕ)} {rows : List ℕ}
    {prepared : List ((Fin N → SelectedDenominator K) × τ)} {encoded : List (Fin M → ℕ)}
    (hprepared : List.Forall₂ (fun row result => prepare row = .ok result) rows prepared)
    (hall : ∀ result ∈ prepared, ∀ entry, ¬ Unanswerable (result.1 entry))
    (hencoded : List.Forall₂ (fun result row =>
      encode (fun entry => answer (result.1 entry)) result.2 = .ok row) prepared encoded) :
    List.Forall₂ (encodeRow prepare encode) rows encoded := by
  induction hprepared generalizing encoded with
  | nil =>
    rw [List.forall₂_nil_left_iff.mp hencoded]
    exact List.Forall₂.nil
  | @cons row result rows prepared hrow _ ih =>
    obtain ⟨code, codes, hcode, hcodes, rfl⟩ := List.forall₂_cons_left_iff.mp hencoded
    refine List.Forall₂.cons ⟨result.1, result.2, hrow, hall result List.mem_cons_self, hcode⟩ ?_
    exact ih (fun other hother => hall other (List.mem_cons_of_mem _ hother)) hcodes

/-- A chunk that encodes answers every request of its rows. -/
theorem encodeChunk_ok {prepare : ℕ → Except ε ((Fin N → SelectedDenominator K) × τ)}
    {encode : (Fin N → SelectedDenominator K) → τ → Except ε (Fin M → ℕ)}
    {mapBatchError : FieldBatchError → ε} {rows : List ℕ} {encoded : List (Fin M → ℕ)}
    (h : encodeChunk prepare encode mapBatchError rows = .ok encoded) :
    List.Forall₂ (encodeRow prepare encode) rows encoded := by
  rw [encodeChunk] at h
  cases hprepared : rows.mapM prepare with
  | error error =>
    rw [hprepared] at h
    cases h
  | ok prepared =>
    rw [hprepared] at h
    change ((batchInvertSelected (prepared.map Prod.fst)).mapError mapBatchError >>= fun inverted =>
      (inverted.zip (prepared.map Prod.snd)).mapM (fun pair => encode pair.1 pair.2)) = _ at h
    by_cases hall : ∀ row ∈ prepared.map Prod.fst, ∀ entry, ¬ Unanswerable (row entry)
    · rw [batchInvertSelected_eq hall, List.map_map] at h
      change ((prepared.map ((fun row entry => answer (row entry)) ∘ Prod.fst)).zip
        (prepared.map Prod.snd)).mapM (fun pair => encode pair.1 pair.2) = _ at h
      rw [List.zip_map', Except.mapM_eq_ok, List.forall₂_map_left_iff] at h
      exact forall₂_encodeRow (Except.mapM_eq_ok.mp hprepared)
        (fun result hresult => hall result.1 (List.mem_map_of_mem hresult)) h
    · push Not at hall
      rw [batchInvertSelected_error hall] at h
      cases h

/-- Columns that are built hold, row by row, the encoded answers to the requests of that row. -/
theorem selectedInverseColumns_ok {chunk rowCount : ℕ} (hchunk : 0 < chunk)
    {prepare : ℕ → Except ε ((Fin N → SelectedDenominator K) × τ)}
    {encode : (Fin N → SelectedDenominator K) → τ → Except ε (Fin M → ℕ)}
    {mapBatchError : FieldBatchError → ε} {columns : Fin M → List ℕ}
    (h : selectedInverseColumns chunk rowCount prepare encode mapBatchError = .ok columns) :
    ∃ encoded : List (Fin M → ℕ),
      List.Forall₂ (encodeRow prepare encode) (List.range rowCount) encoded ∧
        columns = fun column => encoded.map (fun row => row column) := by
  rw [selectedInverseColumns] at h
  cases hchunks : (chunkRanges chunk rowCount 0).mapM (encodeChunk prepare encode mapBatchError) with
  | error error =>
    rw [hchunks] at h
    cases h
  | ok encoded =>
    rw [hchunks] at h
    refine ⟨encoded.flatten, ?_, (Except.ok.inj h).symm⟩
    have hall := Except.mapM_eq_ok.mp hchunks
    have hflat : List.Forall₂ (encodeRow prepare encode) (chunkRanges chunk rowCount 0).flatten
        encoded.flatten :=
      List.rel_flatten (hall.imp fun rows codes hcodes => encodeChunk_ok hcodes)
    rwa [flatten_chunkRanges hchunk, Nat.sub_zero, ← List.range_eq_range'] at hflat

section Complete

variable {prepare : ℕ → Except ε ((Fin N → SelectedDenominator K) × τ)}
  {encode : (Fin N → SelectedDenominator K) → τ → Except ε (Fin M → ℕ)}
  {requests : ℕ → Fin N → SelectedDenominator K} {payload : ℕ → τ} {encoded : ℕ → Fin M → ℕ}

omit [Field K] [DecidableEq K] in
theorem mapM_eq_ok {α β : Type} {f : α → Except ε β} {g : α → β} {list : List α}
    (h : ∀ a ∈ list, f a = .ok (g a)) : list.mapM f = .ok (list.map g) := by
  rw [Except.mapM_eq_ok, List.forall₂_map_right_iff, List.forall₂_same]
  exact h

/-- A chunk whose rows can all be answered and encoded. -/
theorem encodeChunk_eq {rows : List ℕ} (mapBatchError : FieldBatchError → ε)
    (hprepare : ∀ row ∈ rows, prepare row = .ok (requests row, payload row))
    (hall : ∀ row ∈ rows, ∀ entry, ¬ Unanswerable (requests row entry))
    (hencode : ∀ row ∈ rows,
      encode (fun entry => answer (requests row entry)) (payload row) = .ok (encoded row)) :
    encodeChunk prepare encode mapBatchError rows = .ok (rows.map encoded) := by
  have hrequests : ∀ row ∈ (rows.map (fun row => (requests row, payload row))).map Prod.fst,
      ∀ entry, ¬ Unanswerable (row entry) := by
    intro row hrow
    rw [List.map_map] at hrow
    obtain ⟨index, hindex, rfl⟩ := List.mem_map.mp hrow
    exact hall index hindex
  rw [encodeChunk, mapM_eq_ok hprepare]
  change ((batchInvertSelected ((rows.map (fun row => (requests row, payload row))).map
      Prod.fst)).mapError mapBatchError >>= fun inverted =>
    (inverted.zip ((rows.map (fun row => (requests row, payload row))).map Prod.snd)).mapM
      (fun pair => encode pair.1 pair.2)) = _
  rw [batchInvertSelected_eq hrequests, List.map_map, List.map_map, List.map_map]
  change ((rows.map (fun row entry => answer (requests row entry))).zip
    (rows.map payload)).mapM (fun pair => encode pair.1 pair.2) = _
  rw [List.zip_map', Except.mapM_eq_ok, List.forall₂_map_left_iff, List.forall₂_map_right_iff,
    List.forall₂_same]
  exact hencode

/-- Columns of rows that can all be answered and encoded. -/
theorem selectedInverseColumns_eq {chunk rowCount : ℕ} (hchunk : 0 < chunk)
    (mapBatchError : FieldBatchError → ε)
    (hprepare : ∀ row < rowCount, prepare row = .ok (requests row, payload row))
    (hall : ∀ row < rowCount, ∀ entry, ¬ Unanswerable (requests row entry))
    (hencode : ∀ row < rowCount,
      encode (fun entry => answer (requests row entry)) (payload row) = .ok (encoded row)) :
    selectedInverseColumns chunk rowCount prepare encode mapBatchError =
      .ok (fun column => (List.range rowCount).map (fun row => encoded row column)) := by
  have hrows : ∀ rows ∈ chunkRanges chunk rowCount 0, ∀ row ∈ rows, row < rowCount := by
    intro rows hmem row hrow
    have hflat : row ∈ (chunkRanges chunk rowCount 0).flatten := List.mem_flatten_of_mem hmem hrow
    rw [flatten_chunkRanges hchunk, List.mem_range'_1] at hflat
    omega
  have hchunks : (chunkRanges chunk rowCount 0).mapM (encodeChunk prepare encode mapBatchError) =
      .ok ((chunkRanges chunk rowCount 0).map (List.map encoded)) :=
    mapM_eq_ok (fun rows hmem => encodeChunk_eq mapBatchError
      (fun row hrow => hprepare row (hrows rows hmem row hrow))
      (fun row hrow => hall row (hrows rows hmem row hrow))
      (fun row hrow => hencode row (hrows rows hmem row hrow)))
  rw [selectedInverseColumns, hchunks]
  refine congrArg Except.ok (funext (fun column => ?_))
  rw [← List.map_flatten, flatten_chunkRanges hchunk, Nat.sub_zero, ← List.range_eq_range',
    List.map_map]
  rfl

end Complete

theorem chunkRanges_zero (chunk : ℕ) : chunkRanges chunk 0 0 = [] := by
  rw [chunkRanges, dif_neg (fun hlt => absurd hlt.1 (lt_irrefl 0))]

omit [Field K] [DecidableEq K] in
/-- A list of computations that all succeed or fail with one error. -/
theorem mapM_eq_error {α β : Type} {f : α → Except ε β} {error : ε} {list : List α}
    (h : ∀ a ∈ list, (∃ b, f a = .ok b) ∨ f a = .error error) (hsome : ∃ a ∈ list, f a = .error error) :
    list.mapM f = .error error := by
  induction list with
  | nil => simp at hsome
  | cons head rest ih =>
    rw [List.mapM_cons]
    obtain ⟨value, hhead⟩ | hhead := h head List.mem_cons_self
    · have hrest : ∃ a ∈ rest, f a = .error error := by
        obtain ⟨a, hmem, ha⟩ := hsome
        obtain rfl | hmem := List.mem_cons.mp hmem
        · rw [hhead] at ha
          cases ha
        · exact ⟨a, hmem, ha⟩
      rw [hhead, ih (fun a hmem => h a (List.mem_cons_of_mem _ hmem)) hrest]
      rfl
    · rw [hhead]
      rfl

section Exact

variable {prepare : ℕ → Except ε ((Fin N → SelectedDenominator K) × τ)}
  {requests : ℕ → Fin N → SelectedDenominator K} {payload : ℕ → τ}
  {code : (Fin N → SelectedDenominator K) → τ → Fin M → ℕ}

/-- A chunk with an unanswerable request fails, if nothing else can fail. -/
theorem encodeChunk_error {rows : List ℕ} (mapBatchError : FieldBatchError → ε)
    (hprepare : ∀ row ∈ rows, prepare row = .ok (requests row, payload row))
    (hsome : ∃ row ∈ rows, ∃ entry, Unanswerable (requests row entry)) :
    encodeChunk prepare (fun answers payload => .ok (code answers payload)) mapBatchError rows =
      .error (mapBatchError .zeroDenominator) := by
  obtain ⟨row, hrow, hentry⟩ := hsome
  rw [encodeChunk, mapM_eq_ok hprepare]
  change ((batchInvertSelected ((rows.map (fun row => (requests row, payload row))).map
      Prod.fst)).mapError mapBatchError >>= fun inverted =>
    (inverted.zip ((rows.map (fun row => (requests row, payload row))).map Prod.snd)).mapM
      (fun pair => .ok (code pair.1 pair.2))) = _
  have hfirst : (rows.map (fun row => (requests row, payload row))).map Prod.fst =
      rows.map requests := List.map_map
  rw [hfirst, batchInvertSelected_error ⟨requests row, List.mem_map_of_mem hrow, hentry⟩]
  rfl

/-- Columns where only the inversion can fail: those of the answers, unless a request is
unanswerable. -/
theorem selectedInverseColumns_requests {chunk rowCount : ℕ} (hchunk : 0 < chunk)
    (mapBatchError : FieldBatchError → ε)
    (hprepare : ∀ row < rowCount, prepare row = .ok (requests row, payload row)) :
    selectedInverseColumns chunk rowCount prepare
        (fun answers payload => .ok (code answers payload)) mapBatchError =
      if ∃ row < rowCount, ∃ entry, Unanswerable (requests row entry) then
        .error (mapBatchError .zeroDenominator)
      else .ok (fun column => (List.range rowCount).map (fun row =>
        code (fun entry => answer (requests row entry)) (payload row) column)) := by
  have hflat := flatten_chunkRanges hchunk rowCount 0
  rw [Nat.sub_zero, ← List.range_eq_range'] at hflat
  have hrows (rows : List ℕ) (hmem : rows ∈ chunkRanges chunk rowCount 0) (row : ℕ)
      (hrow : row ∈ rows) : prepare row = .ok (requests row, payload row) :=
    hprepare row (List.mem_range.mp (hflat ▸ List.mem_flatten_of_mem hmem hrow))
  split_ifs with hsome
  · obtain ⟨row, hrow, hentry⟩ := hsome
    obtain ⟨rows, hmem, hinside⟩ := List.mem_flatten.mp (hflat ▸ List.mem_range.mpr hrow)
    have hchunks : (chunkRanges chunk rowCount 0).mapM (encodeChunk prepare
        (fun answers payload => .ok (code answers payload)) mapBatchError) =
        .error (mapBatchError .zeroDenominator) := by
      refine mapM_eq_error (fun rows hmem => ?_) ⟨rows, hmem,
        encodeChunk_error mapBatchError (hrows rows hmem) ⟨row, hinside, hentry⟩⟩
      by_cases hbad : ∃ row ∈ rows, ∃ entry, Unanswerable (requests row entry)
      · exact .inr (encodeChunk_error mapBatchError (hrows rows hmem) hbad)
      · push Not at hbad
        exact .inl ⟨_, encodeChunk_eq mapBatchError (hrows rows hmem) hbad (fun _ _ => rfl)⟩
    rw [selectedInverseColumns, hchunks]
    rfl
  · push Not at hsome
    exact selectedInverseColumns_eq hchunk mapBatchError hprepare hsome (fun _ _ => rfl)

end Exact

/-- Columns that one chunk size builds are built by every other one. -/
theorem selectedInverseColumns_chunk {chunk chunk' rowCount : ℕ} (hchunk : 0 < chunk)
    (hchunk' : 0 < chunk') {prepare : ℕ → Except ε ((Fin N → SelectedDenominator K) × τ)}
    {encode : (Fin N → SelectedDenominator K) → τ → Except ε (Fin M → ℕ)}
    {mapBatchError : FieldBatchError → ε} {columns : Fin M → List ℕ}
    (h : selectedInverseColumns chunk rowCount prepare encode mapBatchError = .ok columns) :
    selectedInverseColumns chunk' rowCount prepare encode mapBatchError = .ok columns := by
  obtain ⟨encoded, hencoded, rfl⟩ := selectedInverseColumns_ok hchunk h
  have hlength := hencoded.length_eq
  rw [List.length_range] at hlength
  have hencode (row : ℕ) (hrow : row < rowCount) :
      ∃ code, encoded[row]? = some code ∧ encodeRow prepare encode row code := by
    have hget := hencoded.get (by rwa [List.length_range]) (hlength ▸ hrow)
    refine ⟨_, List.getElem?_eq_getElem (hlength ▸ hrow), ?_⟩
    rwa [List.get_eq_getElem, List.getElem_range] at hget
  obtain rfl | hpos := Nat.eq_zero_or_pos rowCount
  · obtain rfl := List.length_eq_zero_iff.mp hlength.symm
    rw [selectedInverseColumns, chunkRanges_zero]
    rfl
  · have hrows (row : ℕ) : ∃ requests payload code, row < rowCount →
        encoded[row]? = some code ∧ prepare row = .ok (requests, payload) ∧
        (∀ entry, ¬ Unanswerable (requests entry)) ∧
        encode (fun entry => answer (requests entry)) payload = .ok code := by
      by_cases hrow : row < rowCount
      · obtain ⟨code, hcode, requests, payload, hprepare, hall, hanswer⟩ := hencode row hrow
        exact ⟨requests, payload, code, fun _ => ⟨hcode, hprepare, hall, hanswer⟩⟩
      · obtain ⟨code, -, requests, payload, -⟩ := hencode 0 hpos
        exact ⟨requests, payload, code, fun hlt => absurd hlt hrow⟩
    choose requests payload code hspec using hrows
    rw [selectedInverseColumns_eq hchunk' mapBatchError (fun row hrow => (hspec row hrow).2.1)
      (fun row hrow => (hspec row hrow).2.2.1) (fun row hrow => (hspec row hrow).2.2.2)]
    have hcodes : (List.range rowCount).map code = encoded := by
      refine List.ext_getElem (by rw [List.length_map, List.length_range, hlength]) ?_
      intro row hleft hright
      rw [List.getElem_map, List.getElem_range]
      have hcode := (hspec row (hlength ▸ hright)).1
      rw [List.getElem?_eq_getElem hright] at hcode
      exact (Option.some.inj hcode).symm
    refine congrArg Except.ok (funext fun column => ?_)
    rw [← hcodes, List.map_map]
    rfl

end Columns

end FieldBatch

end Zksm83
