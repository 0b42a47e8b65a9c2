import Mathlib.Data.List.Dedup
import Zksm83.Library.TableLookup
import Zksm83.Opening.Whole
import Zksm83.Sumcheck.Sparse
import Zksm83.Sumcheck.SharedFirst
import Zksm83.Sumcheck.Zerocheck

/-!
# Columns of a lookup

What the lookups into the ROM, the ISA table and the execution tables share: their errors and
challenges, how they read columns, and how an address is read from columns of bits. After the helper
functions of `rom_lookup.rs`, `isa_lookup.rs` and `execution_lookup/proof.rs`.
-/

namespace Zksm83

open Finset Sumcheck SumOfProductsSumcheck
open Multilinear (extension weight)

/-- Why a lookup fails. The three lookups share these errors. -/
inductive LookupError where
  | invalidRomLength
  | invalidColumnLayout
  | nonBoolean
  | addressOutOfRange
  | shape
  | tableCommitmentMismatch
  | outputClaimMismatch
  | tableOpeningMismatch
  | tableTerminalMismatch
  | addressBindingMismatch
  | zeroChallenge
  | sumcheck
  | fieldFold (error : FieldFoldError)
  | pcs
  | sharedOpening
  deriving DecidableEq, Repr

namespace Shout

def ofSumcheckError : ProductSumcheckError → LookupError
  | .fieldFold error => .fieldFold error
  | _ => .sumcheck

/-! ## Column layouts -/

/-- Indices of columns that are out of range or occur twice are refused. After sorting, equal
indices are neighbours. -/
def validateIndices (indices : List ℕ) (columnCount : ℕ) : Except LookupError Unit :=
  rejectIf ((∃ index ∈ indices, columnCount ≤ index) ∨ ¬ indices.Nodup) .invalidColumnLayout

/-- The indices in order, each once; none may have been dropped. -/
def canonicalSelectedColumns (columns : List ℕ) (expected : ℕ) : Except LookupError (List ℕ) := do
  let sorted := (columns.mergeSort (fun left right => decide (left ≤ right))).dedup
  rejectIf (sorted.length ≠ expected) .invalidColumnLayout
  return sorted

theorem canonicalSelectedColumns_eq_ok {columns sorted : List ℕ} {expected : ℕ}
    (hsorted : canonicalSelectedColumns columns expected = .ok sorted) (column : ℕ) :
    column ∈ sorted ↔ column ∈ columns := by
  obtain ⟨-, hsorted⟩ := Except.check_eq_ok.mp hsorted
  obtain rfl := Except.ok.inj hsorted
  rw [List.mem_dedup, List.mem_mergeSort]

variable {F : Type} [Field F] [DecidableEq F]

/-! ## Columns -/

/-- A column, which must have the given number of rows. -/
def column (columns : List (List F)) (index rowCount : ℕ) : Except LookupError (List F) := do
  let column ← someOr columns[index]? .shape
  rejectIf (column.length ≠ rowCount) .shape
  return column

def firstRowCount (columns : List (List F)) : Except LookupError ℕ := do
  let column ← someOr columns.head? .shape
  return column.length

def traceValue (values : List F) (index : ℕ) : Except LookupError F :=
  someOr values[index]? .shape

def requireBoolean (value : F) : Except LookupError Unit :=
  rejectIf (value ≠ 0 ∧ value ≠ 1) .nonBoolean

/-- A column of bits is added to the addresses. -/
def setAddressBit (update : ℕ → ℕ → Except LookupError ℕ) (bit : ℕ) (addresses : List ℕ)
    (values : List F) : Except LookupError (List ℕ) :=
  (addresses.zip values).mapM (fun entry => do
    requireBoolean entry.2
    if entry.2 = 1 then update entry.1 bit else .ok entry.1)

/-- The addresses of all rows, from columns of bits, the lowest bit first. -/
def traceAddressesWith (update : ℕ → ℕ → Except LookupError ℕ) (columns : List (List F))
    (bits : List ℕ) (rowCount : ℕ) : Except LookupError (List ℕ) :=
  bits.zipIdx.foldlM (fun addresses entry => do
    let values ← column columns entry.1 rowCount
    setAddressBit update entry.2 addresses values) (List.replicate rowCount 0)

/-- A bit is set in an address. -/
def setBit (address bit : ℕ) : Except LookupError ℕ := .ok (address ||| 1 <<< bit)

/-- A bit is added to an address of 64 bits. -/
def checkedAddBit (address bit : ℕ) : Except LookupError ℕ := do
  rejectIf (64 ≤ bit) .addressOutOfRange
  rejectIf (2 ^ 64 ≤ address + 1 <<< bit) .addressOutOfRange
  return address + 1 <<< bit

/-- Columns are mixed with coefficients. -/
def mixEntries (columns : List (List F)) (rowCount : ℕ) (entries : List (ℕ × F)) :
    Except LookupError (List F) :=
  entries.foldlM (fun mixed entry => do
    let values ← column columns entry.1 rowCount
    return mixed.zipWith (fun target value => target + entry.2 * value) values)
    (List.replicate rowCount 0)

/-- Values of columns are mixed with coefficients. -/
def mixValues (values : List F) (entries : List (ℕ × F)) : Except LookupError F :=
  entries.foldlM (fun sum entry => do
    let value ← traceValue values entry.1
    return sum + entry.2 * value) 0

def evaluateMle (evaluations point : List F) : Except LookupError F :=
  (FieldFold.evaluateMle evaluations point).mapError (fun _ => .shape)

def evaluateColumns (columns : List (List F)) (point : List F) : Except LookupError (List F) :=
  columns.mapM (fun column => evaluateMle column point)

def equalityEvaluation (left right : List F) : Except LookupError F :=
  (Uniform.equalityEvaluation left right).mapError (fun _ => .shape)

/-- The equality polynomial of a bit and a coordinate. -/
def bitEquality (bit point : F) : F := bit * point + (1 - bit) * (1 - point)

/-! ## Challenges -/

/-- A fresh transcript is bound to a domain and to the bytes of the instance. Both sides start in
the same state. -/
structure LookupTranscript (F : Type) extends AkitaTranscript F where
  unbound : Pcs.TranscriptSide → List Byte → List Byte → State
  sides (domain bytes : List Byte) : unbound .prover domain bytes = unbound .verifier domain bytes

section Transcript

variable (transcript : AkitaTranscript F)

def nonzeroChallenge (label : List Byte) (state : transcript.State) :
    Except LookupError (F × transcript.State) := do
  let (challenge, state) := transcript.challengeScalar label state
  rejectIf (challenge = 0) .zeroChallenge
  return (challenge, state)

def samplePoint (label : List Byte) : ℕ → transcript.State → List F × transcript.State
  | 0, state => ([], state)
  | count + 1, state =>
    let (challenge, state) := transcript.challengeScalar label state
    let (point, state) := samplePoint label count state
    (challenge :: point, state)

omit [Field F] [DecidableEq F] in
theorem length_samplePoint (label : List Byte) (count : ℕ) (state : transcript.State) :
    (samplePoint transcript label count state).1.length = count := by
  induction count generalizing state with
  | zero => rfl
  | succ count ih => exact congrArg (· + 1) (ih _)

end Transcript

def challengePowers (challenge : F) (count : ℕ) : List F :=
  Uniform.constraintPowers count challenge

/-! ## Descriptors -/

/-- The canonical bytes of commitments, with the encoding of a group by the proof library. -/
def canonicalBytes {akita : Pcs.Akita F} (serialize : akita.Group → Except akita.Error (List Byte))
    (layout : Pcs.PcsLayout) (commitments : Pcs.ColumnCommitments akita.Group) :
    Except (Pcs.PcsError akita.Error) (List Byte) := do
  commitments.validate akita.groupLayout layout
  let bytes ← Pcs.pushBytes [] layout.commitmentDomain
  let bytes ← Pcs.pushUsize bytes commitments.numVariables
  let bytes ← Pcs.pushUsize bytes commitments.logicalColumnCount
  let bytes ← Pcs.pushUsize bytes commitments.groupColumns
  let bytes ← Pcs.pushUsize bytes commitments.groups.length
  commitments.groups.foldlM (fun bytes group => do
    let encoded ← (serialize group).mapError .akita
    Pcs.pushBytes bytes encoded) bytes

def pushUsize (bytes : List Byte) (value : ℕ) : Except LookupError (List Byte) :=
  (Pcs.pushUsize (ε := Unit) bytes value).mapError (fun _ => .shape)

def pushBytes (bytes value : List Byte) : Except LookupError (List Byte) :=
  (Pcs.pushBytes (ε := Unit) bytes value).mapError (fun _ => .shape)

def pushIndices (bytes : List Byte) (indices : List ℕ) : Except LookupError (List Byte) := do
  let bytes ← pushUsize bytes indices.length
  indices.foldlM pushUsize bytes

/-! ## Read values -/

omit [DecidableEq F] in
/-- Mixed values are the sum of the values with their coefficients. -/
theorem mixValues_eq_ok {values : List F} {entries : List (ℕ × F)} {result : F}
    (hmix : mixValues values entries = .ok result) :
    result = (entries.map (fun entry => entry.2 * values.getD entry.1 0)).sum := by
  suffices hfold : ∀ start : F, entries.foldlM (fun sum entry => do
      let value ← traceValue values entry.1
      return sum + entry.2 * value) start = (.ok result : Except LookupError F) →
      result = start + (entries.map (fun entry => entry.2 * values.getD entry.1 0)).sum by
    rw [hfold 0 hmix, zero_add]
  clear hmix
  induction entries with
  | nil =>
    intro start hnil
    rw [List.map_nil, List.sum_nil, add_zero, ← Except.ok.inj hnil]
  | cons entry entries ih =>
    intro start hcons
    rw [List.foldlM_cons] at hcons
    obtain ⟨sum, hstep, hrest⟩ := Except.of_bind_eq_ok hcons
    obtain ⟨value, hvalue, hsum⟩ := Except.of_bind_eq_ok hstep
    obtain rfl := Except.ok.inj hsum
    rw [ih _ hrest, List.map_cons, List.sum_cons, List.getD_eq_getElem?_getD,
      someOr_eq_ok.mp hvalue, Option.getD_some, add_assoc]

omit [DecidableEq F] in
theorem exists_mixValues {values : List F} {entries : List (ℕ × F)}
    (hentries : ∀ entry ∈ entries, entry.1 < values.length) :
    ∃ result, mixValues values entries = .ok result := by
  suffices hfold : ∀ start : F, ∃ result, entries.foldlM (fun sum entry => do
      let value ← traceValue values entry.1
      return sum + entry.2 * value) start = (.ok result : Except LookupError F) from hfold 0
  induction entries with
  | nil => exact fun start => ⟨start, rfl⟩
  | cons entry entries ih =>
    intro start
    obtain ⟨hentry, hrest⟩ := List.forall_mem_cons.mp hentries
    obtain ⟨result, hresult⟩ := ih hrest (start + entry.2 * values[entry.1])
    rw [List.foldlM_cons]
    exact ⟨result, Except.bind_eq_ok.mpr ⟨_, Except.bind_eq_ok.mpr
      ⟨_, someOr_eq_ok.mpr (List.getElem?_eq_getElem hentry), rfl⟩, hresult⟩⟩

omit [DecidableEq F] in
theorem evaluateColumns_eq_ok {columns : List (List F)} {point values : List F}
    (hvalues : evaluateColumns columns point = .ok values) :
    values = columns.map (fun column => extension point (tableOf column)) := by
  have hsteps := Except.mapM_eq_ok.mp hvalues
  clear hvalues
  induction hsteps with
  | nil => rfl
  | @cons column value columns values hfirst _ ih =>
    have hevaluated : Pcs.evaluateColumn (ε := Unit) [column] point 0 = .ok (0, value) :=
      Except.bind_eq_ok.mpr ⟨column, rfl, Except.bind_eq_ok.mpr
        ⟨value, Except.mapError_eq_ok.mpr (Except.mapError_eq_ok.mp hfirst), rfl⟩⟩
    have hvalue := congrArg Prod.snd (Pcs.evaluateColumn_eq_ok hevaluated)
    rw [List.map_cons, ← ih]
    exact congrArg (· :: values) hvalue

theorem setAddressBit_lt {bit : ℕ} {addresses addresses' : List ℕ} {values : List F}
    (hlt : ∀ address ∈ addresses, address < 2 ^ bit)
    (hset : setAddressBit setBit bit addresses values = .ok addresses') :
    ∀ address ∈ addresses', address < 2 ^ (bit + 1) := by
  intro address' haddress'
  obtain ⟨index, hindex, rfl⟩ := List.getElem_of_mem haddress'
  have hsteps := Except.mapM_eq_ok.mp hset
  have hzip : index < (addresses.zip values).length := hsteps.length_eq.symm ▸ hindex
  have hstep := hsteps.get hzip hindex
  have haddress : (addresses.zip values)[index].1 < 2 ^ bit :=
    hlt _ (List.of_mem_zip (List.getElem_mem hzip)).1
  have hdouble : 2 ^ bit < 2 ^ (bit + 1) := Nat.pow_lt_pow_right Nat.one_lt_two (Nat.lt_succ_self _)
  obtain ⟨-, hstep⟩ := Except.check_eq_ok.mp hstep
  simp only [List.get_eq_getElem] at hstep
  split at hstep
  · rw [← Except.ok.inj hstep, Nat.one_shiftLeft]
    exact Nat.or_lt_two_pow (haddress.trans hdouble) hdouble
  · rw [← Except.ok.inj hstep]
    exact haddress.trans hdouble

/-- Addresses are read from twenty bits. -/
theorem traceAddresses_lt {columns : List (List F)} {bits : List ℕ} {rowCount : ℕ}
    {addresses : List ℕ}
    (htrace : traceAddressesWith setBit columns bits rowCount = .ok addresses) :
    ∀ address ∈ addresses, address < 2 ^ bits.length := by
  suffices hfold : ∀ (first : ℕ) (start : List ℕ), (∀ address ∈ start, address < 2 ^ first) →
      (bits.zipIdx first).foldlM (fun addresses entry => do
        let values ← column columns entry.1 rowCount
        setAddressBit setBit entry.2 addresses values) start =
          (.ok addresses : Except LookupError (List ℕ)) →
      ∀ address ∈ addresses, address < 2 ^ (first + bits.length) by
    have hall := hfold 0 _ (fun address haddress => by
      rw [List.eq_of_mem_replicate haddress]
      exact Nat.one_pos) htrace
    rwa [Nat.zero_add] at hall
  clear htrace
  induction bits with
  | nil =>
    intro first start hstart hnil
    rwa [← Except.ok.inj hnil]
  | cons bit bits ih =>
    intro first start hstart hcons
    rw [List.zipIdx_cons, List.foldlM_cons] at hcons
    obtain ⟨next, hstep, hrest⟩ := Except.of_bind_eq_ok hcons
    obtain ⟨values, -, hset⟩ := Except.of_bind_eq_ok hstep
    rw [List.length_cons, Nat.add_comm bits.length, ← Nat.add_assoc]
    exact ih (first + 1) next (setAddressBit_lt hstart hset) hrest

/-! ## Committed columns -/

/-- The schedule artifacts, which are files. -/
structure ScheduleArtifacts where
  rom : List Byte
  isa : List Byte
  pair : List Byte
  single : List Byte

section Committed

variable {akita : Pcs.Akita F}

/-- The columns behind commitments, by their index and the row. -/
def committedTable (committed : akita.Group → List (List F)) (layout : Pcs.PcsLayout)
    (commitments : Pcs.ColumnCommitments akita.Group) (column row : ℕ) : F :=
  tableOf ((Pcs.committedColumn committed layout commitments column).getD []) row

/-- Accepted values are those of the committed columns. -/
theorem verifySelectedOpening_committed {committed : akita.Group → List (List F)}
    {artifacts : ScheduleArtifacts} {trace : Pcs.ColumnCommitments akita.Group}
    (hsound : akita.Sound
      (Pcs.layoutFor artifacts.pair artifacts.single trace.logicalColumnCount) committed)
    {point values : List F} {selected : List ℕ} {descriptor : List Byte}
    {opening : Pcs.OpeningProof akita}
    (haccept : Pcs.verifySelectedOpening artifacts.pair artifacts.single trace point values selected
      descriptor opening = .ok ()) {column : ℕ} (hcolumn : column ∈ selected) :
    values.getD column 0 = extension point (committedTable committed
      (Pcs.layoutFor artifacts.pair artifacts.single trace.logicalColumnCount) trace column) := by
  obtain ⟨table, htable, hvalue⟩ :=
    (Pcs.verifySelectedOpening_sound hsound haccept).2.1 column hcolumn
  rw [List.getD_eq_getElem?_getD, hvalue, Option.getD_some]
  unfold committedTable
  rw [htable, Option.getD_some]

end Committed

end Shout

end Zksm83
