import Zksm83.Cpu.Relation
import Zksm83.Opening.Akita

/-!
# Selected openings

The prover evaluates the columns of the opened groups and opens those groups; the verifier checks
each opened group against the values that it claims. Read `selected_openings` last: accepted values
are evaluations of the committed columns, and what the prover builds is accepted. After `pcs.rs` and
`uniform/commitment.rs`.
-/

namespace Zksm83

namespace Pcs

open Sumcheck
open Multilinear (extension)

variable {F : Type} [Field F] [DecidableEq F] {akita : Akita F}

/-! ## Transcripts -/

section Transcript

variable {ε : Type}

def pushUsize (bytes : List Byte) (value : ℕ) : Except (PcsError ε) (List Byte) := do
  let value ← checked value
  return bytes ++ leBytes 8 value

def pushBytes (bytes value : List Byte) : Except (PcsError ε) (List Byte) := do
  let bytes ← pushUsize bytes value.length
  return bytes ++ value

/-- The bytes that a transcript of an opening is bound to. -/
def openingDescriptor (toBytesLe : F → List Byte) (layout : PcsLayout)
    (instanceDescriptor : List Byte) (point : List F) (openingIndex : ℕ) (rowDigest : List Byte) :
    Except (PcsError ε) (List Byte) := do
  let descriptor ← match layout.openingMode with
    | .paired => do
      let descriptor ← pushBytes instanceDescriptor (asciiBytes "zksm83/native-pcs-pair/v2")
      let descriptor ← pushBytes descriptor rowDigest
      pushUsize descriptor layout.groupsPerOpening
    | .independent => .ok instanceDescriptor
  let descriptor ← pushUsize descriptor openingIndex
  let descriptor ← pushUsize descriptor point.length
  return descriptor ++ point.flatMap toBytesLe

def openingTranscript (toBytesLe : F → List Byte) (layout : PcsLayout)
    (instanceDescriptor : List Byte) (point : List F) (openingIndex : ℕ) (rowDigest : List Byte)
    (side : TranscriptSide) : Except (PcsError ε) OpeningTranscript := do
  let descriptor ←
    openingDescriptor toBytesLe layout instanceDescriptor point openingIndex rowDigest
  return ⟨side, layout.openingDomain, descriptor⟩

/-- A part of a list by its bounds. -/
def slice {α : Type} (values : List α) (start stop : ℕ) : Except (PcsError ε) (List α) := do
  rejectIf (stop < start ∨ values.length < stop) .shape
  return (values.drop start).take (stop - start)

end Transcript

/-! ## Opened groups -/

variable (akita)

structure GroupOpeningProof where
  selection : akita.Selection
  openedValues : List F
  proof : akita.Proof

structure OpeningProof where
  groups : List (GroupOpeningProof akita)

variable {akita}

/-- The claims of some groups at a point. -/
def groupClaims (point : List F) (commitments : List akita.Group) (values : List (List F)) :
    Except (PcsError akita.Error) (List akita.Claims) :=
  (commitments.zip values).mapM (fun claim =>
    (akita.newClaims point claim.2 claim.1).mapError .akita)

def proveGroupBatch (layout : PcsLayout) (prover : PcsProverContext akita) (stack : akita.Stack)
    (commitments : List akita.Group) (batches : List (ProverBatch akita)) (point : List F)
    (values : List (List F)) (descriptor : List Byte) (openingIndex : ℕ) :
    Except (PcsError akita.Error) (GroupOpeningProof akita) := do
  rejectIf (commitments.length ≠ layout.groupsPerOpening ∨ commitments.length ≠ batches.length ∨
    batches.length ≠ values.length) .shape
  let claims ← groupClaims point commitments values
  let openingClaims ← (akita.fromGroups claims).mapError .akita
  let proverData ← (akita.fromCommittedClaims openingClaims (batches.map ProverBatch.hint)
    (batches.map ProverBatch.polynomials) prover.scheme).mapError .akita
  let selection := akita.selection proverData
  let transcript ← openingTranscript akita.toBytesLe layout descriptor point openingIndex
    (akita.rowDigest selection) .prover
  let proof ←
    (akita.batchedProve prover.scheme prover.setup proverData stack transcript).mapError .akita
  return { selection, openedValues := values.flatten, proof }

def verifyGroupBatch (layout : PcsLayout) (scheme : akita.Scheme)
    (verifierSetup : akita.VerifierSetup) (commitments : List akita.Group)
    (point logicalValues : List F) (descriptor : List Byte) (openingIndex : ℕ)
    (opening : GroupOpeningProof akita) : Except (PcsError akita.Error) Unit := do
  rejectIf (commitments.length ≠ layout.groupsPerOpening) .shape
  let firstGroup ← checked (openingIndex * layout.groupsPerOpening)
  let values ← (List.range layout.groupsPerOpening).mapM (fun offset => do
    let groupIndex ← checked (firstGroup + offset)
    paddedGroupValues layout logicalValues groupIndex)
  rejectIf (opening.openedValues ≠ values.flatten) .shape
  let claims ← groupClaims point commitments values
  let openingClaims ← (akita.fromGroups claims).mapError .akita
  let statement ← (akita.newStatement opening.selection openingClaims).mapError .akita
  let transcript ← openingTranscript akita.toBytesLe layout descriptor point openingIndex
    (akita.rowDigest opening.selection) .verifier
  (akita.batchedVerify scheme opening.proof verifierSetup transcript statement).mapError .akita

/-- The proof of one selected opening. -/
def proveOpening (layout : PcsLayout) (columns : CommittedColumns akita) (stack : akita.Stack)
    (point logicalValues : List F) (descriptor : List Byte) (openingIndex : ℕ) :
    Except (PcsError akita.Error) (GroupOpeningProof akita) := do
  let groupStart ← checked (openingIndex * layout.groupsPerOpening)
  let groupEnd ← checked (groupStart + layout.groupsPerOpening)
  let commitments ← slice columns.commitments.groups groupStart groupEnd
  let batches ← slice columns.batches groupStart groupEnd
  let values ← (List.range' groupStart (groupEnd - groupStart)).mapM
    (paddedGroupValues layout logicalValues)
  proveGroupBatch layout columns.context stack commitments batches point values descriptor
    openingIndex

/-- The verification of one selected opening. -/
def verifyOpening (layout : PcsLayout) (commitments : ColumnCommitments akita.Group)
    (scheme : akita.Scheme) (verifierSetup : akita.VerifierSetup) (point logicalValues : List F)
    (descriptor : List Byte) (openingIndex : ℕ) (opening : GroupOpeningProof akita) :
    Except (PcsError akita.Error) Unit := do
  let groupStart ← checked (openingIndex * layout.groupsPerOpening)
  let groupEnd ← checked (groupStart + layout.groupsPerOpening)
  let committedGroups ← slice commitments.groups groupStart groupEnd
  verifyGroupBatch layout scheme verifierSetup committedGroups point logicalValues descriptor
    openingIndex opening

def proveSelectedOpeningWithBackend (layout : PcsLayout) (columns : CommittedColumns akita)
    (point logicalValues : List F) (selectedColumns : List ℕ) (instanceDescriptor : List Byte) :
    Except (PcsError akita.Error) (OpeningProof akita) := do
  let openingIndices ←
    selectedOpeningIndices akita.groupLayout layout columns.commitments selectedColumns
  validateSelectedOpeningShape akita.groupLayout layout columns.commitments point logicalValues
    openingIndices openingIndices.length
  rejectIf (columns.context.layout ≠ layout) .shape
  let stack ← columns.context.stack
  let groups ← openingIndices.mapM
    (proveOpening layout columns stack point logicalValues instanceDescriptor)
  return ⟨groups⟩

def verifySelectedOpeningWithBackend (layout : PcsLayout)
    (commitments : ColumnCommitments akita.Group) (point logicalValues : List F)
    (selectedColumns : List ℕ) (instanceDescriptor : List Byte) (opening : OpeningProof akita) :
    Except (PcsError akita.Error) Unit := do
  let openingIndices ← selectedOpeningIndices akita.groupLayout layout commitments selectedColumns
  validateSelectedOpeningShape akita.groupLayout layout commitments point logicalValues
    openingIndices opening.groups.length
  let (scheme, verifierSetup) ← verifierContext akita layout
  (openingIndices.zip opening.groups).forM (fun entry =>
    verifyOpening layout commitments scheme verifierSetup point logicalValues instanceDescriptor
      entry.1 entry.2)

/-! ## Openings of a witness -/

/-- The rows of a committed polynomial, without the padding of the backend. -/
def fieldRows (rowCount : ℕ) (polynomial : akita.Poly) : Except (PcsError akita.Error) (List F) :=
  slice (akita.fieldCoeffs polynomial) 0 rowCount

/-- The logical columns in the order of their commitment. -/
def fieldColumns (columns : CommittedColumns akita) :
    Except (PcsError akita.Error) (List (List F)) := do
  let layout := columns.context.layout
  columns.commitments.validate akita.groupLayout layout
  let rowCount ← layout.rowCount
  let physicalColumnCount ← checked
    (divCeil columns.commitments.logicalColumnCount layout.groupColumns * layout.groupColumns)
  let rows ← (columns.batches.flatMap ProverBatch.polynomials).mapM (fieldRows rowCount)
  rejectIf (columns.commitments.logicalColumnCount = 0 ∨ rows.length ≠ physicalColumnCount) .shape
  return rows.take columns.commitments.logicalColumnCount

/-- A column at a point, with its index. -/
def evaluateColumn {ε : Type} (columns : List (List F)) (point : List F) (index : ℕ) :
    Except (PcsError ε) (ℕ × F) := do
  let column ← someOr columns[index]? .shape
  let value ← (FieldFold.evaluateMle column point).mapError (fun _ => .shape)
  return (index, value)

/-- Stores a value at its index. -/
def storeValue {ε : Type} (values : List F) (entry : ℕ × F) :
    Except (PcsError ε) (List F) := do
  rejectIf (values.length ≤ entry.1) .shape
  return values.set entry.1 entry.2

def proveSelectedOpening (witness : CommittedColumns akita) (point : List F)
    (selectedColumns : List ℕ) (instanceDescriptor : List Byte) :
    Except (PcsError akita.Error) (List F × OpeningProof akita) := do
  let layout := witness.context.layout
  let columns ← fieldColumns witness
  let selected ←
    selectedLogicalColumns akita.groupLayout layout witness.commitments selectedColumns
  let evaluated ← selected.mapM (evaluateColumn columns point)
  let values ← evaluated.foldlM storeValue
    (List.replicate witness.commitments.logicalColumnCount (0 : F))
  let opening ← proveSelectedOpeningWithBackend layout witness point values selectedColumns
    instanceDescriptor
  return (values, opening)

/-! ## Protocol layouts -/

/-- Columns of the one-transition trace. -/
abbrev nativeTraceColumnCount : ℕ := 3281

/-- The two traces are opened in pairs of groups, every other witness group by group; the schedule
artifacts are files. -/
def layoutFor (pairArtifact singleArtifact : List Byte) (columnCount : ℕ) : PcsLayout :=
  let commitmentDomain := asciiBytes "zksm83/native-witness-commitments/v2"
  let openingDomain := asciiBytes "zksm83-native-shared-opening/v2"
  if columnCount = BlockCpu.columnCount ∨ columnCount = nativeTraceColumnCount then
    ⟨14, 128, pairArtifact, commitmentDomain, openingDomain, .paired⟩
  else ⟨14, 128, singleArtifact, commitmentDomain, openingDomain, .independent⟩

/-- The verification of an opening of a witness under the layout of its protocol. -/
def verifySelectedOpening (pairArtifact singleArtifact : List Byte)
    (commitments : ColumnCommitments akita.Group) (point logicalValues : List F)
    (selectedColumns : List ℕ) (instanceDescriptor : List Byte) (opening : OpeningProof akita) :
    Except (PcsError akita.Error) Unit :=
  verifySelectedOpeningWithBackend
    (layoutFor pairArtifact singleArtifact commitments.logicalColumnCount) commitments point
    logicalValues selectedColumns instanceDescriptor opening

/-! ## Accepted openings -/

/-- The columns behind a group of commitments, and the value of each at a point. -/
def evaluations (point : List F) (tables : List (List F)) : List F :=
  tables.map (fun table => extension point (tableOf table))

/-- Akita accepts true claims only: every claimed group of values is that of the columns behind its
commitment. -/
def Akita.Sound (akita : Akita F) (layout : PcsLayout)
    (committed : akita.Group → List (List F)) : Prop :=
  ∀ {scheme verifierSetup commitments point values claims openingClaims selection statement
      transcript proof},
    verifierContext akita layout = .ok (scheme, verifierSetup) →
    groupClaims point commitments values = .ok claims →
    akita.fromGroups claims = .ok openingClaims →
    akita.newStatement selection openingClaims = .ok statement →
    akita.batchedVerify scheme proof verifierSetup transcript statement = .ok () →
    ∀ claim ∈ commitments.zip values, claim.2 = evaluations point (committed claim.1)

theorem slice_eq_ok {α ε : Type} {values part : List α} {start stop : ℕ}
    (hpart : slice values start stop = (.ok part : Except (PcsError ε) (List α))) :
    part.length = stop - start ∧
      ∀ offset < stop - start, part[offset]? = values[start + offset]? := by
  obtain ⟨hbounds, hpart⟩ := Except.check_eq_ok.mp hpart
  have hstop := rejectIf_eq_ok.mp hbounds
  obtain rfl := Except.ok.inj hpart
  refine ⟨by rw [List.length_take, List.length_drop]; omega, fun offset hoffset => ?_⟩
  rw [List.getElem?_take_of_lt hoffset, List.getElem?_drop]

/-- An accepted group of claims is that of the columns behind its commitments. -/
theorem verifyGroupBatch_sound {layout : PcsLayout} {committed : akita.Group → List (List F)}
    (hsound : akita.Sound layout committed) {groups : List akita.Group} {scheme : akita.Scheme}
    {verifierSetup : akita.VerifierSetup} {point logicalValues : List F} {descriptor : List Byte}
    {openingIndex : ℕ} {opening : GroupOpeningProof akita}
    (hsetup : verifierContext akita layout = .ok (scheme, verifierSetup))
    (haccept : verifyGroupBatch layout scheme verifierSetup groups point logicalValues descriptor
      openingIndex opening = .ok ()) {offset : ℕ} (hoffset : offset < layout.groupsPerOpening) :
    ∃ group, groups[offset]? = some group ∧
      paddedGroupValues layout logicalValues (openingIndex * layout.groupsPerOpening + offset) =
        (.ok (evaluations point (committed group)) : Except (PcsError akita.Error) (List F)) := by
  unfold verifyGroupBatch at haccept
  obtain ⟨hcount, haccept⟩ := Except.check_eq_ok.mp haccept
  obtain ⟨firstGroup, hfirst, haccept⟩ := Except.of_bind_eq_ok haccept
  obtain ⟨-, rfl⟩ := checked_eq_ok.mp hfirst
  obtain ⟨values, hvalues, haccept⟩ := Except.of_bind_eq_ok haccept
  obtain ⟨-, haccept⟩ := Except.check_eq_ok.mp haccept
  obtain ⟨claims, hclaims, haccept⟩ := Except.of_bind_eq_ok haccept
  obtain ⟨openingClaims, hopening, haccept⟩ := Except.of_bind_eq_ok haccept
  obtain ⟨statement, hstatement, haccept⟩ := Except.of_bind_eq_ok haccept
  obtain ⟨transcript, -, haccept⟩ := Except.of_bind_eq_ok haccept
  have hgroups := not_not.mp (rejectIf_eq_ok.mp hcount)
  have hclaim := hsound hsetup hclaims (Except.mapError_eq_ok.mp hopening)
    (Except.mapError_eq_ok.mp hstatement) (Except.mapError_eq_ok.mp haccept)
  -- the claim at this offset is the pair of its group and the padded values of that group
  have hentries := Except.mapM_eq_ok.mp hvalues
  have hlength : values.length = layout.groupsPerOpening := by
    rw [← hentries.length_eq, List.length_range]
  have hgroup : offset < groups.length := hgroups.symm ▸ hoffset
  have hvalue : offset < values.length := hlength.symm ▸ hoffset
  have hpair : (groups[offset], values[offset]) ∈ groups.zip values := by
    rw [← List.getElem_zip (h := by rw [List.length_zip]; omega)]
    exact List.getElem_mem _
  have hpadded := hentries.get (i := offset) (by rwa [List.length_range]) hvalue
  rw [List.get_eq_getElem, List.get_eq_getElem, List.getElem_range] at hpadded
  obtain ⟨groupIndex, hindex, hpadded⟩ := Except.of_bind_eq_ok hpadded
  obtain ⟨-, rfl⟩ := checked_eq_ok.mp hindex
  have hequal : values[offset] = evaluations point (committed groups[offset]) := hclaim _ hpair
  exact ⟨groups[offset], List.getElem?_eq_getElem hgroup,
    hpadded.trans (congrArg Except.ok hequal)⟩

/-- An accepted opening is that of the groups from its own place on. -/
theorem verifyOpening_sound {layout : PcsLayout} {committed : akita.Group → List (List F)}
    (hsound : akita.Sound layout committed) {commitments : ColumnCommitments akita.Group}
    {scheme : akita.Scheme} {verifierSetup : akita.VerifierSetup} {point logicalValues : List F}
    {descriptor : List Byte} {openingIndex : ℕ} {opening : GroupOpeningProof akita}
    (hsetup : verifierContext akita layout = .ok (scheme, verifierSetup))
    (haccept : verifyOpening layout commitments scheme verifierSetup point logicalValues descriptor
      openingIndex opening = .ok ()) {offset : ℕ} (hoffset : offset < layout.groupsPerOpening) :
    ∃ group, commitments.groups[openingIndex * layout.groupsPerOpening + offset]? = some group ∧
      paddedGroupValues layout logicalValues (openingIndex * layout.groupsPerOpening + offset) =
        (.ok (evaluations point (committed group)) : Except (PcsError akita.Error) (List F)) := by
  unfold verifyOpening at haccept
  obtain ⟨groupStart, hstart, haccept⟩ := Except.of_bind_eq_ok haccept
  obtain ⟨-, rfl⟩ := checked_eq_ok.mp hstart
  obtain ⟨groupEnd, hend, haccept⟩ := Except.of_bind_eq_ok haccept
  obtain ⟨-, rfl⟩ := checked_eq_ok.mp hend
  obtain ⟨committedGroups, hslice, haccept⟩ := Except.of_bind_eq_ok haccept
  obtain ⟨group, hget, hpadded⟩ := verifyGroupBatch_sound hsound hsetup haccept hoffset
  exact ⟨group, by rw [← (slice_eq_ok hslice).2 offset (by omega)]; exact hget, hpadded⟩

/-- The table behind a logical column: the column at its place in the group that holds it. -/
def committedColumn (committed : akita.Group → List (List F)) (layout : PcsLayout)
    (commitments : ColumnCommitments akita.Group) (column : ℕ) : Option (List F) := do
  let group ← commitments.groups[column / layout.groupColumns]?
  (committed group)[column % layout.groupColumns]?

/-- Accepted values are true at every selected column and zero outside the opened groups. -/
theorem verifySelectedOpening_sound {layout : PcsLayout} {committed : akita.Group → List (List F)}
    (hsound : akita.Sound layout committed) {commitments : ColumnCommitments akita.Group}
    {point logicalValues : List F} {selectedColumns : List ℕ} {descriptor : List Byte}
    {opening : OpeningProof akita}
    (haccept : verifySelectedOpeningWithBackend layout commitments point logicalValues
      selectedColumns descriptor opening = .ok ()) :
    logicalValues.length = commitments.logicalColumnCount ∧
      (∀ column ∈ selectedColumns, ∃ table,
        committedColumn committed layout commitments column = some table ∧
          logicalValues[column]? = some (extension point (tableOf table))) ∧
      ∀ column < commitments.logicalColumnCount,
        (∀ selected ∈ selectedColumns, selected / (layout.groupColumns * layout.groupsPerOpening) ≠
          column / (layout.groupColumns * layout.groupsPerOpening)) →
        logicalValues[column]? = some 0 := by
  unfold verifySelectedOpeningWithBackend at haccept
  obtain ⟨openingIndices, hselected, haccept⟩ := Except.of_bind_eq_ok haccept
  obtain ⟨hshape, haccept⟩ := Except.check_eq_ok.mp haccept
  obtain ⟨⟨scheme, verifierSetup⟩, hsetup, haccept⟩ := Except.of_bind_eq_ok haccept
  have hopens := Opens.of_selected hselected
  have hshape := SelectedShape.of_validate hshape
  refine ⟨hshape.values, fun column hcolumn => ?_, fun column hcolumn hunselected => ?_⟩
  · have hrange := hopens.selected column hcolumn
    have hindex := (hopens.mem _).mpr ⟨column, hcolumn, rfl⟩
    obtain ⟨position, hposition, heq⟩ := List.getElem_of_mem hindex
    have hopening : position < opening.groups.length := hshape.openings.symm ▸ hposition
    have hverify := Except.forM_eq_ok.mp haccept
      (openingIndices[position], opening.groups[position]) (by
        rw [← List.getElem_zip (h := by rw [List.length_zip]; omega)]
        exact List.getElem_mem _)
    simp only [heq] at hverify
    -- the group of the column is one of those of its opening
    have hgroup : column / (layout.groupColumns * layout.groupsPerOpening) *
        layout.groupsPerOpening + column / layout.groupColumns % layout.groupsPerOpening =
        column / layout.groupColumns := by
      rw [← Nat.div_div_eq_div_mul, Nat.div_add_mod']
    obtain ⟨group, hget, hpadded⟩ := verifyOpening_sound hsound hsetup hverify
      (Nat.mod_lt (column / layout.groupColumns) layout.groupsPerOpening_pos)
    rw [hgroup] at hget hpadded
    have hplace := Nat.mod_lt column hshape.valid.groupColumns_pos
    have hentry := (paddedGroupValues_eq_ok hpadded).2 _ hplace
    rw [evaluations, List.getElem?_map, Nat.div_add_mod'] at hentry
    obtain ⟨table, htable, hvalue⟩ := Option.map_eq_some_iff.mp hentry
    refine ⟨table, ?_, ?_⟩
    · rw [committedColumn, hget]
      exact htable
    · rw [hvalue, List.getElem?_eq_getElem (hrange.trans_eq hshape.values.symm),
        List.getElem_eq_getD 0]
  · refine hshape.zero column hcolumn fun hmem => ?_
    obtain ⟨selected, hmem, heq⟩ := (hopens.mem _).mp hmem
    exact hunselected selected hmem heq

end Pcs

end Zksm83
