import Zksm83.Argument.FieldFold
import Zksm83.Opening.Layout
import Zksm83.Sumcheck.EvaluationPaths

/-!
# Akita openings

Commitments, proofs and their verification come from a library: `Akita` lists what the code calls.
Over it stand the commitment of columns in groups, the opening of selected groups and its
verification. After `pcs.rs` and `uniform/commitment.rs`, whose errors keep the names of those of
`pcs.rs`.
-/

namespace Zksm83

namespace Pcs

/-- The row of a schedule catalog. -/
structure ScheduleRow (Schedule Profile : Type) where
  finalGroup : PolynomialGroupLayout
  precommitteds : List Profile
  schedule : Schedule

/-- The commitments that a new commitment comes after. -/
inductive GroupContext (Profile Precommitted : Type) where
  | withoutPrecommittedGroups
  | explicit (profile : Profile)
  | withPrecommittedGroups (precommitted : Precommitted)

inductive TranscriptSide where
  | prover
  | verifier
  deriving DecidableEq, Repr

/-- A fresh transcript bound to some bytes. -/
structure OpeningTranscript where
  side : TranscriptSide
  domain : List Byte
  instanceBytes : List Byte
  deriving DecidableEq, Repr

/-- What the code uses of Akita, over a field. -/
structure Akita (F : Type) where
  Error : Type
  Scheme : Type
  Schedule : Type
  Profile : Type
  Precommitted : Type
  Setup : Type
  Prepared : Type
  Stack : Type
  VerifierSetup : Type
  ClaimsLayout : Type
  Group : Type
  Hint : Type
  Poly : Type
  Claims : Type
  Opening : Type
  Data : Type
  Selection : Type
  Statement : Type
  Proof : Type
  fromScheduleArtifact : List Byte → Except Error Scheme
  rows : Scheme → List (ScheduleRow Schedule Profile)
  profileGroup : Profile → PolynomialGroupLayout
  setupProver : Scheme → ℕ → ℕ → Except Error Setup
  prepareSetup : Setup → Except Error Prepared
  stack : Prepared → Setup → Except Error Stack
  prewarm : PcsOpeningMode → Schedule → Stack → Except (PcsError Error) Unit
  claimsLayout : ℕ → List ℕ → Except Error ClaimsLayout
  setupVerifier : Scheme → Setup → Except Error VerifierSetup
  setupVerifierForSchedule :
    Scheme → Setup → Schedule → ClaimsLayout → Except Error VerifierSetup
  fromFieldEvals : ℕ → List F → Except Error Poly
  fieldCoeffs : Poly → List F
  fromOrderedGroups : List Group → Except Error Precommitted
  commit : Scheme → Setup → List Poly → Stack → GroupContext Profile Precommitted →
    Except Error (Group × Hint)
  groupLayout : Group → PolynomialGroupLayout
  newClaims : List F → List F → Group → Except Error Claims
  fromGroups : List Claims → Except Error Opening
  fromCommittedClaims : Opening → List Hint → List (List Poly) → Scheme → Except Error Data
  selection : Data → Selection
  rowDigest : Selection → List Byte
  newStatement : Selection → Opening → Except Error Statement
  toBytesLe : F → List Byte
  batchedProve : Scheme → Setup → Data → Stack → OpeningTranscript → Except Error Proof
  batchedVerify :
    Scheme → Proof → VerifierSetup → OpeningTranscript → Statement → Except Error Unit

variable {F : Type} [Field F] [DecidableEq F] (akita : Akita F)

/-! ## Setup -/

/-- The only row of the catalog of a scheme, with the groups of the layout. -/
def validateSchedule (layout : PcsLayout) (scheme : akita.Scheme) :
    Except (PcsError akita.Error) (akita.Schedule × List akita.Profile) :=
  match akita.rows scheme with
  | [row] => do
    let expected : PolynomialGroupLayout := ⟨layout.numVariables, layout.groupColumns⟩
    let precommittedCount := match layout.openingMode with
      | .independent => 0
      | .paired => 1
    rejectIf (row.finalGroup ≠ expected ∨ row.precommitteds.length ≠ precommittedCount ∨
      ∃ profile ∈ row.precommitteds, akita.profileGroup profile ≠ expected) .shape
    return (row.schedule, row.precommitteds)
  | _ => .error .shape

structure PcsProverContext where
  layout : PcsLayout
  scheme : akita.Scheme
  setup : akita.Setup
  prepared : akita.Prepared
  schedule : akita.Schedule
  precommittedProfiles : List akita.Profile

variable {akita}

def PcsProverContext.stack (context : PcsProverContext akita) :
    Except (PcsError akita.Error) akita.Stack := do
  rejectIf (context.layout.groupColumns = 0) .shape
  (akita.stack context.prepared context.setup).mapError .akita

variable (akita)

def PcsProverContext.new (layout : PcsLayout) :
    Except (PcsError akita.Error) (PcsProverContext akita) := do
  let scheme ← (akita.fromScheduleArtifact layout.scheduleArtifact).mapError .akita
  let (schedule, precommittedProfiles) ← validateSchedule akita layout scheme
  let capacity ← layout.setupCapacity
  let setup ← (akita.setupProver scheme layout.numVariables capacity).mapError .akita
  let prepared ← (akita.prepareSetup setup).mapError .akita
  let context : PcsProverContext akita :=
    { layout, scheme, setup, prepared, schedule, precommittedProfiles }
  let stack ← context.stack
  akita.prewarm layout.openingMode schedule stack
  return context

/-- The shared context of a layout. -/
def PcsProverContext.acquire (layout : PcsLayout) :
    Except (PcsError akita.Error) (PcsProverContext akita) :=
  (PcsProverContext.new akita layout).mapError (fun _ => .context)

/-- The verifier's setup, for a schedule and the setup of the prover. -/
def setupVerifierFor (layout : PcsLayout) (scheme : akita.Scheme) (schedule : akita.Schedule)
    (setup : akita.Setup) : Except (PcsError akita.Error) akita.VerifierSetup :=
  match layout.openingMode with
  | .independent => (akita.setupVerifier scheme setup).mapError .akita
  | .paired => do
    let sizes := List.replicate layout.groupsPerOpening layout.groupColumns
    let claimsLayout ← (akita.claimsLayout layout.numVariables sizes).mapError .akita
    (akita.setupVerifierForSchedule scheme setup schedule claimsLayout).mapError .akita

/-- The scheme and the setup that an opening is verified with. -/
def verifierContext (layout : PcsLayout) :
    Except (PcsError akita.Error) (akita.Scheme × akita.VerifierSetup) := do
  let scheme ← (akita.fromScheduleArtifact layout.scheduleArtifact).mapError .akita
  let (schedule, _) ← validateSchedule akita layout scheme
  let capacity ← layout.setupCapacity
  let setup ← (akita.setupProver scheme layout.numVariables capacity).mapError .akita
  let verifierSetup ← setupVerifierFor akita layout scheme schedule setup
  return (scheme, verifierSetup)

/-! ## Commitment -/

structure ProverBatch where
  hint : akita.Hint
  polynomials : List akita.Poly

structure CommittedColumns where
  commitments : ColumnCommitments akita.Group
  batches : List (ProverBatch akita)
  context : PcsProverContext akita

def validateColumnShape (layout : PcsLayout) (columns : List (List ℕ)) :
    Except (PcsError akita.Error) ℕ := do
  rejectIf (layout.groupColumns = 0) .shape
  let first ← someOr columns.head? .shape
  let expectedRowCount ← layout.rowCount
  rejectIf (first.length ≠ expectedRowCount ∨ ∃ column ∈ columns, column.length ≠ first.length)
    .shape
  return first.length

/-- A list in parts of one length, the last one perhaps shorter. -/
def chunks {α : Type} (size : ℕ) (values : List α) : List (List α) :=
  (List.range (divCeil values.length size)).map (fun index =>
    (values.drop (index * size)).take size)

/-- The polynomials of a group of columns, and zero polynomials up to its width. -/
def paddedPolynomials (layout : PcsLayout) (rowCount : ℕ) (columnGroup : List (List ℕ)) :
    Except (PcsError akita.Error) (List akita.Poly) := do
  let polynomials ← columnGroup.mapM (fun column =>
    (akita.fromFieldEvals layout.numVariables (column.map (Nat.cast : ℕ → F))).mapError .akita)
  let padding ← (List.range (layout.groupColumns - polynomials.length)).mapM (fun _ =>
    (akita.fromFieldEvals layout.numVariables (List.replicate rowCount (0 : F))).mapError .akita)
  return polynomials ++ padding

section Commit

variable {akita}
variable (context : PcsProverContext akita) (stack : akita.Stack)

/-- The commitment of one group. -/
def commitGroup (groupContext : GroupContext akita.Profile akita.Precommitted)
    (polynomials : List akita.Poly) :
    Except (PcsError akita.Error) (akita.Group × ProverBatch akita) := do
  let (group, hint) ←
    (akita.commit context.scheme context.setup polynomials stack groupContext).mapError .akita
  return (group, ⟨hint, polynomials⟩)

/-- Pairs of groups, the second committed after the first. -/
def commitPairs (profile : akita.Profile) :
    List (List akita.Poly) → Except (PcsError akita.Error) (List (akita.Group × ProverBatch akita))
  | [] => .ok []
  | [_] => .error .shape
  | precommitted :: finalGroup :: pending => do
    let first ← commitGroup context stack (.explicit profile) precommitted
    let precommitteds ← (akita.fromOrderedGroups [first.1]).mapError .akita
    let second ← commitGroup context stack (.withPrecommittedGroups precommitteds) finalGroup
    let rest ← commitPairs profile pending
    return first :: second :: rest

def commitPolynomialGroups (layout : PcsLayout) (polynomialGroups : List (List akita.Poly)) :
    Except (PcsError akita.Error) (List (akita.Group × ProverBatch akita)) :=
  match layout.openingMode with
  | .independent => polynomialGroups.mapM (commitGroup context stack .withoutPrecommittedGroups)
  | .paired => do
    let profile ← someOr context.precommittedProfiles.head? .shape
    commitPairs context stack profile polynomialGroups

end Commit

def commitColumns (layout : PcsLayout) (columns : List (List ℕ)) :
    Except (PcsError akita.Error) (CommittedColumns akita) := do
  let rowCount ← validateColumnShape akita layout columns
  let context ← PcsProverContext.acquire akita layout
  rejectIf (context.layout ≠ layout) .shape
  let stack ← context.stack
  let _ ← layout.openingCount (divCeil columns.length layout.groupColumns)
  let polynomialGroups ←
    (chunks layout.groupColumns columns).mapM (paddedPolynomials akita layout rowCount)
  let committed ← commitPolynomialGroups context stack layout polynomialGroups
  let commitments : ColumnCommitments akita.Group :=
    { numVariables := layout.numVariables
      logicalColumnCount := columns.length
      groupColumns := layout.groupColumns
      groups := committed.map Prod.fst }
  commitments.validate akita.groupLayout layout
  return { commitments, batches := committed.map Prod.snd, context }

end Pcs

end Zksm83
