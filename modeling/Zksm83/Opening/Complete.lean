import Zksm83.Opening.Selected

/-!
# Selected openings of committed columns

What the commitment of some columns leaves behind, and that the opening built from it is accepted.
-/

namespace Zksm83

namespace Pcs

open Sumcheck
open Multilinear (extension)

variable {F : Type} {akita : Akita F}

/-! ## Committed groups -/

theorem commitGroup_polynomials {context : PcsProverContext akita} {stack : akita.Stack}
    {groupContext : GroupContext akita.Profile akita.Precommitted} {polynomials : List akita.Poly}
    {entry : akita.Group × ProverBatch akita}
    (hcommit : commitGroup context stack groupContext polynomials = .ok entry) :
    entry.2.polynomials = polynomials := by
  obtain ⟨⟨group, hint⟩, -, hentry⟩ := Except.of_bind_eq_ok hcommit
  rw [← Except.ok.inj hentry]

/-- Every group was committed under some context. -/
def Committed (context : PcsProverContext akita) (stack : akita.Stack)
    (entries : List (akita.Group × ProverBatch akita)) : Prop :=
  ∀ entry ∈ entries, ∃ groupContext,
    commitGroup context stack groupContext entry.2.polynomials = .ok entry

theorem Committed.cons {context : PcsProverContext akita} {stack : akita.Stack}
    {groupContext : GroupContext akita.Profile akita.Precommitted} {polynomials : List akita.Poly}
    {entry : akita.Group × ProverBatch akita} {entries : List (akita.Group × ProverBatch akita)}
    (hcommit : commitGroup context stack groupContext polynomials = .ok entry)
    (hrest : Committed context stack entries) : Committed context stack (entry :: entries) :=
  List.forall_mem_cons.mpr
    ⟨⟨groupContext, by rw [commitGroup_polynomials hcommit, hcommit]⟩, hrest⟩

theorem commitPairs_committed {context : PcsProverContext akita} {stack : akita.Stack}
    {profile : akita.Profile} {polynomialGroups : List (List akita.Poly)}
    {entries : List (akita.Group × ProverBatch akita)}
    (hcommit : commitPairs context stack profile polynomialGroups = .ok entries) :
    Committed context stack entries ∧
      entries.map (fun entry => entry.2.polynomials) = polynomialGroups := by
  induction polynomialGroups using commitPairs.induct generalizing entries with
  | case1 =>
    obtain rfl := Except.ok.inj hcommit
    exact ⟨List.forall_mem_nil _, rfl⟩
  | case2 polynomials => exact nomatch hcommit
  | case3 precommitted finalGroup pending ih =>
    rw [commitPairs] at hcommit
    obtain ⟨first, hfirst, hcommit⟩ := Except.of_bind_eq_ok hcommit
    obtain ⟨precommitteds, -, hcommit⟩ := Except.of_bind_eq_ok hcommit
    obtain ⟨second, hsecond, hcommit⟩ := Except.of_bind_eq_ok hcommit
    obtain ⟨rest, hrest, hcommit⟩ := Except.of_bind_eq_ok hcommit
    obtain rfl := Except.ok.inj hcommit
    obtain ⟨hcommitted, hpolynomials⟩ := ih hrest
    refine ⟨Committed.cons hfirst (Committed.cons hsecond hcommitted), ?_⟩
    rw [List.map_cons, List.map_cons, hpolynomials, commitGroup_polynomials hfirst,
      commitGroup_polynomials hsecond]

theorem commitPolynomialGroups_committed {context : PcsProverContext akita} {stack : akita.Stack}
    {layout : PcsLayout} {polynomialGroups : List (List akita.Poly)}
    {entries : List (akita.Group × ProverBatch akita)}
    (hcommit : commitPolynomialGroups context stack layout polynomialGroups = .ok entries) :
    Committed context stack entries ∧
      entries.map (fun entry => entry.2.polynomials) = polynomialGroups := by
  unfold commitPolynomialGroups at hcommit
  cases hmode : layout.openingMode with
  | independent =>
    rw [hmode] at hcommit
    induction Except.mapM_eq_ok.mp hcommit with
    | nil => exact ⟨List.forall_mem_nil _, rfl⟩
    | cons hfirst hrest ih =>
      obtain ⟨hcommitted, hpolynomials⟩ := ih (Except.mapM_eq_ok.mpr hrest)
      refine ⟨Committed.cons hfirst hcommitted, ?_⟩
      rw [List.map_cons, hpolynomials, commitGroup_polynomials hfirst]
  | paired =>
    rw [hmode] at hcommit
    obtain ⟨profile, -, hcommit⟩ := Except.of_bind_eq_ok hcommit
    exact commitPairs_committed hcommit

/-! ## Committed columns -/

variable [Field F]

/-- A logical column over the field; the columns after the last one are zero. -/
def paddedColumn (layout : PcsLayout) (columns : List (List ℕ)) (column : ℕ) : List F :=
  (columns.getD column (List.replicate (2 ^ layout.numVariables) 0)).map Nat.cast

theorem getD_chunk {α : Type} {size chunk offset : ℕ} (values : List α) (default : α)
    (hoffset : offset < size) :
    ((values.drop (chunk * size)).take size).getD offset default =
      values.getD (chunk * size + offset) default := by
  rw [List.getD_eq_getElem?_getD, List.getElem?_take_of_lt hoffset, List.getElem?_drop,
    List.getD_eq_getElem?_getD]

/-- The polynomials of a group, and zero polynomials up to its width. -/
theorem paddedPolynomials_eq_ok {layout : PcsLayout} {columnGroup : List (List ℕ)}
    {polynomials : List akita.Poly} (hwidth : columnGroup.length ≤ layout.groupColumns)
    (hpadded : paddedPolynomials akita layout (2 ^ layout.numVariables) columnGroup =
      .ok polynomials) :
    polynomials.length = layout.groupColumns ∧ ∀ offset < layout.groupColumns,
      ∃ polynomial, polynomials[offset]? = some polynomial ∧
        akita.fromFieldEvals layout.numVariables (paddedColumn layout columnGroup offset) =
          .ok polynomial := by
  unfold paddedPolynomials at hpadded
  obtain ⟨own, hown, hpadded⟩ := Except.of_bind_eq_ok hpadded
  obtain ⟨padding, hpadding, hpadded⟩ := Except.of_bind_eq_ok hpadded
  obtain rfl := Except.ok.inj hpadded
  have hown := Except.mapM_eq_ok.mp hown
  have hpadding := Except.mapM_eq_ok.mp hpadding
  have hownLength := hown.length_eq
  have hpaddingLength := hpadding.length_eq
  rw [List.length_range] at hpaddingLength
  refine ⟨by rw [List.length_append]; omega, fun offset hoffset => ?_⟩
  by_cases hinside : offset < own.length
  · refine ⟨own[offset], by rw [List.getElem?_append_left hinside,
      List.getElem?_eq_getElem hinside], ?_⟩
    have hpolynomial := hown.get (by omega) hinside
    rw [paddedColumn, List.getD_eq_getElem?_getD, List.getElem?_eq_getElem (by omega)]
    exact Except.mapError_eq_ok.mp hpolynomial
  · have hzero : offset - own.length < padding.length := by omega
    refine ⟨padding[offset - own.length], by rw [List.getElem?_append_right (by omega),
      List.getElem?_eq_getElem hzero], ?_⟩
    have hpolynomial := hpadding.get (by rw [List.length_range]; omega) hzero
    rw [paddedColumn, List.getD_eq_getElem?_getD, List.getElem?_eq_none (by omega),
      Option.getD_none, List.map_replicate, Nat.cast_zero]
    exact Except.mapError_eq_ok.mp hpolynomial

variable [DecidableEq F]

/-- The rows behind the polynomials of a batch. -/
def ProverBatch.tables (layout : PcsLayout) (batch : ProverBatch akita) : List (List F) :=
  batch.polynomials.map (fun polynomial =>
    (akita.fieldCoeffs polynomial).take (2 ^ layout.numVariables))

/-- What Akita promises about commitments and proofs of its own: the coefficients of a polynomial
begin with its evaluations, the verifier has a setup where the prover has one, and a proof of the
true values of committed polynomials is accepted. -/
structure Akita.Complete (akita : Akita F) (layout : PcsLayout) : Prop where
  coefficients : ∀ {evals polynomial},
    akita.fromFieldEvals layout.numVariables evals = .ok polynomial →
    evals.length = 2 ^ layout.numVariables →
    (akita.fieldCoeffs polynomial).take (2 ^ layout.numVariables) = evals
  setup : ∀ {context}, PcsProverContext.new akita layout = .ok context →
    ∃ verifierSetup, setupVerifierFor akita layout context.scheme context.schedule context.setup =
      .ok verifierSetup
  accepts : ∀ {context stack verifierSetup entries point claims openingClaims proverData domain
      instanceBytes proof},
    PcsProverContext.new akita layout = .ok context → context.stack = .ok stack →
    setupVerifierFor akita layout context.scheme context.schedule context.setup =
      .ok verifierSetup →
    Committed context stack entries →
    groupClaims point (entries.map Prod.fst)
      (entries.map (fun entry => evaluations point (entry.2.tables layout))) = .ok claims →
    akita.fromGroups claims = .ok openingClaims →
    akita.fromCommittedClaims openingClaims (entries.map (fun entry => entry.2.hint))
      (entries.map (fun entry => entry.2.polynomials)) context.scheme = .ok proverData →
    akita.batchedProve context.scheme context.setup proverData stack
      ⟨.prover, domain, instanceBytes⟩ = .ok proof →
    ∃ statement, akita.newStatement (akita.selection proverData) openingClaims = .ok statement ∧
      akita.batchedVerify context.scheme proof verifierSetup ⟨.verifier, domain, instanceBytes⟩
        statement = .ok ()

/-- What a commitment of columns leaves: its context, and for every group its columns. -/
structure CommittedWitness (layout : PcsLayout) (columns : List (List ℕ))
    (witness : CommittedColumns akita) (entries : List (akita.Group × ProverBatch akita)) :
    Prop where
  context : PcsProverContext.new akita layout = .ok witness.context
  sameLayout : witness.context.layout = layout
  committed : ∃ stack, witness.context.stack = .ok stack ∧
    Committed witness.context stack entries
  groups : witness.commitments.groups = entries.map Prod.fst
  batches : witness.batches = entries.map Prod.snd
  logicalColumnCount : witness.commitments.logicalColumnCount = columns.length
  valid : ValidCommitments akita.groupLayout layout witness.commitments
  lengths : ∀ column ∈ columns, column.length = 2 ^ layout.numVariables
  tables : ∀ group entry, entries[group]? = some entry →
    entry.2.tables layout = (List.range layout.groupColumns).map (fun offset =>
      paddedColumn layout columns (group * layout.groupColumns + offset))

omit [Field F] [DecidableEq F] in
theorem PcsProverContext.layout_new {layout : PcsLayout} {context : PcsProverContext akita}
    (hnew : PcsProverContext.new akita layout = .ok context) : context.layout = layout := by
  unfold PcsProverContext.new at hnew
  obtain ⟨scheme, -, hnew⟩ := Except.of_bind_eq_ok hnew
  obtain ⟨⟨schedule, profiles⟩, -, hnew⟩ := Except.of_bind_eq_ok hnew
  obtain ⟨capacity, -, hnew⟩ := Except.of_bind_eq_ok hnew
  obtain ⟨setup, -, hnew⟩ := Except.of_bind_eq_ok hnew
  obtain ⟨prepared, -, hnew⟩ := Except.of_bind_eq_ok hnew
  obtain ⟨stack, -, hnew⟩ := Except.of_bind_eq_ok hnew
  obtain ⟨-, hnew⟩ := Except.check_eq_ok.mp hnew
  rw [← Except.ok.inj hnew]

omit [Field F] [DecidableEq F] in
theorem validateColumnShape_eq_ok {layout : PcsLayout} {columns : List (List ℕ)} {rowCount : ℕ}
    (hshape : validateColumnShape akita layout columns = .ok rowCount) :
    rowCount = 2 ^ layout.numVariables ∧ ∀ column ∈ columns, column.length = rowCount := by
  unfold validateColumnShape at hshape
  obtain ⟨-, hshape⟩ := Except.check_eq_ok.mp hshape
  obtain ⟨first, -, hshape⟩ := Except.of_bind_eq_ok hshape
  obtain ⟨expected, hexpected, hshape⟩ := Except.of_bind_eq_ok hshape
  obtain ⟨hreject, hshape⟩ := Except.check_eq_ok.mp hshape
  obtain rfl := Except.ok.inj hshape
  have hlengths := rejectIf_eq_ok.mp hreject
  push Not at hlengths
  unfold PcsLayout.rowCount at hexpected
  split at hexpected
  · exact nomatch hexpected
  · exact ⟨hlengths.1.trans (Except.ok.inj hexpected).symm, hlengths.2⟩

omit [DecidableEq F] in
theorem length_paddedColumn {layout : PcsLayout} {columns : List (List ℕ)}
    (hlengths : ∀ column ∈ columns, column.length = 2 ^ layout.numVariables) (column : ℕ) :
    (paddedColumn layout columns column : List F).length = 2 ^ layout.numVariables := by
  rw [paddedColumn, List.length_map, List.getD_eq_getElem?_getD]
  cases hcolumn : columns[column]? with
  | none => rw [Option.getD_none, List.length_replicate]
  | some values => exact hlengths values (List.mem_of_getElem? hcolumn)

omit [DecidableEq F] in
theorem CommittedWitness.of_commit {layout : PcsLayout} {columns : List (List ℕ)}
    {witness : CommittedColumns akita} (hcomplete : akita.Complete layout)
    (hcommit : commitColumns akita layout columns = .ok witness) :
    ∃ entries, CommittedWitness layout columns witness entries := by
  unfold commitColumns at hcommit
  obtain ⟨rowCount, hshape, hcommit⟩ := Except.of_bind_eq_ok hcommit
  obtain ⟨rfl, hlengths⟩ := validateColumnShape_eq_ok hshape
  obtain ⟨context, hacquire, hcommit⟩ := Except.of_bind_eq_ok hcommit
  have hnew := Except.mapError_eq_ok.mp hacquire
  obtain ⟨-, hcommit⟩ := Except.check_eq_ok.mp hcommit
  obtain ⟨stack, hstack, hcommit⟩ := Except.of_bind_eq_ok hcommit
  obtain ⟨-, -, hcommit⟩ := Except.of_bind_eq_ok hcommit
  obtain ⟨polynomialGroups, hgroups, hcommit⟩ := Except.of_bind_eq_ok hcommit
  obtain ⟨entries, hentries, hcommit⟩ := Except.of_bind_eq_ok hcommit
  obtain ⟨hvalid, hcommit⟩ := Except.check_eq_ok.mp hcommit
  obtain rfl := Except.ok.inj hcommit
  obtain ⟨hcommitted, hpolynomials⟩ := commitPolynomialGroups_committed hentries
  refine ⟨entries, hnew, PcsProverContext.layout_new hnew, ⟨stack, hstack, hcommitted⟩, rfl, rfl,
    rfl, ValidCommitments.of_validate hvalid, hlengths, fun group entry hentry => ?_⟩
  have hgroup : polynomialGroups[group]? = some entry.2.polynomials := by
    rw [← hpolynomials, List.getElem?_map, hentry, Option.map_some]
  obtain ⟨hbound, hgroup⟩ := List.getElem?_eq_some_iff.mp hgroup
  have hpadded := Except.mapM_eq_ok.mp hgroups
  have hchunk := hpadded.get (i := group) (hpadded.length_eq.symm ▸ hbound) hbound
  rw [List.get_eq_getElem, List.get_eq_getElem] at hchunk
  unfold chunks at hchunk
  simp only [List.getElem_map, List.getElem_range] at hchunk
  rw [hgroup] at hchunk
  obtain ⟨hlength, hpolynomial⟩ :=
    paddedPolynomials_eq_ok (List.length_take_le _ _) hchunk
  refine List.ext_getElem (by simp [ProverBatch.tables, hlength]) fun offset hleft hright => ?_
  rw [List.length_map, List.length_range] at hright
  obtain ⟨polynomial, hget, hevals⟩ := hpolynomial offset hright
  have hcolumn : (paddedColumn layout ((columns.drop (group * layout.groupColumns)).take
      layout.groupColumns) offset : List F) =
      paddedColumn layout columns (group * layout.groupColumns + offset) := by
    rw [paddedColumn, getD_chunk columns _ hright, paddedColumn]
  rw [hcolumn] at hevals
  have hcoefficients := hcomplete.coefficients hevals (length_paddedColumn hlengths _)
  obtain ⟨hinside, hget⟩ := List.getElem?_eq_some_iff.mp hget
  simp only [ProverBatch.tables, List.getElem_map, List.getElem_range]
  rw [hget, hcoefficients]

theorem flatMap_range {α : Type} (f : ℕ → α) (count size : ℕ) :
    (List.range count).flatMap (fun part =>
        (List.range size).map (fun offset => f (part * size + offset))) =
      (List.range (count * size)).map f := by
  induction count with
  | zero => simp
  | succ count ih =>
    rw [List.range_succ, List.flatMap_append, ih, List.flatMap_singleton, Nat.succ_mul,
      List.range_add, List.map_append, List.map_map]
    rfl

omit [Field F] [DecidableEq F] in
theorem mapM_fieldRows {rowCount : ℕ} {polynomials : List akita.Poly} {rows : List (List F)}
    (hrows : polynomials.mapM (fieldRows rowCount) = .ok rows) :
    rows = polynomials.map (fun polynomial => (akita.fieldCoeffs polynomial).take rowCount) := by
  induction Except.mapM_eq_ok.mp hrows with
  | nil => rfl
  | cons hfirst hrest ih =>
    obtain ⟨-, hpart⟩ := Except.check_eq_ok.mp hfirst
    rw [List.map_cons, ← ih (Except.mapM_eq_ok.mpr hrest), ← Except.ok.inj hpart, List.drop_zero,
      Nat.sub_zero]

omit [DecidableEq F] in
/-- The columns read back from the polynomials are those that were committed. -/
theorem CommittedWitness.fieldColumns_eq {layout : PcsLayout} {columns : List (List ℕ)}
    {witness : CommittedColumns akita} {entries : List (akita.Group × ProverBatch akita)}
    {rows : List (List F)} (hwitness : CommittedWitness layout columns witness entries)
    (hrows : fieldColumns witness = .ok rows) :
    rows = (List.range columns.length).map (paddedColumn layout columns) := by
  unfold fieldColumns at hrows
  rw [hwitness.sameLayout] at hrows
  obtain ⟨-, hrest⟩ := Except.check_eq_ok.mp hrows
  obtain ⟨rowCount, hcount, hrest⟩ := Except.of_bind_eq_ok hrest
  obtain ⟨physicalColumnCount, -, hrest⟩ := Except.of_bind_eq_ok hrest
  obtain ⟨all, hall, hrest⟩ := Except.of_bind_eq_ok hrest
  obtain ⟨-, hrest⟩ := Except.check_eq_ok.mp hrest
  obtain rfl := Except.ok.inj hrest
  have hrowCount : rowCount = 2 ^ layout.numVariables := by
    unfold PcsLayout.rowCount at hcount
    split at hcount
    · exact nomatch hcount
    · exact (Except.ok.inj hcount).symm
  have htables : all = entries.flatMap (fun entry => entry.2.tables layout) := by
    rw [mapM_fieldRows hall, hrowCount, hwitness.batches, List.map_flatMap, List.flatMap_map]
    rfl
  have hgrid : entries.flatMap (fun entry => entry.2.tables layout) =
      (List.range (entries.length * layout.groupColumns)).map (paddedColumn layout columns) := by
    rw [← flatMap_range, List.flatMap_def, List.flatMap_def]
    congr 1
    refine List.ext_getElem (by simp) fun group hleft hright => ?_
    rw [List.length_map] at hleft
    rw [List.getElem_map, List.getElem_map, List.getElem_range]
    exact hwitness.tables group _ (List.getElem?_eq_getElem hleft)
  have hfits : columns.length ≤ entries.length * layout.groupColumns := by
    have hlength : entries.length = divCeil columns.length layout.groupColumns := by
      have hgroups := hwitness.valid.groups
      rwa [hwitness.groups, List.length_map, hwitness.logicalColumnCount] at hgroups
    have hceil := (@lt_divCeil columns.length _ entries.length
      hwitness.valid.groupColumns_pos).not.mp (by omega)
    omega
  rw [htables, hgrid, hwitness.logicalColumnCount, ← List.map_take, List.take_range,
    Nat.min_eq_left hfits]

/-! ## Evaluated columns -/

omit [DecidableEq F] in
theorem evaluateColumn_eq_ok {ε : Type} {columns : List (List F)} {point : List F} {index : ℕ}
    {entry : ℕ × F}
    (heval : evaluateColumn columns point index =
      (.ok entry : Except (PcsError ε) (ℕ × F))) :
    entry = (index, extension point (tableOf (columns.getD index []))) := by
  unfold evaluateColumn at heval
  obtain ⟨column, hcolumn, heval⟩ := Except.of_bind_eq_ok heval
  obtain ⟨value, hvalue, heval⟩ := Except.of_bind_eq_ok heval
  obtain rfl := Except.ok.inj heval
  have hvalue := Except.mapError_eq_ok.mp hvalue
  have hshort : point.length < 64 := by
    by_contra hlarge
    rw [FieldFold.evaluateMle.eq_def, if_pos (by omega)] at hvalue
    cases hvalue
  have hlength : column.length = 2 ^ point.length := by
    by_contra hlength
    rw [FieldFold.evaluateMle.eq_def, if_neg (by omega), if_pos hlength] at hvalue
    cases hvalue
  rw [evaluateMle_extension hshort hlength] at hvalue
  rw [List.getD_eq_getElem?_getD, someOr_eq_ok.mp hcolumn, Option.getD_some,
    ← Except.ok.inj hvalue]

omit [DecidableEq F] in
theorem mapM_evaluateColumn {ε : Type} {columns : List (List F)} {point : List F}
    {selected : List ℕ} {evaluated : List (ℕ × F)}
    (hevaluated : selected.mapM (evaluateColumn columns point) =
      (.ok evaluated : Except (PcsError ε) (List (ℕ × F)))) :
    evaluated = selected.map (fun index =>
      (index, extension point (tableOf (columns.getD index [])))) := by
  induction Except.mapM_eq_ok.mp hevaluated with
  | nil => rfl
  | cons hfirst hrest ih =>
    rw [List.map_cons, ← ih (Except.mapM_eq_ok.mpr hrest), evaluateColumn_eq_ok hfirst]

omit [Field F] [DecidableEq F] in
/-- Values stored one after the other, each the value of its index. -/
theorem foldlM_storeValue {ε : Type} {value : ℕ → F} {entries : List (ℕ × F)}
    {values result : List F}
    (hentries : ∀ entry ∈ entries, entry.2 = value entry.1)
    (hstore : entries.foldlM storeValue values =
      (.ok result : Except (PcsError ε) (List F))) :
    result.length = values.length ∧ ∀ index < values.length, result[index]? =
      if index ∈ entries.map Prod.fst then some (value index) else values[index]? := by
  induction entries generalizing values with
  | nil =>
    obtain rfl := Except.ok.inj hstore
    exact ⟨rfl, fun index _ => by simp⟩
  | cons entry entries ih =>
    rw [List.foldlM_cons] at hstore
    obtain ⟨stored, hfirst, hrest⟩ := Except.of_bind_eq_ok hstore
    obtain ⟨hinside, hfirst⟩ := Except.check_eq_ok.mp hfirst
    obtain rfl := Except.ok.inj hfirst
    obtain ⟨hentry, hentries⟩ := List.forall_mem_cons.mp hentries
    obtain ⟨hlength, hvalues⟩ := ih hentries hrest
    rw [List.length_set] at hlength hvalues
    refine ⟨hlength, fun index hindex => ?_⟩
    rw [hvalues index hindex, List.getElem?_set]
    simp only [List.map_cons, List.mem_cons]
    by_cases hlater : index ∈ entries.map Prod.fst
    · rw [if_pos hlater, if_pos (Or.inr hlater)]
    · rw [if_neg hlater]
      by_cases hhere : entry.1 = index
      · rw [if_pos hhere, if_pos (by omega), if_pos (Or.inl hhere.symm), hentry, hhere]
      · rw [if_neg hhere, if_neg (not_or.mpr ⟨Ne.symm hhere, hlater⟩)]

/-- The values that the prover claims: its columns at the point where their groups are opened, and
zero elsewhere. -/
def claimedValue (layout : PcsLayout) (columns : List (List ℕ)) (point : List F)
    (openingIndices : List ℕ) (column : ℕ) : F :=
  if column / (layout.groupColumns * layout.groupsPerOpening) ∈ openingIndices then
    extension point (tableOf (paddedColumn layout columns column))
  else 0

omit [DecidableEq F] in
/-- The padded values of an opened group are those of its polynomials. -/
theorem CommittedWitness.paddedGroupValues_eq {layout : PcsLayout} {columns : List (List ℕ)}
    {witness : CommittedColumns akita} {entries : List (akita.Group × ProverBatch akita)}
    (hwitness : CommittedWitness layout columns witness entries) {point values : List F}
    {openingIndices : List ℕ} (hlength : values.length = columns.length)
    (hvalues : ∀ column < columns.length,
      values[column]? = some (claimedValue layout columns point openingIndices column))
    {group : ℕ} {entry : akita.Group × ProverBatch akita} (hentry : entries[group]? = some entry)
    (hopened : group / layout.groupsPerOpening ∈ openingIndices) {padded : List F}
    (hpadded : paddedGroupValues layout values group =
      (.ok padded : Except (PcsError akita.Error) (List F))) :
    padded = evaluations point (entry.2.tables layout) := by
  obtain ⟨hwidth, hentries⟩ := paddedGroupValues_eq_ok hpadded
  have hlengths : (evaluations point (entry.2.tables layout)).length = layout.groupColumns := by
    rw [evaluations, hwitness.tables group entry hentry]
    simp
  refine List.ext_getElem (hwidth.trans hlengths.symm) fun offset hleft hright => ?_
  rw [hwidth] at hleft
  have hvalue := hentries offset hleft
  rw [List.getElem?_eq_getElem (by omega), Option.some.injEq] at hvalue
  rw [hvalue]
  simp only [evaluations, hwitness.tables group entry hentry, List.getElem_map,
    List.getElem_range]
  rw [List.getD_eq_getElem?_getD]
  by_cases hinside : group * layout.groupColumns + offset < columns.length
  · have hopening : (group * layout.groupColumns + offset) /
        (layout.groupColumns * layout.groupsPerOpening) = group / layout.groupsPerOpening := by
      rw [← Nat.div_div_eq_div_mul, Nat.mul_comm, Nat.mul_add_div (by omega),
        Nat.div_eq_of_lt hleft, Nat.add_zero]
    rw [hvalues _ hinside, Option.getD_some, claimedValue, if_pos (hopening.symm ▸ hopened)]
  · -- past the last column both sides are zero
    have hzero : tableOf (paddedColumn layout columns (group * layout.groupColumns + offset)) =
        fun _ => (0 : F) := by
      funext index
      rw [paddedColumn, tableOf, List.getD_eq_getElem?_getD, List.getElem?_map,
        List.getD_eq_getElem?_getD, List.getElem?_eq_none (Nat.le_of_not_lt hinside),
        Option.getD_none, List.getElem?_replicate]
      split <;> simp
    rw [List.getElem?_eq_none (by omega), Option.getD_none, hzero, Multilinear.extension_const]

/-! ## Built openings -/

omit [Field F] [DecidableEq F] in
theorem slice_map {α β ε : Type} {values : List α} {f : α → β} {start stop : ℕ} {part : List β}
    (hslice : slice (values.map f) start stop = (.ok part : Except (PcsError ε) (List β))) :
    part = ((values.drop start).take (stop - start)).map f ∧
      ((values.drop start).take (stop - start)).length = stop - start := by
  have hlength := (slice_eq_ok hslice).1
  obtain ⟨-, hpart⟩ := Except.check_eq_ok.mp hslice
  obtain rfl := Except.ok.inj hpart
  rw [List.map_take, List.map_drop]
  refine ⟨rfl, ?_⟩
  rwa [← List.map_drop, ← List.map_take, List.length_map] at hlength

omit [Field F] [DecidableEq F] in
/-- The transcripts of both sides are bound to the same bytes. -/
theorem openingTranscript_eq_ok {toBytesLe : F → List Byte} {layout : PcsLayout}
    {instanceDescriptor : List Byte} {point : List F} {openingIndex : ℕ} {rowDigest : List Byte}
    {side : TranscriptSide} {transcript : OpeningTranscript} {ε : Type}
    (htranscript : openingTranscript toBytesLe layout instanceDescriptor point openingIndex
      rowDigest side = (.ok transcript : Except (PcsError ε) OpeningTranscript)) :
    ∃ instanceBytes, transcript = ⟨side, layout.openingDomain, instanceBytes⟩ ∧
      ∀ other, openingTranscript toBytesLe layout instanceDescriptor point openingIndex rowDigest
        other = (.ok ⟨other, layout.openingDomain, instanceBytes⟩ :
          Except (PcsError ε) OpeningTranscript) := by
  obtain ⟨instanceBytes, hbytes, htranscript⟩ := Except.of_bind_eq_ok htranscript
  exact ⟨instanceBytes, (Except.ok.inj htranscript).symm, fun other =>
    Except.bind_eq_ok.mpr ⟨instanceBytes, hbytes, rfl⟩⟩

omit [DecidableEq F] in
/-- The verifier collects the values that the prover padded. -/
theorem mapM_paddedGroupValues {layout : PcsLayout} {values : List F} {start count : ℕ}
    {padded : List (List F)} {ε : Type} (hend : start + count < 2 ^ 64)
    (hpadded : (List.range' start count).mapM (paddedGroupValues layout values) =
      (.ok padded : Except (PcsError ε) (List (List F)))) :
    (List.range count).mapM (fun offset => do
        let groupIndex ← checked (start + offset)
        paddedGroupValues layout values groupIndex) =
      (.ok padded : Except (PcsError ε) (List (List F))) := by
  obtain ⟨hlength, hget⟩ := List.forall₂_iff_get.mp (Except.mapM_eq_ok.mp hpadded)
  rw [List.length_range'] at hlength
  refine Except.mapM_eq_ok.mpr (List.forall₂_iff_get.mpr ⟨by rwa [List.length_range], ?_⟩)
  intro offset hleft hright
  rw [List.length_range] at hleft
  have hvalue := hget offset (by rwa [List.length_range']) hright
  rw [List.get_eq_getElem, List.getElem_range', one_mul] at hvalue
  simp only [List.get_eq_getElem, List.getElem_range]
  exact Except.bind_eq_ok.mpr ⟨start + offset, checked_eq_ok.mpr ⟨by omega, rfl⟩, hvalue⟩

/-- What the prover builds for one opening is accepted. -/
theorem CommittedWitness.proveOpening_verifies {layout : PcsLayout} {columns : List (List ℕ)}
    {witness : CommittedColumns akita} {entries : List (akita.Group × ProverBatch akita)}
    (hcomplete : akita.Complete layout)
    (hwitness : CommittedWitness layout columns witness entries) {stack : akita.Stack}
    (hstack : witness.context.stack = .ok stack) {verifierSetup : akita.VerifierSetup}
    (hsetup : setupVerifierFor akita layout witness.context.scheme witness.context.schedule
      witness.context.setup = .ok verifierSetup)
    {point values : List F} {openingIndices : List ℕ} (hlength : values.length = columns.length)
    (hvalues : ∀ column < columns.length,
      values[column]? = some (claimedValue layout columns point openingIndices column))
    {descriptor : List Byte} {openingIndex : ℕ} (hopened : openingIndex ∈ openingIndices)
    {opening : GroupOpeningProof akita}
    (hprove : proveOpening layout witness stack point values descriptor openingIndex =
      .ok opening) :
    verifyOpening layout witness.commitments witness.context.scheme verifierSetup point values
      descriptor openingIndex opening = .ok () := by
  unfold proveOpening at hprove
  obtain ⟨start, hstart, hprove⟩ := Except.of_bind_eq_ok hprove
  obtain ⟨stop, hstop, hprove⟩ := Except.of_bind_eq_ok hprove
  obtain ⟨groups, hgroups, hprove⟩ := Except.of_bind_eq_ok hprove
  obtain ⟨batches, hbatches, hprove⟩ := Except.of_bind_eq_ok hprove
  obtain ⟨padded, hpadded, hprove⟩ := Except.of_bind_eq_ok hprove
  unfold proveGroupBatch at hprove
  obtain ⟨hcounts, hprove⟩ := Except.check_eq_ok.mp hprove
  obtain ⟨claims, hclaims, hprove⟩ := Except.of_bind_eq_ok hprove
  obtain ⟨openingClaims, hopening, hprove⟩ := Except.of_bind_eq_ok hprove
  obtain ⟨proverData, hdata, hprove⟩ := Except.of_bind_eq_ok hprove
  obtain ⟨transcript, htranscript, hprove⟩ := Except.of_bind_eq_ok hprove
  obtain ⟨proof, hproof, hprove⟩ := Except.of_bind_eq_ok hprove
  obtain rfl := Except.ok.inj hprove
  obtain ⟨-, hstartEq⟩ := checked_eq_ok.mp hstart
  obtain ⟨hfits, hstopEq⟩ := checked_eq_ok.mp hstop
  have hcount : stop - start = layout.groupsPerOpening := by omega
  have hgroupsMap := hgroups
  have hbatchesMap := hbatches
  rw [hwitness.groups] at hgroupsMap
  rw [hwitness.batches] at hbatchesMap
  obtain ⟨hgroupsEq, hpart⟩ := slice_map hgroupsMap
  obtain ⟨hbatchesEq, -⟩ := slice_map hbatchesMap
  rw [hcount] at hgroupsEq hbatchesEq hpart hpadded
  -- the padded values are those of the polynomials of the opened groups
  have htrue : padded = ((entries.drop start).take layout.groupsPerOpening).map
      (fun entry => evaluations point (entry.2.tables layout)) := by
    obtain ⟨hpaddedLength, hget⟩ := List.forall₂_iff_get.mp (Except.mapM_eq_ok.mp hpadded)
    rw [List.length_range'] at hpaddedLength
    refine List.ext_getElem (by rw [List.length_map, hpart, hpaddedLength]) ?_
    intro offset hleft hright
    have hoffset : offset < layout.groupsPerOpening := hpaddedLength ▸ hleft
    have hvalue := hget offset (by rwa [List.length_range']) hleft
    rw [List.get_eq_getElem, List.getElem_range', one_mul] at hvalue
    have hentry : entries[start + offset]? =
        some ((entries.drop start).take layout.groupsPerOpening)[offset] := by
      rw [← List.getElem?_drop, ← List.getElem?_take_of_lt hoffset, List.getElem?_eq_getElem]
    have hplace : (start + offset) / layout.groupsPerOpening ∈ openingIndices := by
      rw [hstartEq, Nat.mul_comm, Nat.mul_add_div layout.groupsPerOpening_pos,
        Nat.div_eq_of_lt hoffset, Nat.add_zero]
      exact hopened
    rw [List.getElem_map]
    exact hwitness.paddedGroupValues_eq hlength hvalues hentry hplace hvalue
  obtain ⟨otherStack, hotherStack, hcommitted⟩ := hwitness.committed
  obtain rfl := Except.ok.inj (hstack.symm.trans hotherStack)
  have hpartCommitted : Committed witness.context stack
      ((entries.drop start).take layout.groupsPerOpening) :=
    fun entry hentry => hcommitted entry (List.mem_of_mem_drop (List.mem_of_mem_take hentry))
  obtain ⟨instanceBytes, htranscriptEq, hother⟩ := openingTranscript_eq_ok htranscript
  rw [htranscriptEq] at hproof
  have hdata := Except.mapError_eq_ok.mp hdata
  rw [hbatchesEq, List.map_map, List.map_map] at hdata
  have hclaimsTrue := hclaims
  rw [hgroupsEq, htrue] at hclaimsTrue
  obtain ⟨statement, hstatement, haccept⟩ := hcomplete.accepts hwitness.context hstack hsetup
    hpartCommitted hclaimsTrue (Except.mapError_eq_ok.mp hopening) hdata
    (Except.mapError_eq_ok.mp hproof)
  have hchecks := rejectIf_eq_ok.mp hcounts
  push Not at hchecks
  refine Except.bind_eq_ok.mpr ⟨start, hstart, Except.bind_eq_ok.mpr ⟨stop, hstop,
    Except.bind_eq_ok.mpr ⟨groups, hgroups, Except.check_eq_ok.mpr
      ⟨rejectIf_eq_ok.mpr (not_not.mpr hchecks.1), Except.bind_eq_ok.mpr ⟨start, hstart,
        Except.bind_eq_ok.mpr ⟨padded, ?_, Except.check_eq_ok.mpr
          ⟨rejectIf_eq_ok.mpr (not_not.mpr rfl), Except.bind_eq_ok.mpr ⟨claims, hclaims,
            Except.bind_eq_ok.mpr ⟨openingClaims, hopening, Except.bind_eq_ok.mpr
              ⟨statement, Except.mapError_eq_ok.mpr hstatement, Except.bind_eq_ok.mpr
                ⟨_, hother .verifier, Except.mapError_eq_ok.mpr haccept⟩⟩⟩⟩⟩⟩⟩⟩⟩⟩⟩
  exact mapM_paddedGroupValues (hstopEq ▸ hfits) hpadded

omit [Field F] [DecidableEq F] in
/-- The verifier has the scheme of the prover, and a setup from the setup of the prover. -/
theorem verifierContext_eq_ok {layout : PcsLayout} {context : PcsProverContext akita}
    {verifierSetup : akita.VerifierSetup} (hnew : PcsProverContext.new akita layout = .ok context)
    (hsetup : setupVerifierFor akita layout context.scheme context.schedule context.setup =
      .ok verifierSetup) :
    verifierContext akita layout = .ok (context.scheme, verifierSetup) := by
  unfold PcsProverContext.new at hnew
  obtain ⟨scheme, hscheme, hnew⟩ := Except.of_bind_eq_ok hnew
  obtain ⟨⟨schedule, profiles⟩, hschedule, hnew⟩ := Except.of_bind_eq_ok hnew
  obtain ⟨capacity, hcapacity, hnew⟩ := Except.of_bind_eq_ok hnew
  obtain ⟨setup, hprover, hnew⟩ := Except.of_bind_eq_ok hnew
  obtain ⟨prepared, -, hnew⟩ := Except.of_bind_eq_ok hnew
  obtain ⟨stack, -, hnew⟩ := Except.of_bind_eq_ok hnew
  obtain ⟨-, hnew⟩ := Except.check_eq_ok.mp hnew
  obtain rfl := Except.ok.inj hnew
  exact Except.bind_eq_ok.mpr ⟨scheme, hscheme, Except.bind_eq_ok.mpr
    ⟨(schedule, profiles), hschedule, Except.bind_eq_ok.mpr ⟨capacity, hcapacity,
      Except.bind_eq_ok.mpr ⟨setup, hprover, Except.bind_eq_ok.mpr
        ⟨verifierSetup, hsetup, rfl⟩⟩⟩⟩⟩

omit [DecidableEq F] in
/-- The claimed values are the columns at the point in the opened groups, and zero elsewhere. -/
theorem CommittedWitness.values_eq {layout : PcsLayout} {columns : List (List ℕ)}
    {witness : CommittedColumns akita} {entries : List (akita.Group × ProverBatch akita)}
    (hwitness : CommittedWitness layout columns witness entries) {point : List F}
    {selectedColumns openingIndices selected : List ℕ} {rows : List (List F)}
    {evaluated : List (ℕ × F)} {values : List F}
    (hindices : selectedOpeningIndices akita.groupLayout layout witness.commitments
      selectedColumns = (.ok openingIndices : Except (PcsError akita.Error) (List ℕ)))
    (hrows : fieldColumns witness = .ok rows)
    (hselected : selectedLogicalColumns akita.groupLayout layout witness.commitments
      selectedColumns = (.ok selected : Except (PcsError akita.Error) (List ℕ)))
    (hevaluated : selected.mapM (evaluateColumn rows point) =
      (.ok evaluated : Except (PcsError akita.Error) (List (ℕ × F))))
    (hvalues : evaluated.foldlM storeValue
      (List.replicate witness.commitments.logicalColumnCount (0 : F)) =
        (.ok values : Except (PcsError akita.Error) (List F))) :
    values.length = columns.length ∧ ∀ column < columns.length,
      values[column]? = some (claimedValue layout columns point openingIndices column) := by
  have hcount := hwitness.logicalColumnCount
  -- the stored entries are the selected columns, each with its value
  have hentries := mapM_evaluateColumn hevaluated
  have hindexes : evaluated.map Prod.fst = selected := by
    rw [hentries, List.map_map]
    exact List.map_id _
  have hvalue : ∀ entry ∈ evaluated,
      entry.2 = (fun index => extension point (tableOf (rows.getD index []))) entry.1 := by
    rw [hentries]
    exact List.forall_mem_map.mpr fun _ _ => rfl
  obtain ⟨hlength, hstored⟩ := @foldlM_storeValue F _
    (fun index => extension point (tableOf (rows.getD index []))) _ _ _ hvalue hvalues
  rw [List.length_replicate] at hlength hstored
  refine ⟨hlength.trans hcount, fun column hcolumn => ?_⟩
  have hmem : column ∈ selected ↔
      column / (layout.groupColumns * layout.groupsPerOpening) ∈ openingIndices := by
    unfold selectedLogicalColumns at hselected
    obtain ⟨indices, hsame, hrest⟩ := Except.of_bind_eq_ok hselected
    obtain rfl := Except.ok.inj (hindices.symm.trans hsame)
    obtain ⟨columnsPerOpening, hper, hrest⟩ := Except.of_bind_eq_ok hrest
    obtain ⟨capacity, -, hrest⟩ := Except.of_bind_eq_ok hrest
    obtain ⟨opened, hopened, hrest⟩ := Except.of_bind_eq_ok hrest
    obtain rfl := Except.ok.inj hrest
    obtain ⟨-, rfl⟩ := checked_eq_ok.mp hper
    rw [mem_openedColumns (Nat.mul_pos hwitness.valid.groupColumns_pos
      layout.groupsPerOpening_pos) hopened, hcount]
    exact and_iff_right hcolumn
  rw [hstored column (hcolumn.trans_eq hcount.symm), hindexes, claimedValue,
    hwitness.fieldColumns_eq hrows]
  by_cases hopen : column ∈ selected
  · rw [if_pos hopen, if_pos (hmem.mp hopen), List.getD_eq_getElem?_getD, List.getElem?_map,
      List.getElem?_range hcolumn, Option.map_some, Option.getD_some]
  · rw [if_neg hopen, if_neg (hmem.not.mp hopen), List.getElem?_replicate,
      if_pos (hcolumn.trans_eq hcount.symm)]

/-- What the prover builds is accepted, and its values are those of the columns it committed. -/
theorem proveSelectedOpening_verifies {layout : PcsLayout} {columns : List (List ℕ)}
    {witness : CommittedColumns akita} (hcomplete : akita.Complete layout)
    (hcommit : commitColumns akita layout columns = .ok witness) {point values : List F}
    {selectedColumns : List ℕ} {descriptor : List Byte} {opening : OpeningProof akita}
    (hprove : proveSelectedOpening witness point selectedColumns descriptor =
      .ok (values, opening)) :
    verifySelectedOpeningWithBackend layout witness.commitments point values selectedColumns
        descriptor opening = .ok () ∧
      ∀ column ∈ selectedColumns,
        values[column]? =
          some (extension point (tableOf (paddedColumn layout columns column))) := by
  obtain ⟨entries, hwitness⟩ := CommittedWitness.of_commit hcomplete hcommit
  unfold proveSelectedOpening at hprove
  rw [hwitness.sameLayout] at hprove
  obtain ⟨rows, hrows, hprove⟩ := Except.of_bind_eq_ok hprove
  obtain ⟨selected, hselected, hprove⟩ := Except.of_bind_eq_ok hprove
  obtain ⟨evaluated, hevaluated, hprove⟩ := Except.of_bind_eq_ok hprove
  obtain ⟨built, hvalues, hprove⟩ := Except.of_bind_eq_ok hprove
  obtain ⟨proofs, hopening, hprove⟩ := Except.of_bind_eq_ok hprove
  obtain ⟨rfl, rfl⟩ := Prod.mk.inj (Except.ok.inj hprove)
  obtain ⟨openingIndices, hindices, hopening⟩ := Except.of_bind_eq_ok hopening
  obtain ⟨hshape, hopening⟩ := Except.check_eq_ok.mp hopening
  obtain ⟨-, hopening⟩ := Except.check_eq_ok.mp hopening
  obtain ⟨stack, hstack, hopening⟩ := Except.of_bind_eq_ok hopening
  obtain ⟨groups, hgroups, hopening⟩ := Except.of_bind_eq_ok hopening
  obtain rfl := Except.ok.inj hopening
  obtain ⟨hlength, hvalue⟩ := hwitness.values_eq hindices hrows hselected hevaluated hvalues
  have hopens := Opens.of_selected hindices
  constructor
  · obtain ⟨verifierSetup, hsetup⟩ := hcomplete.setup hwitness.context
    have hproofs := Except.mapM_eq_ok.mp hgroups
    refine Except.bind_eq_ok.mpr ⟨openingIndices, hindices, Except.check_eq_ok.mpr
      ⟨hproofs.length_eq ▸ hshape, Except.bind_eq_ok.mpr
        ⟨_, verifierContext_eq_ok hwitness.context hsetup, Except.forM_eq_ok.mpr ?_⟩⟩⟩
    intro entry hentry
    obtain ⟨hopened, -⟩ := List.of_mem_zip hentry
    exact hwitness.proveOpening_verifies hcomplete hstack hsetup hlength hvalue hopened
      (List.forall₂_iff_zip.mp hproofs |>.2 hentry)
  · intro column hcolumn
    have hrange := (hopens.selected column hcolumn).trans_eq hwitness.logicalColumnCount
    rw [hvalue column hrange, claimedValue, if_pos ((hopens.mem _).mpr ⟨column, hcolumn, rfl⟩)]

/-- The group layout that a schedule artifact spells: variables, polynomials, and the number of
groups that come first. -/
def artifactLayout (artifact : List Byte) : PolynomialGroupLayout :=
  ⟨(artifact.getD 0 0).val, (artifact.getD 1 0).val⟩

/-- Claims of a point, values and the columns they are values of. -/
def checkClaims (claims : List (List F × List F × List (List F))) : Except Unit Unit :=
  rejectIf (∃ claim ∈ claims, claim.2.1 ≠ evaluations claim.1 claim.2.2) ()

theorem checkClaims_eq_ok {claims : List (List F × List F × List (List F))} :
    checkClaims claims = .ok () ↔
      ∀ claim ∈ claims, claim.2.1 = evaluations claim.1 claim.2.2 := by
  rw [checkClaims, rejectIf_eq_ok]
  push Not
  exact Iff.rfl

/-- Commitments in the clear: a group is its columns, and a proof is checked by evaluating them. -/
def transparent : Akita F where
  Error := Unit
  Scheme := List Byte
  Schedule := Unit
  Profile := PolynomialGroupLayout
  Precommitted := Unit
  Setup := Unit
  Prepared := Unit
  Stack := Unit
  VerifierSetup := Unit
  ClaimsLayout := Unit
  Group := PolynomialGroupLayout × List (List F)
  Hint := Unit
  Poly := List F
  Claims := List F × List F × List (List F)
  Opening := List (List F × List F × List (List F))
  Data := Unit
  Selection := Unit
  Statement := List (List F × List F × List (List F))
  Proof := Unit
  fromScheduleArtifact artifact := .ok artifact
  rows scheme := [⟨artifactLayout scheme,
    List.replicate (scheme.getD 2 0).val (artifactLayout scheme), ()⟩]
  profileGroup profile := profile
  setupProver _ _ _ := .ok ()
  prepareSetup _ := .ok ()
  stack _ _ := .ok ()
  prewarm _ _ _ := .ok ()
  claimsLayout _ _ := .ok ()
  setupVerifier _ _ := .ok ()
  setupVerifierForSchedule _ _ _ _ := .ok ()
  fromFieldEvals _ evals := .ok evals
  fieldCoeffs polynomial := polynomial
  fromOrderedGroups _ := .ok ()
  commit scheme _ polynomials _ _ := .ok ((artifactLayout scheme,
    polynomials.map (fun polynomial => polynomial.take (2 ^ (artifactLayout scheme).numVars))), ())
  groupLayout group := group.1
  newClaims point values group := .ok (point, values, group.2)
  fromGroups claims := .ok claims
  fromCommittedClaims _ _ _ _ := .ok ()
  selection _ := ()
  rowDigest _ := []
  newStatement _ openingClaims := .ok openingClaims
  toBytesLe _ := []
  batchedProve _ _ _ _ _ := .ok ()
  batchedVerify _ _ _ _ statement := checkClaims statement

/-- The columns behind a commitment in the clear. -/
def transparentTables (group : (@transparent F _ _).Group) : List (List F) := group.2

theorem groupClaims_transparent (point : List F) (commitments : List (@transparent F _ _).Group)
    (values : List (List F)) :
    groupClaims point commitments values =
      (.ok ((commitments.zip values).map (fun claim => (point, claim.2, claim.1.2))) :
        Except (PcsError (@transparent F _ _).Error) (List (@transparent F _ _).Claims)) :=
  mapM_eq_ok fun _ _ => rfl

theorem transparent_sound (layout : PcsLayout) :
    (@transparent F _ _).Sound layout transparentTables := by
  intro scheme verifierSetup commitments point values claims openingClaims selection statement
    transcript proof _ hclaims hopening hstatement haccept claim hclaim
  rw [groupClaims_transparent] at hclaims
  obtain rfl := Except.ok.inj hclaims
  obtain rfl := Except.ok.inj hopening
  obtain rfl := Except.ok.inj hstatement
  exact checkClaims_eq_ok.mp haccept _ (List.mem_map_of_mem hclaim)

/-- The schedule of a scheme has the groups of the layout. -/
theorem artifactLayout_of_new {layout : PcsLayout} {context : PcsProverContext (@transparent F _ _)}
    (hnew : PcsProverContext.new transparent layout = .ok context) :
    artifactLayout context.scheme = ⟨layout.numVariables, layout.groupColumns⟩ := by
  unfold PcsProverContext.new at hnew
  obtain ⟨scheme, -, hnew⟩ := Except.of_bind_eq_ok hnew
  obtain ⟨⟨schedule, profiles⟩, hschedule, hnew⟩ := Except.of_bind_eq_ok hnew
  obtain ⟨capacity, -, hnew⟩ := Except.of_bind_eq_ok hnew
  obtain ⟨setup, -, hnew⟩ := Except.of_bind_eq_ok hnew
  obtain ⟨prepared, -, hnew⟩ := Except.of_bind_eq_ok hnew
  obtain ⟨stack, -, hnew⟩ := Except.of_bind_eq_ok hnew
  obtain ⟨-, hnew⟩ := Except.check_eq_ok.mp hnew
  obtain rfl := Except.ok.inj hnew
  obtain ⟨hchecks, -⟩ := Except.check_eq_ok.mp hschedule
  have hgroups := rejectIf_eq_ok.mp hchecks
  push Not at hgroups
  exact hgroups.1

theorem transparent_complete (layout : PcsLayout) : (@transparent F _ _).Complete layout where
  coefficients := by
    intro evals polynomial hevals hlength
    obtain rfl := Except.ok.inj hevals
    exact List.take_of_length_le hlength.le
  setup := by
    intro context _
    refine ⟨(), ?_⟩
    unfold setupVerifierFor
    cases layout.openingMode <;> rfl
  accepts := by
    intro context stack verifierSetup entries point claims openingClaims proverData domain
      instanceBytes proof hnew _ _ hcommitted hclaims hopening _ _
    rw [groupClaims_transparent] at hclaims
    obtain rfl := Except.ok.inj hclaims
    obtain rfl := Except.ok.inj hopening
    refine ⟨_, rfl, checkClaims_eq_ok.mpr fun claim hclaim => ?_⟩
    obtain ⟨⟨group, values⟩, hmem, rfl⟩ := List.mem_map.mp hclaim
    rw [List.zip_map'] at hmem
    obtain ⟨entry, hentry, heq⟩ := List.mem_map.mp hmem
    obtain ⟨rfl, rfl⟩ := Prod.mk.inj heq
    -- the columns behind the commitment are those of its polynomials
    obtain ⟨groupContext, hcommit⟩ := hcommitted entry hentry
    obtain ⟨⟨group, hint⟩, hgroup, hrest⟩ := Except.of_bind_eq_ok hcommit
    have hfirst := congrArg Prod.fst (Except.ok.inj hrest)
    have hsame := congrArg Prod.fst (Except.ok.inj (Except.mapError_eq_ok.mp hgroup))
    show evaluations point (entry.2.tables layout) = evaluations point entry.1.2
    rw [← hfirst, ← hsame]
    rw [artifactLayout_of_new hnew]
    rfl

/-- Pairs of groups of one column of two rows. -/
def pairLayout : PcsLayout := ⟨1, 1, [1, 1, 1], [], [], .paired⟩

def pairColumns : CommittedColumns (@transparent (ZMod 3) _ _) :=
  { commitments := ⟨1, 4, 1, [(⟨1, 1⟩, [[1, 2]]), (⟨1, 1⟩, [[0, 1]]), (⟨1, 1⟩, [[2, 2]]),
      (⟨1, 1⟩, [[0, 1]])]⟩
    batches := [⟨(), [[1, 2]]⟩, ⟨(), [[0, 1]]⟩, ⟨(), [[2, 2]]⟩, ⟨(), [[0, 1]]⟩]
    context :=
      { layout := pairLayout, scheme := [1, 1, 1], setup := (), prepared := (), schedule := ()
        precommittedProfiles := [⟨1, 1⟩] } }

end Pcs

end Zksm83
