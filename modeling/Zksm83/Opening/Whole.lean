import Zksm83.Opening.Complete

/-!
# Openings of all columns

Relations and tables are opened whole, group after group. What the verifier accepts is true at every
column. What the prover builds for groups that are opened one by one is accepted; for groups that
are opened in pairs it builds nothing, as it counts groups where the check counts pairs. After
`pcs.rs` and `uniform/commitment.rs`.
-/

namespace Zksm83

namespace Pcs

open Sumcheck
open Multilinear (extension)

variable {F : Type} [Field F] [DecidableEq F] {akita : Akita F}

def validateOpeningShape {ε Group : Type} (groupLayout : Group → PolynomialGroupLayout)
    (layout : PcsLayout) (commitments : ColumnCommitments Group) (point logicalValues : List F)
    (openingCount : ℕ) : Except (PcsError ε) Unit := do
  commitments.validate groupLayout layout
  let expectedOpeningCount ← layout.openingCount commitments.groups.length
  rejectIf (point.length ≠ layout.numVariables ∨
    logicalValues.length ≠ commitments.logicalColumnCount ∨
    openingCount ≠ expectedOpeningCount) .shape

/-! ## The prover -/

section Prover

variable (layout : PcsLayout) (prover : PcsProverContext akita) (stack : akita.Stack)
  (columns : CommittedColumns akita) (point logicalValues : List F) (descriptor : List Byte)

def proveIndependentOpenings : Except (PcsError akita.Error) (List (GroupOpeningProof akita)) :=
  (columns.commitments.groups.zip columns.batches).zipIdx.mapM (fun entry => do
    let values ← paddedGroupValues layout logicalValues entry.2
    proveGroupBatch layout prover stack [entry.1.1] [entry.1.2] point [values] descriptor entry.2)

def provePairedOpenings : Except (PcsError akita.Error) (List (GroupOpeningProof akita)) :=
  ((chunks 2 columns.commitments.groups).zip (chunks 2 columns.batches)).zipIdx.mapM
    (fun entry => do
      let firstIndex ← checked (entry.2 * 2)
      let secondIndex ← checked (firstIndex + 1)
      let first ← paddedGroupValues layout logicalValues firstIndex
      let second ← paddedGroupValues layout logicalValues secondIndex
      proveGroupBatch layout prover stack entry.1.1 entry.1.2 point [first, second] descriptor
        entry.2)

end Prover

/-- The openings of all groups, by the mode of the layout. -/
def proveOpenings (layout : PcsLayout) (columns : CommittedColumns akita) (stack : akita.Stack)
    (point logicalValues : List F) (descriptor : List Byte) :
    Except (PcsError akita.Error) (List (GroupOpeningProof akita)) :=
  match layout.openingMode with
  | .independent =>
    proveIndependentOpenings layout columns.context stack columns point logicalValues descriptor
  | .paired =>
    provePairedOpenings layout columns.context stack columns point logicalValues descriptor

/-- The count of openings is checked with the number of batches, one for each group. -/
def proveOpeningWithBackend (layout : PcsLayout) (columns : CommittedColumns akita)
    (point logicalValues : List F) (instanceDescriptor : List Byte) :
    Except (PcsError akita.Error) (OpeningProof akita) := do
  validateOpeningShape akita.groupLayout layout columns.commitments point logicalValues
    columns.batches.length
  rejectIf (columns.context.layout ≠ layout) .shape
  let stack ← columns.context.stack
  let groups ← proveOpenings layout columns stack point logicalValues instanceDescriptor
  return ⟨groups⟩

/-! ## The verifier -/

def verifyOpeningWithBackend (layout : PcsLayout) (commitments : ColumnCommitments akita.Group)
    (point logicalValues : List F) (instanceDescriptor : List Byte)
    (opening : OpeningProof akita) : Except (PcsError akita.Error) Unit := do
  validateOpeningShape akita.groupLayout layout commitments point logicalValues
    opening.groups.length
  let (scheme, verifierSetup) ← verifierContext akita layout
  ((chunks layout.groupsPerOpening commitments.groups).zip opening.groups).zipIdx.forM
    (fun entry => verifyGroupBatch layout scheme verifierSetup entry.1.1 point logicalValues
      instanceDescriptor entry.2 entry.1.2)

/-! ## Shapes -/

/-- A valid shape: all groups are opened, as many at a time as the layout says. -/
structure WholeShape {Group : Type} (groupLayout : Group → PolynomialGroupLayout)
    (layout : PcsLayout) (commitments : ColumnCommitments Group) (point logicalValues : List F)
    (openingCount : ℕ) : Prop where
  valid : ValidCommitments groupLayout layout commitments
  point : point.length = layout.numVariables
  values : logicalValues.length = commitments.logicalColumnCount
  nonempty : commitments.groups.length ≠ 0
  openings : openingCount * layout.groupsPerOpening = commitments.groups.length

omit [Field F] [DecidableEq F] in
theorem WholeShape.of_validate {ε Group : Type} {groupLayout : Group → PolynomialGroupLayout}
    {layout : PcsLayout} {commitments : ColumnCommitments Group} {point logicalValues : List F}
    {openingCount : ℕ}
    (hvalidate : validateOpeningShape groupLayout layout commitments point logicalValues
      openingCount = (.ok () : Except (PcsError ε) Unit)) :
    WholeShape groupLayout layout commitments point logicalValues openingCount := by
  obtain ⟨hvalid, hvalidate⟩ := Except.check_eq_ok.mp hvalidate
  obtain ⟨expected, hexpected, hvalidate⟩ := Except.of_bind_eq_ok hvalidate
  obtain ⟨hgroups, hexpected⟩ := Except.check_eq_ok.mp hexpected
  obtain rfl := Except.ok.inj hexpected
  have hgroups := rejectIf_eq_ok.mp hgroups
  have hshape := rejectIf_eq_ok.mp hvalidate
  push Not at hgroups hshape
  exact ⟨ValidCommitments.of_validate hvalid, hshape.1, hshape.2.1, hgroups.1,
    by rw [hshape.2.2]; exact Nat.div_mul_cancel (Nat.dvd_of_mod_eq_zero hgroups.2)⟩

theorem rejectIf_failsOnly {ε : Type} {allowed : ε → Prop} {condition : Prop}
    [Decidable condition] {error : ε} (herror : allowed error) :
    (rejectIf condition error).FailsOnly allowed := by
  unfold rejectIf
  split
  · exact Except.FailsOnly.of_error herror
  · exact Except.FailsOnly.of_ok rfl

omit [Field F] [DecidableEq F] in
theorem validateOpeningShape_failsOnly {ε Group : Type}
    (groupLayout : Group → PolynomialGroupLayout) (layout : PcsLayout)
    (commitments : ColumnCommitments Group) (point logicalValues : List F) (openingCount : ℕ) :
    (validateOpeningShape groupLayout layout commitments point logicalValues openingCount).FailsOnly
      (fun error : PcsError ε => error = .shape) := by
  refine Except.FailsOnly.bind (rejectIf_failsOnly rfl) fun _ _ => ?_
  refine Except.FailsOnly.bind ?_ fun _ _ => rejectIf_failsOnly rfl
  exact Except.FailsOnly.bind (rejectIf_failsOnly rfl) fun _ _ => Except.FailsOnly.of_ok rfl

omit [DecidableEq F] in
/-- Groups that are opened in pairs are never opened whole. -/
theorem proveOpening_paired {layout : PcsLayout} (hmode : layout.openingMode = .paired)
    {columns : CommittedColumns akita}
    (hbatches : columns.batches.length = columns.commitments.groups.length)
    (point logicalValues : List F) (instanceDescriptor : List Byte) :
    proveOpeningWithBackend layout columns point logicalValues instanceDescriptor =
      .error .shape := by
  unfold proveOpeningWithBackend
  cases hvalidate : validateOpeningShape (ε := akita.Error) akita.groupLayout layout
      columns.commitments point logicalValues columns.batches.length with
  | ok checked =>
    have hshape := WholeShape.of_validate hvalidate
    have hopenings := hshape.openings
    have hnonempty := hshape.nonempty
    have hpairs : layout.groupsPerOpening = 2 := by rw [PcsLayout.groupsPerOpening, hmode]
    rw [hbatches, hpairs] at hopenings
    omega
  | error error =>
    obtain rfl := validateOpeningShape_failsOnly _ _ _ _ _ _ error hvalidate
    rfl

/-! ## Accepted openings -/

theorem getElem?_chunks {α : Type} {size index : ℕ} (values : List α) (hsize : 0 < size)
    (hindex : index * size < values.length) :
    (chunks size values)[index]? = some ((values.drop (index * size)).take size) := by
  rw [chunks, List.getElem?_map, List.getElem?_range ((lt_divCeil hsize).mpr hindex),
    Option.map_some]

/-- The entry of an opening among the openings with their indices. -/
theorem mem_zipIdx_zip {α β : Type} {left : List α} {right : List β} {index : ℕ} {first : α}
    {second : β} (hleft : left[index]? = some first) (hright : right[index]? = some second) :
    ((first, second), index) ∈ (left.zip right).zipIdx := by
  obtain ⟨hfirst, rfl⟩ := List.getElem?_eq_some_iff.mp hleft
  obtain ⟨hsecond, rfl⟩ := List.getElem?_eq_some_iff.mp hright
  rw [List.mem_zipIdx_iff_getElem?, List.getElem?_zip_eq_some]
  exact ⟨hleft, hright⟩

/-- Accepted values are true at every column. -/
theorem verifyOpening_whole {layout : PcsLayout} {committed : akita.Group → List (List F)}
    (hsound : akita.Sound layout committed) {commitments : ColumnCommitments akita.Group}
    {point logicalValues : List F} {descriptor : List Byte} {opening : OpeningProof akita}
    (haccept : verifyOpeningWithBackend layout commitments point logicalValues descriptor opening =
      .ok ()) :
    point.length = layout.numVariables ∧
      logicalValues.length = commitments.logicalColumnCount ∧
      ∀ column < commitments.logicalColumnCount, ∃ table,
        committedColumn committed layout commitments column = some table ∧
          logicalValues[column]? = some (extension point (tableOf table)) := by
  unfold verifyOpeningWithBackend at haccept
  obtain ⟨hshape, haccept⟩ := Except.check_eq_ok.mp haccept
  obtain ⟨⟨scheme, verifierSetup⟩, hsetup, haccept⟩ := Except.of_bind_eq_ok haccept
  have hshape := WholeShape.of_validate hshape
  refine ⟨hshape.point, hshape.values, fun column hcolumn => ?_⟩
  have hwidth := hshape.valid.groupColumns_pos
  have hpos := layout.groupsPerOpening_pos
  -- the group of the column, its opening, and its place in that opening
  have hgroup : column / layout.groupColumns < commitments.groups.length := by
    rw [hshape.valid.groups, lt_divCeil hwidth]
    exact (Nat.div_mul_le_self _ _).trans_lt hcolumn
  have hplace : column / layout.groupColumns / layout.groupsPerOpening * layout.groupsPerOpening +
      column / layout.groupColumns % layout.groupsPerOpening = column / layout.groupColumns :=
    Nat.div_add_mod' _ _
  have hindex : column / layout.groupColumns / layout.groupsPerOpening < opening.groups.length := by
    rw [← Nat.mul_lt_mul_right hpos, hshape.openings]
    omega
  have hverify := Except.forM_eq_ok.mp haccept _ (mem_zipIdx_zip
    (getElem?_chunks commitments.groups hpos (by omega)) (List.getElem?_eq_getElem hindex))
  obtain ⟨group, hget, hpadded⟩ := verifyGroupBatch_sound hsound hsetup hverify
    (Nat.mod_lt (column / layout.groupColumns) hpos)
  rw [List.getElem?_take_of_lt (Nat.mod_lt _ hpos), List.getElem?_drop, hplace] at hget
  rw [hplace] at hpadded
  have hentry := (paddedGroupValues_eq_ok hpadded).2 _ (Nat.mod_lt column hwidth)
  rw [evaluations, List.getElem?_map, Nat.div_add_mod'] at hentry
  obtain ⟨table, htable, hvalue⟩ := Option.map_eq_some_iff.mp hentry
  refine ⟨table, ?_, ?_⟩
  · rw [committedColumn, hget]
    exact htable
  · rw [hvalue, List.getElem?_eq_getElem (hcolumn.trans_eq hshape.values.symm),
      List.getElem_eq_getD 0]

/-! ## Built openings -/

omit [DecidableEq F] in
/-- In the loop over single groups, the step of an index builds the opening of that index. -/
theorem proveOpening_of_step {layout : PcsLayout} (hmode : layout.openingMode = .independent)
    {columns : CommittedColumns akita} {stack : akita.Stack} {point logicalValues : List F}
    {descriptor : List Byte} {index : ℕ} {group : akita.Group} {batch : ProverBatch akita}
    (hwidth : 0 < layout.groupColumns) (hgroup : columns.commitments.groups[index]? = some group)
    (hbatch : columns.batches[index]? = some batch) {opening : GroupOpeningProof akita}
    (hstep : (do
      let values ← paddedGroupValues layout logicalValues index
      proveGroupBatch layout columns.context stack [group] [batch] point [values] descriptor
        index) = (.ok opening : Except (PcsError akita.Error) (GroupOpeningProof akita))) :
    proveOpening layout columns stack point logicalValues descriptor index = .ok opening := by
  have hone : layout.groupsPerOpening = 1 := by rw [PcsLayout.groupsPerOpening, hmode]
  obtain ⟨values, hvalues, hstep⟩ := Except.of_bind_eq_ok hstep
  have hbound : index + 1 < 2 ^ 64 := by
    have hpadded := hvalues
    unfold paddedGroupValues at hpadded
    obtain ⟨start, hstart, hpadded⟩ := Except.of_bind_eq_ok hpadded
    obtain ⟨stop, hstop, -⟩ := Except.of_bind_eq_ok hpadded
    obtain ⟨-, rfl⟩ := checked_eq_ok.mp hstart
    obtain ⟨hlt, -⟩ := checked_eq_ok.mp hstop
    refine lt_of_le_of_lt ?_ hlt
    rw [← Nat.succ_mul]
    exact Nat.le_mul_of_pos_right _ hwidth
  have hslice {α : Type} {list : List α} {value : α} (hvalue : list[index]? = some value) :
      slice list index (index + 1) = (.ok [value] : Except (PcsError akita.Error) (List α)) := by
    obtain ⟨hlt, rfl⟩ := List.getElem?_eq_some_iff.mp hvalue
    refine Except.check_eq_ok.mpr ⟨rejectIf_eq_ok.mpr (by omega), congrArg Except.ok ?_⟩
    rw [Nat.add_sub_cancel_left, List.drop_eq_getElem_cons hlt, List.take_succ_cons, List.take_zero]
  unfold proveOpening
  rw [hone, Nat.mul_one]
  refine Except.bind_eq_ok.mpr ⟨index, checked_eq_ok.mpr ⟨by omega, rfl⟩,
    Except.bind_eq_ok.mpr ⟨index + 1, checked_eq_ok.mpr ⟨hbound, rfl⟩,
      Except.bind_eq_ok.mpr ⟨[group], hslice hgroup, Except.bind_eq_ok.mpr ⟨[batch],
        hslice hbatch, Except.bind_eq_ok.mpr ⟨[values], ?_, hstep⟩⟩⟩⟩⟩
  rw [Nat.add_sub_cancel_left]
  exact Except.mapM_eq_ok.mpr (.cons hvalues .nil)

/-- An accepted single opening is an accepted chunk of groups. -/
theorem verifyGroupBatch_of_opening {layout : PcsLayout}
    {commitments : ColumnCommitments akita.Group} {scheme : akita.Scheme}
    {verifierSetup : akita.VerifierSetup} {point logicalValues : List F} {descriptor : List Byte}
    {openingIndex : ℕ} {opening : GroupOpeningProof akita}
    (haccept : verifyOpening layout commitments scheme verifierSetup point logicalValues descriptor
      openingIndex opening = .ok ()) :
    verifyGroupBatch layout scheme verifierSetup
      ((commitments.groups.drop (openingIndex * layout.groupsPerOpening)).take
        layout.groupsPerOpening) point logicalValues descriptor openingIndex opening = .ok () := by
  unfold verifyOpening at haccept
  obtain ⟨groupStart, hstart, haccept⟩ := Except.of_bind_eq_ok haccept
  obtain ⟨-, rfl⟩ := checked_eq_ok.mp hstart
  obtain ⟨groupEnd, hend, haccept⟩ := Except.of_bind_eq_ok haccept
  obtain ⟨-, rfl⟩ := checked_eq_ok.mp hend
  obtain ⟨groups, hslice, haccept⟩ := Except.of_bind_eq_ok haccept
  obtain ⟨-, hslice⟩ := Except.check_eq_ok.mp hslice
  obtain rfl := Except.ok.inj hslice
  rwa [Nat.add_sub_cancel_left] at haccept

/-- The values of the columns at a point. -/
def ColumnValues (layout : PcsLayout) (columns : List (List ℕ)) (point values : List F) : Prop :=
  values.length = columns.length ∧ ∀ column < columns.length,
    values[column]? = some (extension point (tableOf (paddedColumn layout columns column)))

/-- What the prover builds for groups that are opened one by one is accepted. -/
theorem proveOpening_independent_verifies {layout : PcsLayout}
    (hmode : layout.openingMode = .independent) {columns : List (List ℕ)}
    {witness : CommittedColumns akita} (hcomplete : akita.Complete layout)
    (hcommit : commitColumns akita layout columns = .ok witness) {point values : List F}
    (hvalues : ColumnValues layout columns point values) {descriptor : List Byte}
    {opening : OpeningProof akita}
    (hprove : proveOpeningWithBackend layout witness point values descriptor = .ok opening) :
    verifyOpeningWithBackend layout witness.commitments point values descriptor opening =
      .ok () := by
  obtain ⟨entries, hwitness⟩ := CommittedWitness.of_commit hcomplete hcommit
  have hone : layout.groupsPerOpening = 1 := by rw [PcsLayout.groupsPerOpening, hmode]
  have hwidth := hwitness.valid.groupColumns_pos
  unfold proveOpeningWithBackend at hprove
  obtain ⟨hshape, hprove⟩ := Except.check_eq_ok.mp hprove
  obtain ⟨-, hprove⟩ := Except.check_eq_ok.mp hprove
  obtain ⟨stack, hstack, hprove⟩ := Except.of_bind_eq_ok hprove
  obtain ⟨groups, hgroups, hprove⟩ := Except.of_bind_eq_ok hprove
  obtain rfl := Except.ok.inj hprove
  obtain ⟨verifierSetup, hsetup⟩ := hcomplete.setup hwitness.context
  rw [proveOpenings, hmode] at hgroups
  have hsteps := Except.mapM_eq_ok.mp hgroups
  have hlength := hsteps.length_eq
  have hcounts : witness.batches.length = witness.commitments.groups.length := by
    rw [hwitness.batches, hwitness.groups, List.length_map, List.length_map]
  rw [List.length_zipIdx, List.length_zip, hcounts, Nat.min_self] at hlength
  refine Except.bind_eq_ok.mpr ⟨(), hlength ▸ hcounts ▸ hshape, Except.bind_eq_ok.mpr
    ⟨_, verifierContext_eq_ok hwitness.context hsetup, Except.forM_eq_ok.mpr ?_⟩⟩
  rintro ⟨⟨chunk, opening⟩, index⟩ hentry
  rw [List.mem_zipIdx_iff_getElem?, List.getElem?_zip_eq_some] at hentry
  obtain ⟨hchunk, hopening⟩ : (chunks layout.groupsPerOpening witness.commitments.groups)[index]? =
    some chunk ∧ groups[index]? = some opening := hentry
  obtain ⟨hindex, rfl⟩ := List.getElem?_eq_some_iff.mp hopening
  have hgroup : index < witness.commitments.groups.length := hlength ▸ hindex
  have hbatch : index < witness.batches.length := hcounts ▸ hgroup
  rw [getElem?_chunks _ layout.groupsPerOpening_pos (by rw [hone]; omega)] at hchunk
  obtain rfl := Option.some.inj hchunk
  have hstep := hsteps.get (i := index)
    (by rwa [List.length_zipIdx, List.length_zip, hcounts, Nat.min_self]) hindex
  simp only [List.get_eq_getElem, List.getElem_zipIdx, List.getElem_zip, Nat.zero_add] at hstep
  have hprove := proveOpening_of_step hmode hwidth (List.getElem?_eq_getElem hgroup)
    (List.getElem?_eq_getElem hbatch) hstep
  have hclaimed : ∀ column < columns.length, values[column]? = some (claimedValue layout columns
      point (List.range witness.commitments.groups.length) column) := by
    intro column hcolumn
    have hopened : column / (layout.groupColumns * layout.groupsPerOpening) <
        witness.commitments.groups.length := by
      rw [hone, Nat.mul_one, hwitness.valid.groups, lt_divCeil hwidth, hwitness.logicalColumnCount]
      exact (Nat.div_mul_le_self _ _).trans_lt hcolumn
    rw [hvalues.2 column hcolumn, claimedValue, if_pos (List.mem_range.mpr hopened)]
  exact verifyGroupBatch_of_opening (hwitness.proveOpening_verifies hcomplete hstack hsetup
    hvalues.1 hclaimed (List.mem_range.mpr hgroup) hprove)

/-- Openings of all columns: with a sound Akita, accepted values are true at every column. With a
complete one, what the prover builds from its committed columns and their values is accepted when
groups are opened one by one; when they are opened in pairs, the prover never builds an opening,
whatever the columns, the point and the values are. -/
theorem whole_openings {committed : akita.Group → List (List F)}
    (hsound : ∀ layout, akita.Sound layout committed)
    (hcomplete : ∀ layout, akita.Complete layout) :
    (∀ layout (commitments : ColumnCommitments akita.Group) (point logicalValues : List F)
      (descriptor : List Byte) (opening : OpeningProof akita),
      verifyOpeningWithBackend layout commitments point logicalValues descriptor opening =
        .ok () →
      logicalValues.length = commitments.logicalColumnCount ∧
      ∀ column < commitments.logicalColumnCount, ∃ table,
        committedColumn committed layout commitments column = some table ∧
          logicalValues[column]? = some (extension point (tableOf table))) ∧
    ∀ layout (columns : List (List ℕ)) (witness : CommittedColumns akita) (point values : List F)
      (descriptor : List Byte), commitColumns akita layout columns = .ok witness →
      (layout.openingMode = .independent → ColumnValues layout columns point values →
        ∀ opening, proveOpeningWithBackend layout witness point values descriptor = .ok opening →
          verifyOpeningWithBackend layout witness.commitments point values descriptor opening =
            .ok ()) ∧
      (layout.openingMode = .paired →
        proveOpeningWithBackend layout witness point values descriptor = .error .shape) := by
  refine ⟨fun layout commitments point logicalValues descriptor opening haccept =>
      (verifyOpening_whole (hsound layout) haccept).2, ?_⟩
  intro layout columns witness point values descriptor hcommit
  refine ⟨fun hmode hvalues opening hprove => proveOpening_independent_verifies hmode
    (hcomplete layout) hcommit hvalues hprove, fun hmode => ?_⟩
  obtain ⟨entries, hwitness⟩ := CommittedWitness.of_commit (hcomplete layout) hcommit
  refine proveOpening_paired hmode ?_ point values descriptor
  rw [hwitness.batches, hwitness.groups, List.length_map, List.length_map]

/-- One group of two columns. -/
def singleLayout : PcsLayout := ⟨1, 2, [1, 2, 0], [], [], .independent⟩

def singleColumns : CommittedColumns (@transparent (ZMod 3) _ _) :=
  { commitments := ⟨1, 2, 2, [(⟨1, 2⟩, [[1, 2], [0, 1]])]⟩
    batches := [⟨(), [[1, 2], [0, 1]]⟩]
    context :=
      { layout := singleLayout, scheme := [1, 2, 0], setup := (), prepared := (), schedule := ()
        precommittedProfiles := [] } }

/-- Two columns, opened at 2 with their values; and four columns in pairs of groups, which are not
opened. -/
theorem whole_openings_small :
    verifyOpeningWithBackend singleLayout singleColumns.commitments [2] [0, 2] []
        ⟨[⟨(), [0, 2], ()⟩]⟩ = .ok () ∧
      (∃ table, committedColumn transparentTables singleLayout singleColumns.commitments 1 =
          some table ∧
        ([0, 2] : List (ZMod 3))[1]? = some (extension [(2 : ZMod 3)] (tableOf table))) ∧
      proveOpeningWithBackend pairLayout pairColumns [2] [0, 2, 2, 2] [] = .error .shape := by
  have hopenings := whole_openings (@transparent_sound (ZMod 3) _ _) transparent_complete
  have hcommit : commitColumns (@transparent (ZMod 3) _ _) singleLayout [[1, 2], [0, 1]] =
      .ok singleColumns := rfl
  have hpairs : commitColumns (@transparent (ZMod 3) _ _) pairLayout
      [[1, 2], [0, 1], [2, 2], [0, 1]] = .ok pairColumns := rfl
  have hvalues : ColumnValues singleLayout [[1, 2], [0, 1]] [2] [(0 : ZMod 3), 2] := by
    refine ⟨rfl, fun column hcolumn => ?_⟩
    have htwo : column < 2 := hcolumn
    interval_cases column <;> rfl
  have hverify := (hopenings.2 _ _ _ [2] [0, 2] [] hcommit).1 rfl hvalues
    ⟨[⟨(), [0, 2], ()⟩]⟩ rfl
  refine ⟨hverify, (hopenings.1 _ _ _ _ _ _ hverify).2 1 ?_, ?_⟩
  · exact Nat.one_lt_two
  · exact (hopenings.2 _ _ _ [2] [0, 2, 2, 2] [] hpairs).2 rfl

end Pcs

end Zksm83
