import Zksm83.Library.Reading
import Zksm83.Sumcheck.Zerocheck

/-!
# Buffers of constraint values

A relation writes the values of its constraints into a buffer that the caller may have used before.
It gives slices of the buffer to the relations that it is composed of, and it pushes its own
constraints into the remaining slice. `Evaluates` says that a relation accepts exactly the rows and
the buffers of its own lengths, and that it then leaves a given list of constraints, whatever the
buffer held. The compositions of `block_*.rs` keep this.
-/

namespace Zksm83

open Constraint

namespace Uniform

variable {F : Type}

/-! ## Sinks -/

/-- A slice of a buffer that is filled from its start on. -/
structure ConstraintSink (F : Type) where
  constraints : List F
  cursor : ℕ

namespace ConstraintSink

def new (constraints : List F) : ConstraintSink F := ⟨constraints, 0⟩

def push (sink : ConstraintSink F) (value : F) : Except UniformError (ConstraintSink F) := do
  rejectIf (sink.constraints.length ≤ sink.cursor) .shape
  return ⟨sink.constraints.set sink.cursor value, sink.cursor + 1⟩

def pushAll (sink : ConstraintSink F) (values : List F) : Except UniformError (ConstraintSink F) :=
  values.foldlM push sink

/-- The slice has to be full. -/
def finish (sink : ConstraintSink F) : Except UniformError (List F) := do
  rejectIf (sink.cursor ≠ sink.constraints.length) .shape
  return sink.constraints

/-- The rest of the slice is zeroed; the result says how much was used. -/
def finishPadded [Zero F] (sink : ConstraintSink F) : Except UniformError (List F × ℕ) := do
  rejectIf (sink.constraints.length < sink.cursor) .shape
  return (sink.constraints.take sink.cursor ++
    List.replicate (sink.constraints.length - sink.cursor) 0, sink.cursor)

/-- A push writes the value after those that were pushed before. -/
theorem push_eq (written rest : List F) (value old : F) :
    push ⟨written ++ old :: rest, written.length⟩ value =
      .ok ⟨(written ++ [value]) ++ rest, (written ++ [value]).length⟩ := by
  have hroom : ¬ (written ++ old :: rest).length ≤ written.length := by simp
  have hset : (written ++ old :: rest).set written.length value = (written ++ [value]) ++ rest := by
    simp
  rw [push, rejectIf_eq_ok.mpr hroom]
  show Except.ok (⟨(written ++ old :: rest).set written.length value, written.length + 1⟩ :
    ConstraintSink F) = _
  rw [hset, List.length_append]
  rfl

/-- The pushed values stand in the slice in their order. -/
theorem pushAll_eq (values written rest : List F) (hroom : values.length ≤ rest.length) :
    pushAll ⟨written ++ rest, written.length⟩ values =
      .ok ⟨(written ++ values) ++ rest.drop values.length, (written ++ values).length⟩ := by
  induction values generalizing written rest with
  | nil => simp [pushAll, pure, Except.pure]
  | cons value values ih =>
    obtain _ | ⟨old, rest⟩ := rest
    · simp at hroom
    · have hnext := ih (written ++ [value]) rest (by simpa using hroom)
      show (push _ value >>= fun sink => pushAll sink values) = _
      rw [push_eq]
      refine hnext.trans ?_
      rw [List.append_assoc written [value] values]
      rfl

/-- A new sink takes as many values as its slice has places. -/
theorem pushAll_new (values constraints : List F) (hroom : values.length ≤ constraints.length) :
    (new constraints).pushAll values =
      .ok ⟨values ++ constraints.drop values.length, values.length⟩ :=
  pushAll_eq values [] constraints hroom

/-- The places that a sink did not reach are zero. -/
theorem finishPadded_eq [Zero F] (values rest : List F) :
    finishPadded ⟨values ++ rest, values.length⟩ =
      .ok (values ++ List.replicate rest.length 0, values.length) := by
  have hinside : ¬ (values ++ rest).length < values.length := by simp
  rw [finishPadded, rejectIf_eq_ok.mpr hinside]
  simp [bind, Except.bind, pure, Except.pure]

end ConstraintSink

/-- A slice is filled with values. -/
def fillConstraints (values constraints : List F) : Except UniformError (List F) := do
  let sink ← (ConstraintSink.new constraints).pushAll values
  sink.finish

/-- A slice that is filled with as many values as it has places holds these values. -/
theorem fillConstraints_eq {values constraints : List F}
    (hlength : constraints.length = values.length) :
    fillConstraints values constraints = .ok values := by
  have hdrop : constraints.drop values.length = [] := List.drop_of_length_le hlength.le
  rw [fillConstraints, ConstraintSink.pushAll_new values constraints hlength.ge, hdrop, List.append_nil]
  show ConstraintSink.finish ⟨values, values.length⟩ = _
  rw [ConstraintSink.finish, rejectIf_eq_ok.mpr (by simp)]
  rfl

/-! ## Writes at given places -/

/-- `get_mut(index)`, written in place. -/
def writeAt (constraints : List F) (entry : ℕ × F) : Except UniformError (List F) := do
  rejectIf (constraints.length ≤ entry.1) .shape
  return constraints.set entry.1 entry.2

def writeEntries (entries : List (ℕ × F)) (constraints : List F) : Except UniformError (List F) :=
  entries.foldlM writeAt constraints

/-- Writes at places of a buffer leave a list that has the written values at their places and the
values of the buffer elsewhere. -/
theorem writeEntries_eq_of_agree {values : List F} (entries : List (ℕ × F)) (constraints : List F)
    (hlength : constraints.length = values.length)
    (hvalues : ∀ entry ∈ entries, values[entry.1]? = some entry.2)
    (hothers : ∀ index, index ∉ entries.map Prod.fst → constraints[index]? = values[index]?) :
    writeEntries entries constraints = .ok values := by
  induction entries generalizing constraints with
  | nil => exact congrArg Except.ok (List.ext_getElem? fun index => hothers index (by simp))
  | cons entry entries ih =>
    have hentry := hvalues entry (by simp)
    obtain ⟨hinside, hvalue⟩ := List.getElem?_eq_some_iff.mp hentry
    have hnext := ih (constraints.set entry.1 entry.2) (by rw [List.length_set, hlength])
      (fun other hother => hvalues other (List.mem_cons_of_mem _ hother)) fun index hindex => by
        by_cases heq : entry.1 = index
        · rw [← heq, List.getElem?_set_self (hlength ▸ hinside), hentry]
        · rw [List.getElem?_set_ne heq]
          exact hothers index (by simp [hindex, Ne.symm heq])
    show (writeAt constraints entry >>= fun next => writeEntries entries next) = _
    rw [writeAt, rejectIf_eq_ok.mpr (Nat.not_le.mpr (hlength ▸ hinside))]
    exact hnext

/-- Writes at all places of a buffer leave the written values. -/
theorem writeEntries_eq {values : List F} {entries : List (ℕ × F)} {constraints : List F}
    (hlength : constraints.length = values.length)
    (hvalues : ∀ entry ∈ entries, values[entry.1]? = some entry.2)
    (hall : ∀ index < values.length, index ∈ entries.map Prod.fst) :
    writeEntries entries constraints = .ok values := by
  refine writeEntries_eq_of_agree entries constraints hlength hvalues fun index hindex => ?_
  have houtside : values.length ≤ index := Nat.le_of_not_lt fun hlt => hindex (hall index hlt)
  rw [List.getElem?_eq_none houtside, List.getElem?_eq_none (hlength ▸ houtside)]

/-! ## Relations that overwrite their buffer -/

variable [Zero F]

/-- The columns of a row that is given as a list. -/
def listRow (row : List F) : Row F := fun column => row.getD column 0

@[simp] theorem slice_listRow (row : List F) (start : ℕ) :
    slice (listRow row) start = listRow (row.drop start) := by
  funext column
  simp [listRow]

/-- The first columns of a row are those of the row that ends after them. -/
theorem agreeWithin_take (row : List F) (limit : ℕ) :
    AgreeWithin Nat.succ limit (listRow (row.take limit)) (listRow row) := fun column hcolumn => by
  simp [listRow, List.getD_eq_getElem?_getD, List.getElem?_take_of_lt (Nat.lt_of_succ_le hcolumn)]

/-- A relation accepts the rows and buffers of its own lengths, and leaves the constraints of the
row. -/
structure Evaluates (relation : UniformRelation F) (constraints : Row F → List F) : Prop where
  reading : Reading Nat.succ relation.columnCount relation.constraintCount constraints
  overwritten : relation.constraintOutput = .overwritten
  evaluate_eq : ∀ row buffer, relation.evaluate row buffer =
    if row.length = relation.columnCount ∧ buffer.length = relation.constraintCount then
      .ok (constraints (listRow row)) else .error .shape

/-- A relation that checks the lengths of its row and buffer and writes all of the buffer. -/
def overwriting (columnCount constraintCount maxConstraintDegree : ℕ)
    (write : List F → List F → Except UniformError (List F)) : UniformRelation F where
  columnCount
  constraintCount
  maxConstraintDegree
  constraintOutput := .overwritten
  evaluate row constraints := do
    rejectIf (row.length ≠ columnCount ∨ constraints.length ≠ constraintCount) .shape
    write row constraints

theorem overwriting_evaluates {columnCount constraintCount maxConstraintDegree : ℕ}
    {write : List F → List F → Except UniformError (List F)} {constraints : Row F → List F}
    (hreading : Reading Nat.succ columnCount constraintCount constraints)
    (hwrite : ∀ row buffer : List F, row.length = columnCount → buffer.length = constraintCount →
      write row buffer = .ok (constraints (listRow row))) :
    Evaluates (overwriting columnCount constraintCount maxConstraintDegree write) constraints where
  reading := hreading
  overwritten := rfl
  evaluate_eq row buffer := by
    show (rejectIf (row.length ≠ columnCount ∨ buffer.length ≠ constraintCount) _ >>= fun _ =>
      write row buffer) = if row.length = columnCount ∧ buffer.length = constraintCount then _
        else _
    by_cases hshape : row.length = columnCount ∧ buffer.length = constraintCount
    · rw [if_pos hshape, rejectIf_eq_ok.mpr (by tauto)]
      exact hwrite row buffer hshape.1 hshape.2
    · rw [if_neg hshape, rejectIf, if_pos (by tauto)]
      rfl

/-- The constraints of another relation on the first columns, then those that are added. -/
def extended (inner : UniformRelation F) (columnCount additionalCount maxConstraintDegree : ℕ)
    (own : Row F → List F) : UniformRelation F :=
  overwriting columnCount (inner.constraintCount + additionalCount) maxConstraintDegree
    fun row constraints => do
      let innerConstraints ← inner.evaluate (row.take inner.columnCount)
        (constraints.take inner.constraintCount)
      let ownConstraints ← fillConstraints (own (listRow row))
        (constraints.drop inner.constraintCount)
      return innerConstraints ++ ownConstraints

/-- The constraints of two relations on the two parts of a row, then those that both share. -/
def composed (left right : UniformRelation F) (sharedCount maxConstraintDegree : ℕ)
    (constrainShared : List F → List F → List F → Except UniformError (List F)) :
    UniformRelation F :=
  overwriting (left.columnCount + right.columnCount)
    (left.constraintCount + right.constraintCount + sharedCount) maxConstraintDegree
    fun row constraints => do
      let leftRow := row.take left.columnCount
      let rightRow := row.drop left.columnCount
      let remainder := constraints.drop left.constraintCount
      let leftConstraints ← left.evaluate leftRow (constraints.take left.constraintCount)
      let rightConstraints ← right.evaluate rightRow (remainder.take right.constraintCount)
      let sharedConstraints ← constrainShared leftRow rightRow
        (remainder.drop right.constraintCount)
      return leftConstraints ++ rightConstraints ++ sharedConstraints

namespace Evaluates

variable {relation : UniformRelation F} {constraints : Row F → List F}

/-- A call succeeds on the lengths of the relation. -/
theorem eq_ok (h : Evaluates relation constraints) {row buffer : List F}
    (hrow : row.length = relation.columnCount)
    (hbuffer : buffer.length = relation.constraintCount) :
    relation.evaluate row buffer = .ok (constraints (listRow row)) := by
  rw [h.evaluate_eq, if_pos ⟨hrow, hbuffer⟩]

/-- A successful call leaves the constraints of its row. -/
theorem eq_of_eq_ok (h : Evaluates relation constraints) {row buffer values : List F}
    (hok : relation.evaluate row buffer = .ok values) : values = constraints (listRow row) := by
  rw [h.evaluate_eq] at hok
  split_ifs at hok
  exact (Except.ok.inj hok).symm

/-- A relation that is given the first columns of a row leaves its constraints of the whole row. -/
theorem evaluate_take (h : Evaluates relation constraints) (row buffer : List F)
    (hrow : relation.columnCount ≤ row.length)
    (hbuffer : relation.constraintCount ≤ buffer.length) :
    relation.evaluate (row.take relation.columnCount) (buffer.take relation.constraintCount) =
      .ok (constraints (listRow row)) := by
  rw [h.eq_ok (by simpa using hrow) (by simpa using hbuffer),
    h.reading.congr _ _ (agreeWithin_take row relation.columnCount)]

/-- Added constraints extend what a relation leaves. -/
theorem extended (h : Evaluates relation constraints) {columnCount additionalCount degree : ℕ}
    {own : Row F → List F} (hcolumns : relation.columnCount ≤ columnCount)
    (hown : Reading Nat.succ columnCount additionalCount own) :
    Evaluates (extended relation columnCount additionalCount degree own)
      (fun row => constraints row ++ own row) := by
  refine overwriting_evaluates ((h.reading.mono hcolumns).append hown)
    fun row buffer hrow hbuffer => ?_
  have hinner := h.evaluate_take row buffer (by omega) (by omega)
  have hrest : (buffer.drop relation.constraintCount).length = (own (listRow row)).length := by
    rw [List.length_drop, hbuffer, hown.length_eq]
    omega
  simp only [hinner, fillConstraints_eq hrest]
  rfl

/-- Two composed relations leave their constraints and the shared ones. -/
theorem composed (h : Evaluates relation constraints) {right : UniformRelation F}
    {constraints' : Row F → List F} (h' : Evaluates right constraints') {sharedCount degree : ℕ}
    {constrainShared : List F → List F → List F → Except UniformError (List F)}
    {shared : Row F → List F}
    (hshared : Reading Nat.succ (relation.columnCount + right.columnCount) sharedCount shared)
    (hwrite : ∀ row buffer : List F, buffer.length = sharedCount →
      constrainShared (row.take relation.columnCount) (row.drop relation.columnCount) buffer =
        .ok (shared (listRow row))) :
    Evaluates (composed relation right sharedCount degree constrainShared)
      (fun row => constraints row ++ constraints' (slice row relation.columnCount) ++
        shared row) := by
  refine overwriting_evaluates (((h.reading.mono (Nat.le_add_right _ _)).append
    h'.reading.slice).append hshared) fun row buffer hrow hbuffer => ?_
  have hleft := h.evaluate_take row buffer (by omega) (by omega)
  have hright : right.evaluate (row.drop relation.columnCount)
      ((buffer.drop relation.constraintCount).take right.constraintCount) =
        .ok (constraints' (listRow (row.drop relation.columnCount))) := by
    refine h'.eq_ok ?_ ?_
    · rw [List.length_drop, hrow]
      omega
    · rw [List.length_take, List.length_drop, hbuffer]
      omega
  have hrest := hwrite row ((buffer.drop relation.constraintCount).drop right.constraintCount)
    (by rw [List.length_drop, List.length_drop, hbuffer]; omega)
  simp only [hleft, hright, hrest, slice_listRow]
  rfl

end Evaluates

end Uniform

end Zksm83
