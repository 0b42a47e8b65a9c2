import Zksm83.Library.Constraint

/-!
# The columns that a constraint reads

Constraint code is written over any type with the four operations, so it can also be run over a
type that only records what is read. `Reads` keeps the greatest weight among the columns that a
value was computed from. A `Reader` is a value of a row together with such a bound. Two rows that
agree on all columns up to the bound give the same value, so the closed run over `Reads` says on
which columns a constraint list depends: `Reading.of_reads`.
-/

namespace Constraint

/-- The greatest weight among the columns that a value was computed from. -/
structure Reads where
  weight : ℕ
  deriving DecidableEq

namespace Reads

/-- What an operation on two values reads. -/
def join (first second : Reads) : Reads :=
  ⟨bif Nat.ble first.weight second.weight then second.weight else first.weight⟩

theorem join_weight (first second : Reads) :
    (join first second).weight = max first.weight second.weight := by
  unfold join
  cases hle : Nat.ble first.weight second.weight with
  | true => exact (max_eq_right (Nat.le_of_ble_eq_true hle)).symm
  | false =>
    rw [← Bool.not_eq_true, Nat.ble_eq] at hle
    exact (max_eq_left (Nat.le_of_not_le hle)).symm

instance : Add Reads := ⟨join⟩

instance : Sub Reads := ⟨join⟩

instance : Mul Reads := ⟨join⟩

instance : NatCast Reads := ⟨fun _ => ⟨0⟩⟩

instance : InverseConstant Reads := ⟨fun _ => ⟨0⟩⟩

/-- Every column is read with its own weight. -/
def row (weight : ℕ → ℕ) : Row Reads := fun column => ⟨weight column⟩

/-- Whether all values were computed from columns of at most a given weight. -/
def within (limit : ℕ) (values : List Reads) : Bool :=
  values.all (fun reads => Nat.ble reads.weight limit)

end Reads

/-- Two rows with the same columns of at most a given weight. -/
def AgreeWithin {F : Type*} (weight : ℕ → ℕ) (limit : ℕ) (row row' : Row F) : Prop :=
  ∀ column, weight column ≤ limit → row column = row' column

/-- A value of a row that depends on columns of a bounded weight only. -/
structure Reader (F : Type*) (weight : ℕ → ℕ) where
  read : Row F → F
  reads : Reads
  sound : ∀ row row', AgreeWithin weight reads.weight row row' → read row = read row'

namespace Reader

variable {F : Type*} {weight : ℕ → ℕ}

/-- An operation on two values of a row. -/
def lift (op : F → F → F) (x y : Reader F weight) : Reader F weight where
  read row := op (x.read row) (y.read row)
  reads := x.reads.join y.reads
  sound row row' hagree := by
    have hx : x.read row = x.read row' := x.sound row row' fun column hcolumn =>
      hagree column (by rw [Reads.join_weight]; exact le_max_of_le_left hcolumn)
    have hy : y.read row = y.read row' := y.sound row row' fun column hcolumn =>
      hagree column (by rw [Reads.join_weight]; exact le_max_of_le_right hcolumn)
    rw [hx, hy]

/-- A value that does not depend on the row. -/
def constant (value : F) : Reader F weight := ⟨fun _ => value, ⟨0⟩, fun _ _ _ => rfl⟩

/-- Every column reads itself. -/
def row : Row (Reader F weight) := fun column =>
  ⟨fun row => row column, ⟨weight column⟩, fun _ _ hagree => hagree column le_rfl⟩

variable [Add F] [Sub F] [Mul F] [NatCast F]

instance : Add (Reader F weight) := ⟨lift (· + ·)⟩

instance : Sub (Reader F weight) := ⟨lift (· - ·)⟩

instance : Mul (Reader F weight) := ⟨lift (· * ·)⟩

instance : NatCast (Reader F weight) := ⟨fun n => constant (n : F)⟩

instance [InverseConstant F] : InverseConstant (Reader F weight) :=
  ⟨fun value => constant (inverseConstant value)⟩

/-- The value in a row. -/
def readHom (row : Row F) : ArithHom (Reader F weight) F :=
  ⟨fun reader => reader.read row, fun _ _ => rfl, fun _ _ => rfl, fun _ _ => rfl, fun _ => rfl⟩

/-- What the value was computed from. -/
def readsHom : ArithHom (Reader F weight) Reads :=
  ⟨reads, fun _ _ => rfl, fun _ _ => rfl, fun _ _ => rfl, fun _ => rfl⟩

theorem readHom_keeps [InverseConstant F] (row : Row F) :
    (readHom row : ArithHom (Reader F weight) F).KeepsInverses := fun _ => rfl

theorem readsHom_keeps [InverseConstant F] :
    (readsHom : ArithHom (Reader F weight) Reads).KeepsInverses := fun _ => rfl

@[simp] theorem readHom_row (values : Row F) :
    (readHom values).row (row : Row (Reader F weight)) = values := rfl

@[simp] theorem readsHom_row :
    (readsHom (F := F)).row (row : Row (Reader F weight)) = Reads.row weight := rfl

@[simp] theorem readHom_constant (values : Row F) (value : F) :
    (readHom values) (constant value : Reader F weight) = value := rfl

@[simp] theorem readsHom_constant (value : F) :
    readsHom (constant value : Reader F weight) = ((0 : ℕ) : Reads) := rfl

/-- The values of a row are as many as the recorded reads. -/
theorem length_eq {readers : List (Reader F weight)} {row : Row F} {values : List F}
    {reads : List Reads} (hvalues : readers.map (readHom row) = values)
    (hreads : readers.map readsHom = reads) : values.length = reads.length := by
  rw [← hvalues, ← hreads, List.length_map, List.length_map]

end Reader

/-- A list of constraints of a row has a fixed length and depends on columns of a bounded weight
only. -/
structure Reading {F : Type*} (weight : ℕ → ℕ) (limit count : ℕ) (constraints : Row F → List F) :
    Prop where
  length_eq : ∀ row, (constraints row).length = count
  congr : ∀ row row', AgreeWithin weight limit row row' → constraints row = constraints row'

namespace Reading

variable {F : Type*} {weight : ℕ → ℕ} {limit limit' count count' : ℕ}
  {constraints constraints' : Row F → List F}

/-- The reading of a constraint list, from a closed run that records what is read. -/
theorem of_reads [Add F] [Sub F] [Mul F] [NatCast F] (readers : List (Reader F weight))
    (reads : List Reads) (hreaders : ∀ row, readers.map (Reader.readHom row) = constraints row)
    (hreads : readers.map Reader.readsHom = reads) (hlength : reads.length = count)
    (hwithin : Reads.within limit reads = true) : Reading weight limit count constraints where
  length_eq row := (Reader.length_eq (hreaders row) hreads).trans hlength
  congr row row' hagree := by
    rw [← hreaders row, ← hreaders row']
    refine List.map_congr_left fun reader hreader => reader.sound row row' fun column hcolumn => ?_
    have hmem : Reader.readsHom reader ∈ reads := by
      rw [← hreads]
      exact List.mem_map_of_mem hreader
    have hweight := List.all_eq_true.mp hwithin _ hmem
    exact hagree column (hcolumn.trans (Nat.le_of_ble_eq_true hweight))

theorem mono (h : Reading weight limit count constraints) (hle : limit ≤ limit') :
    Reading weight limit' count constraints where
  length_eq := h.length_eq
  congr row row' hagree :=
    h.congr row row' fun column hcolumn => hagree column (hcolumn.trans hle)

/-- Constraints of the columns from a start on. -/
theorem slice {start : ℕ} (h : Reading Nat.succ limit count constraints) :
    Reading Nat.succ (start + limit) count (fun row => constraints (slice row start)) where
  length_eq row := h.length_eq _
  congr row row' hagree := h.congr _ _ fun column hcolumn => hagree (start + column) (by omega)

theorem append (h : Reading weight limit count constraints)
    (h' : Reading weight limit count' constraints') :
    Reading weight limit (count + count') (fun row => constraints row ++ constraints' row) where
  length_eq row := by rw [List.length_append, h.length_eq, h'.length_eq]
  congr row row' hagree := by rw [h.congr row row' hagree, h'.congr row row' hagree]

end Reading

end Constraint
