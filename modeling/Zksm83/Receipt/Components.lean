import Zksm83.Receipt.Wire

/-!
# Proof components

The parts of a segment proof and how each is written on the wire. Commitments, openings and field
elements come from the proof library, so their types and their codecs are parameters; every
structure of this crate is written as its fields, one after the other. After `wire.rs`, with the
structures of `pcs.rs`, `sumcheck.rs` and the modules of the single arguments.
-/

namespace Zksm83

/-! ## The proof library -/

/-- The canonical serialization of a library type: its two directions undo each other. A decoder may
need a context that is computed from the value. -/
structure AkitaCodec {Context α : Type} (contextOf : α → Context) where
  serializeCompressed : α → Except String (List Byte)
  deserializeCompressedExact : Context → List Byte → Except String α
  inverse (context : Context) (value : α) (bytes : List Byte) :
    deserializeCompressedExact context bytes = .ok value ↔
      serializeCompressed value = .ok bytes ∧ contextOf value = context

/-- The types that the proof library contributes to a receipt. -/
structure Akita where
  NativeField : Type
  CommittedGroup : Type
  BatchedProof : Type
  BatchedProofShape : Type
  shape : BatchedProof → BatchedProofShape
  field : AkitaCodec (fun _ : NativeField => ())
  group : AkitaCodec (fun _ : CommittedGroup => ())
  proof : AkitaCodec shape
  proofShape : AkitaCodec (fun _ : BatchedProofShape => ())
  /-- A field element takes at most 32 bytes. -/
  length_field {value : NativeField} {bytes : List Byte} :
    field.serializeCompressed value = .ok bytes → bytes.length ≤ 32
  /-- The dimensions in the profile of a committed group. -/
  numVars : CommittedGroup → ℕ
  numPolynomials : CommittedGroup → ℕ
  scheduleRowDigestBytes : ℕ

/-! ## Values on the wire -/

/-- The values of a type are written and read by an exact codec. Those that fit can be read back:
their sequences are short enough for the reader. -/
class Wire (α : Type) where
  codec : Codec WireError Byte α
  fits : α → Prop
  exact : codec.Exact fits

open Wire (codec fits)

/-- The codec of a structure: its fields one after the other. -/
abbrev Wire.struct {α Fields : Type} [Wire Fields] (fields : α → Fields) (build : Fields → α)
    (hbuild : ∀ value, build (fields value) = value)
    (hfields : ∀ value, fields (build value) = value) : Wire α where
  codec := codec.via fields build
  fits value := fits (fields value)
  exact := Wire.exact.via hbuild hfields

section Instances

variable {α β : Type}

instance : Wire UInt64 := ⟨Wire.u64, fun _ => True, Wire.u64_exact⟩

/-- A machine word that counts something. -/
instance : Wire ℕ := ⟨Wire.usize maxSequenceLength, _, Wire.usize_exact (by decide)⟩

instance {length : ℕ} : Wire (Vector Byte length) :=
  ⟨Wire.fixed length, fun _ => True, Wire.fixed_exact length⟩

instance [Wire α] [Wire β] : Wire (α × β) := ⟨codec.pair codec, _, Wire.exact.pair Wire.exact⟩

instance [Wire α] : Wire (List α) :=
  ⟨.counted (Wire.usize maxSequenceLength) codec, _,
    Wire.exact.counted (Wire.usize_exact (by decide))⟩

end Instances

/-! ## Library values on the wire -/

section Akita

variable {Context α : Type} {contextOf : α → Context}

def encodeAkita (library : AkitaCodec contextOf) (value : α) : Except WireError (List Byte) := do
  let bytes ← (library.serializeCompressed value).mapError .akita
  if maxBlobLength < bytes.length then throw .lengthLimit
  (Wire.blob maxBlobLength).encode bytes

def decodeAkita (library : AkitaCodec contextOf) (context : Context) (input : List Byte) :
    Except WireError (α × List Byte) := do
  let (bytes, rest) ← (Wire.blob maxBlobLength).decode input
  let value ← (library.deserializeCompressedExact context bytes).mapError .akita
  return (value, rest)

theorem akita_exact (library : AkitaCodec contextOf) (context : Context) :
    (Codec.mk (encodeAkita library) (decodeAkita library context)).Exact
      (fun value => contextOf value = context) where
  decode_encode := by
    intro value bytes hcontext hencode rest
    obtain ⟨inner, hinner, hencode⟩ := Except.of_bind_eq_ok hencode
    rw [Except.mapError_eq_ok] at hinner
    by_cases hlength : maxBlobLength < inner.length
    · simp only [if_pos hlength] at hencode
      cases hencode
    · simp only [if_neg hlength] at hencode
      show ((Wire.blob maxBlobLength).decode (bytes ++ rest) >>= _) = _
      rw [(Wire.blob_exact (by decide)).decode_encode (not_lt.mp hlength) hencode]
      show ((library.deserializeCompressedExact context inner).mapError _ >>= _) = _
      rw [(library.inverse context value inner).mpr ⟨hinner, hcontext⟩]
      rfl
  encode_decode := by
    intro input value rest hdecode
    obtain ⟨⟨inner, rest'⟩, hframe, hdecode⟩ := Except.of_bind_eq_ok hdecode
    obtain ⟨value', hvalue, hdecode⟩ := Except.of_bind_eq_ok hdecode
    cases hdecode
    obtain ⟨hinner, hcontext⟩ := (library.inverse _ _ _).mp (Except.mapError_eq_ok.mp hvalue)
    obtain ⟨hlength, bytes, hbytes, hinput⟩ :=
      (Wire.blob_exact (by decide)).encode_decode hframe
    refine ⟨hcontext, bytes, ?_, hinput⟩
    show ((library.serializeCompressed value).mapError _ >>= _) = _
    rw [hinner]
    show (if maxBlobLength < inner.length then _ else _) = _
    rw [if_neg (not_lt.mpr hlength)]
    exact hbytes

variable {akita : Akita}

/-- A field element: its serialization behind its length. -/
instance : Wire akita.NativeField where
  codec := .framed (Wire.blob 32)
    (fun value => (akita.field.serializeCompressed value).mapError .akita)
    (fun bytes => (akita.field.deserializeCompressedExact () bytes).mapError .akita)
  fits _ := True
  exact := by
    refine (Wire.blob_exact (by decide)).framed ⟨?_, ?_⟩ ?_
    · intro value bytes _ hencode
      exact Except.mapError_eq_ok.mpr ((akita.field.inverse _ _ _).mpr
        ⟨Except.mapError_eq_ok.mp hencode, rfl⟩)
    · intro bytes value hdecode
      exact ⟨trivial, Except.mapError_eq_ok.mpr ((akita.field.inverse _ _ _).mp
        (Except.mapError_eq_ok.mp hdecode)).1⟩
    · intro value bytes hencode
      exact akita.length_field (Except.mapError_eq_ok.mp hencode)

instance : Wire akita.CommittedGroup :=
  ⟨⟨encodeAkita akita.group, decodeAkita akita.group ()⟩, fun _ => True,
    (akita_exact akita.group ()).congr (by simp)⟩

/-- A batched proof, its shape in front. -/
instance : Wire akita.BatchedProof where
  codec := .headed ⟨encodeAkita akita.proofShape, decodeAkita akita.proofShape ()⟩ akita.shape
    (fun shape => ⟨encodeAkita akita.proof, decodeAkita akita.proof shape⟩)
  fits _ := True
  exact := by
    have hproof (shape : akita.BatchedProofShape) :=
      (akita_exact akita.proof shape).congr (fun value => (true_and (_ = _)).symm.to_iff)
    exact ((akita_exact akita.proofShape ()).headed hproof).congr (by simp)

/-- The digest of the schedule that an opening selects. -/
structure OpeningScheduleSelection (akita : Akita) where
  rowDigest : Vector Byte akita.scheduleRowDigestBytes

instance : Wire (OpeningScheduleSelection akita) :=
  .struct (·.rowDigest) .mk (fun _ => rfl) (fun _ => rfl)

/-- The three field elements of a product round. -/
instance : Wire (Vector akita.NativeField 3) :=
  ⟨codec.vector 3 .shape, _, Wire.exact.vector 3 .shape⟩

end Akita

/-! ## Structures of a segment proof -/

variable {akita : Akita}

/-- Verifier-visible identity of committed columns. -/
structure ColumnCommitments (akita : Akita) where
  numVariables : ℕ
  logicalColumnCount : ℕ
  groupColumns : ℕ
  groups : List akita.CommittedGroup

instance : Wire (ColumnCommitments akita) :=
  .struct
    (fun value => (value.numVariables, value.logicalColumnCount, value.groupColumns,
      value.groups))
    (fun (numVariables, logicalColumnCount, groupColumns, groups) => ⟨numVariables,
      logicalColumnCount, groupColumns, groups⟩)
    (fun _ => rfl) (fun _ => rfl)

structure WitnessCommitments (akita : Akita) where
  inner : ColumnCommitments akita

instance : Wire (WitnessCommitments akita) :=
  .struct (fun value => value.inner) .mk (fun _ => rfl) (fun _ => rfl)

structure GroupOpeningProof (akita : Akita) where
  selection : OpeningScheduleSelection akita
  openedValues : List akita.NativeField
  proof : akita.BatchedProof

instance : Wire (GroupOpeningProof akita) :=
  .struct
    (fun value => (value.selection, value.openedValues, value.proof))
    (fun (selection, openedValues, proof) => ⟨selection, openedValues, proof⟩)
    (fun _ => rfl) (fun _ => rfl)

/-- One opening for every commitment group. -/
structure OpeningProof (akita : Akita) where
  groups : List (GroupOpeningProof akita)

instance : Wire (OpeningProof akita) :=
  .struct (fun value => value.groups) .mk (fun _ => rfl) (fun _ => rfl)

structure ProductSumcheckProof (akita : Akita) where
  rounds : List (Vector akita.NativeField 3)
  finalLeft : akita.NativeField
  finalRight : akita.NativeField

instance : Wire (ProductSumcheckProof akita) :=
  .struct
    (fun value => (value.rounds, value.finalLeft, value.finalRight))
    (fun (rounds, finalLeft, finalRight) => ⟨rounds, finalLeft, finalRight⟩)
    (fun _ => rfl) (fun _ => rfl)

structure SumOfProductsSumcheckProof (akita : Akita) where
  rounds : List (List akita.NativeField)
  finalTerms : List (List akita.NativeField)

instance : Wire (SumOfProductsSumcheckProof akita) :=
  .struct
    (fun value => (value.rounds, value.finalTerms))
    (fun (rounds, finalTerms) => ⟨rounds, finalTerms⟩)
    (fun _ => rfl) (fun _ => rfl)

structure UniformRelationProof (akita : Akita) where
  logicalColumnCount : ℕ
  sumcheckRounds : List (List akita.NativeField)
  openedValues : List akita.NativeField
  opening : OpeningProof akita

instance : Wire (UniformRelationProof akita) :=
  .struct
    (fun value => (value.logicalColumnCount, value.sumcheckRounds, value.openedValues,
      value.opening))
    (fun (logicalColumnCount, sumcheckRounds, openedValues, opening) => ⟨logicalColumnCount,
      sumcheckRounds, openedValues, opening⟩)
    (fun _ => rfl) (fun _ => rfl)

structure CompositeUniformRelationProof (akita : Akita) where
  rounds : List (List akita.NativeField)
  leftValues : List akita.NativeField
  rightValues : List akita.NativeField
  leftOpening : OpeningProof akita
  rightOpening : OpeningProof akita

instance : Wire (CompositeUniformRelationProof akita) :=
  .struct
    (fun value => (value.rounds, value.leftValues, value.rightValues, value.leftOpening,
      value.rightOpening))
    (fun (rounds, leftValues, rightValues, leftOpening, rightOpening) => ⟨rounds, leftValues,
      rightValues, leftOpening, rightOpening⟩)
    (fun _ => rfl) (fun _ => rfl)

structure FixedIsaCommitments (akita : Akita) where
  inner : ColumnCommitments akita

instance : Wire (FixedIsaCommitments akita) :=
  .struct (fun value => value.inner) .mk (fun _ => rfl) (fun _ => rfl)

structure IsaLookupProof (akita : Akita) where
  tableCommitments : FixedIsaCommitments akita
  claimedOutput : akita.NativeField
  tableSumcheck : ProductSumcheckProof akita
  addressSumcheck : SumOfProductsSumcheckProof akita
  tableValues : List akita.NativeField
  traceCycleValues : List akita.NativeField
  traceAddressValues : List akita.NativeField
  tableOpening : OpeningProof akita
  traceCycleOpening : OpeningProof akita
  traceAddressOpening : OpeningProof akita

instance : Wire (IsaLookupProof akita) :=
  .struct
    (fun value => (value.tableCommitments, value.claimedOutput, value.tableSumcheck,
      value.addressSumcheck, value.tableValues, value.traceCycleValues, value.traceAddressValues,
      value.tableOpening, value.traceCycleOpening, value.traceAddressOpening))
    (fun (tableCommitments, claimedOutput, tableSumcheck, addressSumcheck, tableValues,
      traceCycleValues, traceAddressValues, tableOpening, traceCycleOpening, traceAddressOpening)
      => ⟨tableCommitments, claimedOutput, tableSumcheck, addressSumcheck, tableValues,
      traceCycleValues, traceAddressValues, tableOpening, traceCycleOpening, traceAddressOpening⟩)
    (fun _ => rfl) (fun _ => rfl)

structure ExecutionLookupProof (akita : Akita) where
  claimedOutput : akita.NativeField
  tableSumcheck : ProductSumcheckProof akita
  addressSumcheck : SumOfProductsSumcheckProof akita
  traceCycleValues : List akita.NativeField
  traceAddressValues : List akita.NativeField
  traceCycleOpening : OpeningProof akita
  traceAddressOpening : OpeningProof akita

instance : Wire (ExecutionLookupProof akita) :=
  .struct
    (fun value => (value.claimedOutput, value.tableSumcheck, value.addressSumcheck,
      value.traceCycleValues, value.traceAddressValues, value.traceCycleOpening,
      value.traceAddressOpening))
    (fun (claimedOutput, tableSumcheck, addressSumcheck, traceCycleValues, traceAddressValues,
      traceCycleOpening, traceAddressOpening) => ⟨claimedOutput, tableSumcheck, addressSumcheck,
      traceCycleValues, traceAddressValues, traceCycleOpening, traceAddressOpening⟩)
    (fun _ => rfl) (fun _ => rfl)

structure RomCommitment (akita : Akita) where
  logicalByteLength : UInt64
  inner : ColumnCommitments akita

instance : Wire (RomCommitment akita) :=
  .struct
    (fun value => (value.logicalByteLength, value.inner))
    (fun (logicalByteLength, inner) => ⟨logicalByteLength, inner⟩)
    (fun _ => rfl) (fun _ => rfl)

structure RomLookupProof (akita : Akita) where
  claimedOutput : akita.NativeField
  tableSumcheck : ProductSumcheckProof akita
  addressSumcheck : SumOfProductsSumcheckProof akita
  tableValues : List akita.NativeField
  traceCycleValues : List akita.NativeField
  traceAddressValues : List akita.NativeField
  tableOpening : OpeningProof akita
  traceCycleOpening : OpeningProof akita
  traceAddressOpening : OpeningProof akita

instance : Wire (RomLookupProof akita) :=
  .struct
    (fun value => (value.claimedOutput, value.tableSumcheck, value.addressSumcheck,
      value.tableValues, value.traceCycleValues, value.traceAddressValues, value.tableOpening,
      value.traceCycleOpening, value.traceAddressOpening))
    (fun (claimedOutput, tableSumcheck, addressSumcheck, tableValues, traceCycleValues,
      traceAddressValues, tableOpening, traceCycleOpening, traceAddressOpening) => ⟨claimedOutput,
      tableSumcheck, addressSumcheck, tableValues, traceCycleValues, traceAddressValues,
      tableOpening, traceCycleOpening, traceAddressOpening⟩)
    (fun _ => rfl) (fun _ => rfl)

structure MemoryCommitment (akita : Akita) where
  inner : ColumnCommitments akita

instance : Wire (MemoryCommitment akita) :=
  .struct (fun value => value.inner) .mk (fun _ => rfl) (fun _ => rfl)

structure ClockProof (akita : Akita) where
  values : List akita.NativeField
  opening : OpeningProof akita

instance : Wire (ClockProof akita) :=
  .struct
    (fun value => (value.values, value.opening))
    (fun (values, opening) => ⟨values, opening⟩)
    (fun _ => rfl) (fun _ => rfl)

structure Boundary.ColumnOpening (akita : Akita) where
  values : List akita.NativeField
  proof : OpeningProof akita

instance : Wire (Boundary.ColumnOpening akita) :=
  .struct
    (fun value => (value.values, value.proof))
    (fun (values, proof) => ⟨values, proof⟩)
    (fun _ => rfl) (fun _ => rfl)

structure BoundaryProof (akita : Akita) where
  sumcheck : SumOfProductsSumcheckProof akita
  initialValue : Boundary.ColumnOpening akita
  finalValue : Boundary.ColumnOpening akita
  finalTimestamp : Boundary.ColumnOpening akita
  initialInverse : Boundary.ColumnOpening akita
  finalInverse : Boundary.ColumnOpening akita

instance : Wire (BoundaryProof akita) :=
  .struct
    (fun value => (value.sumcheck, value.initialValue, value.finalValue, value.finalTimestamp,
      value.initialInverse, value.finalInverse))
    (fun (sumcheck, initialValue, finalValue, finalTimestamp, initialInverse, finalInverse) =>
      ⟨sumcheck, initialValue, finalValue, finalTimestamp, initialInverse, finalInverse⟩)
    (fun _ => rfl) (fun _ => rfl)

structure MultisetSumProof (akita : Akita) where
  traceValues : List akita.NativeField
  initialValues : List akita.NativeField
  finalValues : List akita.NativeField
  traceOpening : OpeningProof akita
  initialOpening : OpeningProof akita
  finalOpening : OpeningProof akita

instance : Wire (MultisetSumProof akita) :=
  .struct
    (fun value => (value.traceValues, value.initialValues, value.finalValues, value.traceOpening,
      value.initialOpening, value.finalOpening))
    (fun (traceValues, initialValues, finalValues, traceOpening, initialOpening, finalOpening) =>
      ⟨traceValues, initialValues, finalValues, traceOpening, initialOpening, finalOpening⟩)
    (fun _ => rfl) (fun _ => rfl)

structure PackedMutableMemoryProof (akita : Akita) where
  finalTimestamps : ColumnCommitments akita
  traceInverses : WitnessCommitments akita
  initialInverses : ColumnCommitments akita
  finalInverses : ColumnCommitments akita
  eventRelation : CompositeUniformRelationProof akita
  clock : ClockProof akita
  boundary : BoundaryProof akita
  multisetSum : MultisetSumProof akita

instance : Wire (PackedMutableMemoryProof akita) :=
  .struct
    (fun value => (value.finalTimestamps, value.traceInverses, value.initialInverses,
      value.finalInverses, value.eventRelation, value.clock, value.boundary, value.multisetSum))
    (fun (finalTimestamps, traceInverses, initialInverses, finalInverses, eventRelation, clock,
      boundary, multisetSum) => ⟨finalTimestamps, traceInverses, initialInverses, finalInverses,
      eventRelation, clock, boundary, multisetSum⟩)
    (fun _ => rfl) (fun _ => rfl)

structure ContinuitySumProof (akita : Akita) where
  values : List akita.NativeField
  opening : OpeningProof akita

instance : Wire (ContinuitySumProof akita) :=
  .struct
    (fun value => (value.values, value.opening))
    (fun (values, opening) => ⟨values, opening⟩)
    (fun _ => rfl) (fun _ => rfl)

structure PackedContinuityProof (akita : Akita) where
  inverseCommitments : WitnessCommitments akita
  relation : CompositeUniformRelationProof akita
  sum : ContinuitySumProof akita

instance : Wire (PackedContinuityProof akita) :=
  .struct
    (fun value => (value.inverseCommitments, value.relation, value.sum))
    (fun (inverseCommitments, relation, sum) => ⟨inverseCommitments, relation, sum⟩)
    (fun _ => rfl) (fun _ => rfl)

structure ProtocolLogCommitments (akita : Akita) where
  inner : ColumnCommitments akita

instance : Wire (ProtocolLogCommitments akita) :=
  .struct (fun value => value.inner) .mk (fun _ => rfl) (fun _ => rfl)

structure TableRelation.ColumnOpening (akita : Akita) where
  values : List akita.NativeField
  proof : OpeningProof akita

instance : Wire (TableRelation.ColumnOpening akita) :=
  .struct
    (fun value => (value.values, value.proof))
    (fun (values, proof) => ⟨values, proof⟩)
    (fun _ => rfl) (fun _ => rfl)

structure TableRelationProof (akita : Akita) where
  sumcheck : SumOfProductsSumcheckProof akita
  logs : TableRelation.ColumnOpening akita
  inverses : TableRelation.ColumnOpening akita

instance : Wire (TableRelationProof akita) :=
  .struct
    (fun value => (value.sumcheck, value.logs, value.inverses))
    (fun (sumcheck, logs, inverses) => ⟨sumcheck, logs, inverses⟩)
    (fun _ => rfl) (fun _ => rfl)

structure ProtocolLogSumProof (akita : Akita) where
  traceValues : List akita.NativeField
  logValues : List akita.NativeField
  tableInverseValues : List akita.NativeField
  traceOpening : OpeningProof akita
  logOpening : OpeningProof akita
  tableInverseOpening : OpeningProof akita

instance : Wire (ProtocolLogSumProof akita) :=
  .struct
    (fun value => (value.traceValues, value.logValues, value.tableInverseValues,
      value.traceOpening, value.logOpening, value.tableInverseOpening))
    (fun (traceValues, logValues, tableInverseValues, traceOpening, logOpening,
      tableInverseOpening) => ⟨traceValues, logValues, tableInverseValues, traceOpening,
      logOpening, tableInverseOpening⟩)
    (fun _ => rfl) (fun _ => rfl)

structure PackedProtocolLogProof (akita : Akita) where
  traceInverses : WitnessCommitments akita
  tableInverses : ColumnCommitments akita
  traceRelation : CompositeUniformRelationProof akita
  tableRelation : TableRelationProof akita
  sum : ProtocolLogSumProof akita

instance : Wire (PackedProtocolLogProof akita) :=
  .struct
    (fun value => (value.traceInverses, value.tableInverses, value.traceRelation,
      value.tableRelation, value.sum))
    (fun (traceInverses, tableInverses, traceRelation, tableRelation, sum) => ⟨traceInverses,
      tableInverses, traceRelation, tableRelation, sum⟩)
    (fun _ => rfl) (fun _ => rfl)

/-- The proof of one segment. -/
structure PackedBlockProof (akita : Akita) where
  commitments : WitnessCommitments akita
  relation : UniformRelationProof akita
  isaLookup : IsaLookupProof akita
  executionLookup : ExecutionLookupProof akita
  romLookup : RomLookupProof akita
  memory : PackedMutableMemoryProof akita
  continuity : PackedContinuityProof akita
  logs : PackedProtocolLogProof akita

instance : Wire (PackedBlockProof akita) :=
  .struct
    (fun value => (value.commitments, value.relation, value.isaLookup, value.executionLookup,
      value.romLookup, value.memory, value.continuity, value.logs))
    (fun (commitments, relation, isaLookup, executionLookup, romLookup, memory, continuity, logs)
      => ⟨commitments, relation, isaLookup, executionLookup, romLookup, memory, continuity, logs⟩)
    (fun _ => rfl) (fun _ => rfl)

end Zksm83
