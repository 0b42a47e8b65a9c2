import Zksm83.Receipt.Verification

/-!
# Receipts from a stream

A receipt that may be too large for memory is verified frame by frame: the verifier holds one
segment at a time and counts what it has read. It accepts what the verifier of a whole buffer
accepts, and larger receipts of the same format. Read `reader_eq_ok` first. After
`receipt/stream.rs`.
-/

namespace Zksm83

abbrev maxNativeStreamReceiptBytes : ℕ := 2 * 1024 * 1024 * 1024 * 1024

/-! ## Bounded reading -/

/-- What is left of a stream, and how much has been read of it. -/
structure BoundedReader where
  inner : List Byte
  consumed : ℕ

namespace BoundedReader

def new (inner : List Byte) : BoundedReader := ⟨inner, 0⟩

def readExact (length : ℕ) (reader : BoundedReader) :
    Except NativeReceiptError (List Byte × BoundedReader) := do
  let next := reader.consumed + length
  rejectIf (2 ^ 64 ≤ next) .counter
  rejectIf (maxNativeStreamReceiptBytes < next) (.wire "stream receipt length limit")
  rejectIf (reader.inner.length < length) (.wire "receipt ended unexpectedly")
  return (reader.inner.take length, ⟨reader.inner.drop length, next⟩)

def fixed (length : ℕ) (reader : BoundedReader) :
    Except NativeReceiptError (Vector Byte length × BoundedReader) := do
  let (bytes, reader) ← reader.readExact length
  if h : bytes.length = length then return (⟨bytes.toArray, h⟩, reader)
  else throw (.wire "receipt ended unexpectedly")

def u64 (reader : BoundedReader) : Except NativeReceiptError (UInt64 × BoundedReader) := do
  let (bytes, reader) ← reader.fixed 8
  return (u64FromLeBytes bytes, reader)

def usize (maximum : ℕ) (reader : BoundedReader) :
    Except NativeReceiptError (ℕ × BoundedReader) := do
  let (length, reader) ← reader.u64
  if maximum < length.toNat then throw (.wire "component length limit")
  return (length.toNat, reader)

def blob (maximum : ℕ) (reader : BoundedReader) :
    Except NativeReceiptError (List Byte × BoundedReader) := do
  let (length, reader) ← reader.usize maximum
  reader.readExact length

def finish (reader : BoundedReader) : Except NativeReceiptError Unit :=
  rejectIf (reader.inner ≠ []) (.wire "receipt has trailing bytes")

end BoundedReader

/-! ## Verification -/

section Verify

variable (sha256 : List Byte → Digest) {akita : Akita}
  (verifyComponents : NativeProtocolVersion → PackedBlockProof akita →
    PackedBlockVerificationInputs akita → Except PackedBlockProofError Unit)

/-- The next frame of a stream and the segment in it. -/
def verifyFrame (rom : RomCommitment akita) (protocol : NativeProtocolVersion)
    (state : BoundedReader × ChainProgress akita) :
    Except NativeReceiptError (BoundedReader × ChainProgress akita) := do
  let (segmentBytes, reader) ← state.1.blob maxNativeSegmentBytes
  let segment ← decodeSegment segmentBytes
  let progress ← verifyNext sha256 verifyComponents rom protocol state.2 segment
  return (reader, progress)

/-- As many frames as are left. -/
def verifyFrameLoop (rom : RomCommitment akita) (protocol : NativeProtocolVersion) :
    ℕ → BoundedReader × ChainProgress akita →
      Except NativeReceiptError (BoundedReader × ChainProgress akita)
  | 0, state => .ok state
  | count + 1, state => do
    let state ← verifyFrame sha256 verifyComponents rom protocol state
    verifyFrameLoop rom protocol count state

def verifyFrames (reader : BoundedReader) (count : ℕ) (statement : NativeStatement)
    (rom : RomCommitment akita) (protocol : NativeProtocolVersion) :
    Except NativeReceiptError BoundedReader := do
  let (reader, progress) ← verifyFrameLoop sha256 verifyComponents rom protocol count
    (reader, .start akita statement.initial)
  ensureChainEnd statement progress
  return reader

def verifyNativeReceiptReader (input : List Byte) (expected : NativeStatement) :
    Except NativeReceiptError VerifiedNativeReceipt := do
  expected.validate sha256
  let (magic, reader) ← (BoundedReader.new input).fixed 8
  let protocol ← protocolFromReceiptMagic magic
  let (code, reader) ← reader.u64
  let encodedProtocol ← someOr (NativeProtocolVersion.fromCode code) .unsupportedBackend
  rejectIf (protocol ≠ encodedProtocol ∨ protocol ≠ expected.protocol) .unsupportedBackend
  let (statementBytes, reader) ← reader.blob maxNativeStatementBytes
  let statement ← NativeStatement.fromBytes sha256 statementBytes
  rejectIf (statement ≠ expected) .statementMismatch
  let (romBytes, reader) ← reader.blob maxNativeRomCommitmentBytes
  let rom : RomCommitment akita ← decodeRom romBytes
  let romIdentity ← directRomIdentityFor sha256 protocol rom
  rejectIf (romIdentity ≠ statement.rom) .statementMismatch
  let (count, reader) ← reader.usize maxNativeSegmentCount
  rejectIf (count ≠ statement.segmentCount.toNat) .statementMismatch
  let reader ← verifyFrames sha256 verifyComponents reader count statement rom protocol
  reader.finish
  return ⟨expected.statementId, expected.segmentCount⟩

end Verify

/-! ## Reading a stream and decoding a buffer -/

namespace BoundedReader

/-- The length of the stream: what was read and what is left. -/
def total (reader : BoundedReader) : ℕ := reader.consumed + reader.inner.length

/-- A reader that comes after another one: the stream is the same, and its limit is kept. -/
structure Follows (reader next : BoundedReader) : Prop where
  total_eq : next.total = reader.total
  consumed_le : next.consumed ≤ maxNativeStreamReceiptBytes

theorem Follows.trans {first second third : BoundedReader} (h : first.Follows second)
    (h' : second.Follows third) : first.Follows third :=
  ⟨h'.total_eq.trans h.total_eq, h'.consumed_le⟩

/-- The reader after what stands in front of the rest. -/
def skipTo (reader : BoundedReader) (rest : List Byte) : BoundedReader :=
  ⟨rest, reader.total - rest.length⟩

theorem total_skipTo {reader : BoundedReader} {rest : List Byte}
    (hle : rest.length ≤ reader.inner.length) : (reader.skipTo rest).total = reader.total := by
  show reader.total - rest.length + rest.length = reader.total
  have htotal : reader.inner.length ≤ reader.total := Nat.le_add_left _ _
  omega

/-- A reader in front of one within the limit is within the limit. -/
theorem consumed_le_of_total {reader next : BoundedReader} {limit : ℕ}
    (htotal : next.total = reader.total)
    (hle : next.inner.length ≤ reader.inner.length) (hnext : next.consumed ≤ limit) :
    reader.consumed ≤ limit := by
  unfold total at htotal
  omega

theorem ext_of_total {reader next : BoundedReader} (hinner : reader.inner = next.inner)
    (htotal : reader.total = next.total) : reader = next := by
  obtain ⟨inner, consumed⟩ := reader
  obtain ⟨inner', consumed'⟩ := next
  obtain rfl : inner = inner' := hinner
  obtain rfl : consumed = consumed' := Nat.add_right_cancel htotal
  rfl

end BoundedReader

/-- A reader of a stream that reads what a decoder decodes from a buffer, within the limit of the
stream. -/
structure Streams {ε α : Type}
    (read : BoundedReader → Except NativeReceiptError (α × BoundedReader))
    (decode : List Byte → Except ε (α × List Byte)) : Prop where
  shrinks {input rest : List Byte} {value : α} : decode input = .ok (value, rest) →
    rest.length ≤ input.length
  read_iff {reader next : BoundedReader} {value : α} :
    reader.consumed ≤ maxNativeStreamReceiptBytes →
      (read reader = .ok (value, next) ↔
        decode reader.inner = .ok (value, next.inner) ∧ reader.Follows next)

namespace Streams

variable {ε α β : Type} {read : BoundedReader → Except NativeReceiptError (α × BoundedReader)}
  {decode : List Byte → Except ε (α × List Byte)}

theorem of_exact {codec : Codec ε Byte α} {fits : α → Prop} (hexact : codec.Exact fits)
    {input rest : List Byte} {value : α} (hdecode : codec.decode input = .ok (value, rest)) :
    rest.length ≤ input.length := by
  obtain ⟨-, front, -, rfl⟩ := hexact.encode_decode hdecode
  rw [List.length_append]
  exact Nat.le_add_left _ _

/-- What a decoder decodes, the reader reads, as long as the stream is within its limit. -/
theorem exists_read (h : Streams read decode) {reader : BoundedReader} {value : α}
    {rest : List Byte} (htotal : reader.total ≤ maxNativeStreamReceiptBytes)
    (hdecode : decode reader.inner = .ok (value, rest)) :
    ∃ next, read reader = .ok (value, next) ∧ next.inner = rest ∧ next.total = reader.total := by
  have hnext := BoundedReader.total_skipTo (h.shrinks hdecode)
  have hconsumed : reader.consumed ≤ maxNativeStreamReceiptBytes :=
    (Nat.le_add_right _ _).trans htotal
  exact ⟨reader.skipTo rest, (h.read_iff hconsumed).mpr
    ⟨hdecode, hnext, (Nat.sub_le _ _).trans htotal⟩, rfl, hnext⟩

theorem readExact (length : ℕ) :
    Streams (fun reader => reader.readExact length) (WireReader.raw length) where
  shrinks := by
    intro input rest value hdecode
    unfold WireReader.raw at hdecode
    split at hdecode
    · cases hdecode
    · cases hdecode
      rw [List.length_drop]
      exact Nat.sub_le _ _
  read_iff := by
    intro reader next value _
    have hlimit : maxNativeStreamReceiptBytes < 2 ^ 64 := by decide
    have hdrop : (reader.inner.drop length).length = reader.inner.length - length :=
      List.length_drop
    unfold BoundedReader.readExact WireReader.raw
    simp only [↓Except.check_eq_ok, rejectIf_eq_ok, not_le, not_lt]
    constructor
    · rintro ⟨-, hwithin, hlong, h⟩
      cases h
      rw [if_neg (not_lt.mpr hlong)]
      refine ⟨rfl, ?_, hwithin⟩
      show reader.consumed + length + (reader.inner.drop length).length = reader.total
      unfold BoundedReader.total
      omega
    · rintro ⟨hdecode, htotal, hwithin⟩
      split at hdecode
      · cases hdecode
      · rename_i hlong
        obtain ⟨rfl, hinner⟩ := Prod.mk.inj (Except.ok.inj hdecode)
        have hconsumed : next.consumed = reader.consumed + length := by
          unfold BoundedReader.total at htotal
          rw [← hinner] at htotal
          omega
        refine ⟨by omega, by omega, by omega, ?_⟩
        obtain ⟨inner, consumed⟩ := next
        obtain rfl : reader.inner.drop length = inner := hinner
        obtain rfl : consumed = reader.consumed + length := hconsumed
        rfl

/-- One reader after another. -/
theorem bind {read' : α → BoundedReader → Except NativeReceiptError (β × BoundedReader)}
    {decode' : α → List Byte → Except ε (β × List Byte)} (h : Streams read decode)
    (h' : ∀ value, Streams (read' value) (decode' value)) :
    Streams (fun reader => read reader >>= fun pair => read' pair.1 pair.2)
      (fun input => decode input >>= fun pair => decode' pair.1 pair.2) where
  shrinks := by
    intro input rest value hdecode
    obtain ⟨⟨first, middle⟩, hfirst, hrest⟩ := Except.bind_eq_ok.mp hdecode
    exact ((h' first).shrinks hrest).trans (h.shrinks hfirst)
  read_iff := by
    intro reader next value hconsumed
    simp only [Except.bind_eq_ok]
    constructor
    · rintro ⟨⟨first, middle⟩, hfirst, hrest⟩
      obtain ⟨hdecode, htotal, hwithin⟩ := (h.read_iff hconsumed).mp hfirst
      obtain ⟨hdecode', htotal', hwithin'⟩ := ((h' first).read_iff hwithin).mp hrest
      exact ⟨⟨(first, middle.inner), hdecode, hdecode'⟩, htotal'.trans htotal, hwithin'⟩
    · rintro ⟨⟨⟨first, rest⟩, hdecode, hdecode'⟩, htotal, hwithin⟩
      have hmiddle := BoundedReader.total_skipTo (h.shrinks hdecode)
      -- the reader between the two has read no more than the last one
      have hmiddleWithin : (reader.skipTo rest).consumed ≤ maxNativeStreamReceiptBytes :=
        BoundedReader.consumed_le_of_total (htotal.trans hmiddle.symm)
          ((h' first).shrinks hdecode') hwithin
      exact ⟨(first, reader.skipTo rest),
        (h.read_iff hconsumed).mpr ⟨hdecode, hmiddle, hmiddleWithin⟩,
        ((h' first).read_iff hmiddleWithin).mpr ⟨hdecode', htotal.trans hmiddle.symm, hwithin⟩⟩

/-- A reader and a decoder that check and change what they have read in the same way. -/
theorem map (accepts : α → β → Prop) (h : Streams read decode)
    {change : α → BoundedReader → Except NativeReceiptError (β × BoundedReader)}
    {change' : α → List Byte → Except ε (β × List Byte)}
    (hchange : ∀ {raw reader value next}, change raw reader = .ok (value, next) ↔
      accepts raw value ∧ reader = next)
    (hchange' : ∀ {raw input value rest}, change' raw input = .ok (value, rest) ↔
      accepts raw value ∧ input = rest) :
    Streams (fun reader => read reader >>= fun pair => change pair.1 pair.2)
      (fun input => decode input >>= fun pair => change' pair.1 pair.2) where
  shrinks hresult := by
    obtain ⟨⟨raw, middle⟩, hraw, hrest⟩ := Except.bind_eq_ok.mp hresult
    obtain ⟨-, rfl⟩ := hchange'.mp hrest
    exact h.shrinks hraw
  read_iff := by
    intro reader next value hconsumed
    rw [Except.bind_eq_ok, Except.bind_eq_ok]
    constructor
    · rintro ⟨⟨raw, reader'⟩, hraw, hrest⟩
      obtain ⟨haccepts, rfl⟩ := hchange.mp hrest
      obtain ⟨hdecode, hfollows⟩ := (h.read_iff hconsumed).mp hraw
      exact ⟨⟨_, hdecode, hchange'.mpr ⟨haccepts, rfl⟩⟩, hfollows⟩
    · rintro ⟨⟨⟨raw, rest⟩, hraw, hrest⟩, hfollows⟩
      obtain ⟨haccepts, rfl⟩ := hchange'.mp hrest
      exact ⟨(raw, next), (h.read_iff hconsumed).mpr ⟨hraw, hfollows⟩,
        hchange.mpr ⟨haccepts, rfl⟩⟩

theorem mapError {ε' : Type} (h : Streams read decode) (error : ε → ε') :
    Streams read (fun input => (decode input).mapError error) where
  shrinks hdecode := h.shrinks (Except.mapError_eq_ok.mp hdecode)
  read_iff hconsumed := by
    rw [Except.mapError_eq_ok]
    exact h.read_iff hconsumed

theorem fixed (length : ℕ) :
    Streams (fun reader => reader.fixed length) (Wire.fixed length).decode := by
  have hvector {ε σ : Type} {error : ε} {bytes : List Byte} {state next : σ}
      {value : Vector Byte length} :
      (if h : bytes.length = length then return (⟨bytes.toArray, h⟩, state) else throw error :
        Except ε (Vector Byte length × σ)) = .ok (value, next) ↔
        bytes = value.toList ∧ state = next := by
    constructor
    · intro h
      by_cases hlength : bytes.length = length
      · rw [dif_pos hlength] at h
        cases h
        exact ⟨rfl, rfl⟩
      · rw [dif_neg hlength] at h
        cases h
    · rintro ⟨rfl, rfl⟩
      rw [dif_pos value.length_toList]
      rfl
  exact (readExact length).map (fun bytes (value : Vector Byte length) => bytes = value.toList)
    hvector hvector

theorem u64 : Streams (fun reader => reader.u64) Wire.u64.decode := by
  have hword {ε σ : Type} {bytes : Vector Byte 8} {state next : σ} {value : UInt64} :
      (return (u64FromLeBytes bytes, state) : Except ε (UInt64 × σ)) = .ok (value, next) ↔
        u64FromLeBytes bytes = value ∧ state = next :=
    (Iff.of_eq (Except.ok.injEq _ _)).trans (Iff.of_eq (Prod.mk.injEq _ _ _ _))
  exact (fixed 8).map (fun bytes value => u64FromLeBytes bytes = value) hword hword

theorem usize (maximum : ℕ) :
    Streams (fun reader => reader.usize maximum) (Wire.usize maximum).decode := by
  have hlength {ε σ : Type} {error : ε} {encoded : UInt64} {state next : σ} {value : ℕ} :
      (if maximum < encoded.toNat then throw error else return (encoded.toNat, state) :
        Except ε (ℕ × σ)) = .ok (value, next) ↔
        (encoded.toNat ≤ maximum ∧ encoded.toNat = value) ∧ state = next := by
    by_cases hle : maximum < encoded.toNat
    · rw [if_pos hle]
      exact ⟨nofun, fun h => absurd h.1.1 (not_le.mpr hle)⟩
    · rw [if_neg hle]
      show Except.ok _ = _ ↔ _
      rw [Except.ok.injEq, Prod.mk.injEq, and_iff_right (not_lt.mp hle)]
  exact u64.map (fun encoded value => encoded.toNat ≤ maximum ∧ encoded.toNat = value) hlength
    hlength

theorem blob (maximum : ℕ) :
    Streams (fun reader => reader.blob maximum) (Wire.blob maximum).decode :=
  (usize maximum).bind readExact

end Streams

/-! ## Frames -/

section Verify

variable {sha256 : List Byte → Digest} {akita : Akita}
  {verifyComponents : NativeProtocolVersion → PackedBlockProof akita →
    PackedBlockVerificationInputs akita → Except PackedBlockProofError Unit}
  {rom : RomCommitment akita} {protocol : NativeProtocolVersion}

/-- The next frame is that of a segment which the loop accepts. -/
theorem verifyFrame_eq_ok {reader next : BoundedReader} {progress after : ChainProgress akita}
    (hconsumed : reader.consumed ≤ maxNativeStreamReceiptBytes) :
    verifyFrame sha256 verifyComponents rom protocol (reader, progress) = .ok (next, after) ↔
      ∃ segment, segmentFrame.decode reader.inner = .ok (segment, next.inner) ∧
        reader.Follows next ∧
        verifyNext sha256 verifyComponents rom protocol progress segment = .ok after := by
  unfold verifyFrame segmentFrame
  simp only [Codec.decode_framed]
  constructor
  · intro h
    obtain ⟨⟨bytes, reader'⟩, hbytes, h⟩ := Except.bind_eq_ok.mp h
    obtain ⟨segment, hsegment, h⟩ := Except.bind_eq_ok.mp h
    obtain ⟨progress', hprogress, h⟩ := Except.bind_eq_ok.mp h
    cases h
    obtain ⟨hdecode, hfollows⟩ := ((Streams.blob _).read_iff hconsumed).mp hbytes
    exact ⟨segment, ⟨bytes, Except.mapError_eq_ok.mpr hdecode, hsegment⟩, hfollows, hprogress⟩
  · rintro ⟨segment, ⟨bytes, hdecode, hsegment⟩, hfollows, hprogress⟩
    have hbytes := ((Streams.blob _).read_iff hconsumed).mpr
      ⟨Except.mapError_eq_ok.mp hdecode, hfollows⟩
    exact Except.bind_eq_ok.mpr ⟨_, hbytes, Except.bind_eq_ok.mpr ⟨_, hsegment,
      Except.bind_eq_ok.mpr ⟨_, hprogress, rfl⟩⟩⟩

/-- The frames of a stream are the segments that follow in it, checked one after another. -/
theorem verifyFrameLoop_eq_ok {count : ℕ} {reader next : BoundedReader}
    {progress after : ChainProgress akita}
    (hconsumed : reader.consumed ≤ maxNativeStreamReceiptBytes) :
    verifyFrameLoop sha256 verifyComponents rom protocol count (reader, progress) =
        .ok (next, after) ↔
      ∃ segments, segmentFrame.decodeMany count reader.inner = .ok (segments, next.inner) ∧
        reader.Follows next ∧
        segments.foldlM (verifyNext sha256 verifyComponents rom protocol) progress = .ok after := by
  induction count generalizing reader progress with
  | zero =>
    constructor
    · intro h
      cases h
      exact ⟨[], rfl, ⟨rfl, hconsumed⟩, rfl⟩
    · rintro ⟨segments, hsegments, hfollows, hfold⟩
      obtain ⟨rfl, hinner⟩ := Prod.mk.inj (Except.ok.inj hsegments)
      cases hfold
      rw [BoundedReader.ext_of_total hinner hfollows.total_eq.symm]
      rfl
  | succ count ih =>
    constructor
    · intro h
      obtain ⟨⟨middle, progress'⟩, hframe, h⟩ := Except.bind_eq_ok.mp h
      obtain ⟨segment, hsegment, hfollows, hprogress⟩ := (verifyFrame_eq_ok hconsumed).mp hframe
      obtain ⟨segments, hsegments, hnext, hfold⟩ := (ih hfollows.consumed_le).mp h
      refine ⟨segment :: segments, ?_, hfollows.trans hnext, ?_⟩
      · exact Except.bind_eq_ok.mpr ⟨_, hsegment, Except.bind_eq_ok.mpr ⟨_, hsegments, rfl⟩⟩
      · rw [List.foldlM_cons]
        exact Except.bind_eq_ok.mpr ⟨_, hprogress, hfold⟩
    · rintro ⟨segments, hsegments, hnext, hfold⟩
      obtain ⟨⟨segment, rest⟩, hsegment, hsegments⟩ := Except.bind_eq_ok.mp hsegments
      obtain ⟨⟨segments', rest'⟩, hmany, hsegments⟩ := Except.bind_eq_ok.mp hsegments
      obtain ⟨rfl, rfl⟩ := Prod.mk.inj (Except.ok.inj hsegments)
      rw [List.foldlM_cons] at hfold
      obtain ⟨progress', hprogress, hfold⟩ := Except.bind_eq_ok.mp hfold
      have hmiddle := BoundedReader.total_skipTo (Streams.of_exact segmentFrame_exact hsegment)
      obtain ⟨-, -, front, -, hrest⟩ := segmentFrame_exact.encodeMany_decodeMany hmany
      have hwithin : (reader.skipTo rest).consumed ≤ maxNativeStreamReceiptBytes := by
        refine BoundedReader.consumed_le_of_total (hnext.total_eq.trans hmiddle.symm) ?_
          hnext.consumed_le
        show next.inner.length ≤ rest.length
        rw [hrest, List.length_append]
        exact Nat.le_add_left _ _
      exact Except.bind_eq_ok.mpr ⟨(reader.skipTo rest, progress'),
        (verifyFrame_eq_ok hconsumed).mpr ⟨segment, hsegment, ⟨hmiddle, hwithin⟩, hprogress⟩,
        (ih hwithin).mpr ⟨segments', hmany, ⟨hnext.total_eq.trans hmiddle.symm,
          hnext.consumed_le⟩, hfold⟩⟩

theorem verifyFrames_eq_ok {count : ℕ} {reader next : BoundedReader} {statement : NativeStatement}
    (hconsumed : reader.consumed ≤ maxNativeStreamReceiptBytes) :
    verifyFrames sha256 verifyComponents reader count statement rom protocol = .ok next ↔
      ∃ segments, segmentFrame.decodeMany count reader.inner = .ok (segments, next.inner) ∧
        reader.Follows next ∧ ∃ progress,
        segments.foldlM (verifyNext sha256 verifyComponents rom protocol)
          (.start akita statement.initial) = .ok progress ∧
        ensureChainEnd statement progress = .ok () := by
  unfold verifyFrames
  constructor
  · intro h
    obtain ⟨⟨next', progress⟩, hloop, h⟩ := Except.bind_eq_ok.mp h
    obtain ⟨hend, h⟩ := Except.check_eq_ok.mp h
    cases h
    obtain ⟨segments, hsegments, hfollows, hfold⟩ := (verifyFrameLoop_eq_ok hconsumed).mp hloop
    exact ⟨segments, hsegments, hfollows, progress, hfold, hend⟩
  · rintro ⟨segments, hsegments, hfollows, progress, hfold, hend⟩
    exact Except.bind_eq_ok.mpr ⟨(next, progress),
      (verifyFrameLoop_eq_ok hconsumed).mpr ⟨segments, hsegments, hfollows, hfold⟩,
      Except.check_eq_ok.mpr ⟨hend, rfl⟩⟩

end Verify

/-! ## The two verifiers -/

section Agreement

variable {sha256 : List Byte → Digest} {akita : Akita}
  {verifyComponents : NativeProtocolVersion → PackedBlockProof akita →
    PackedBlockVerificationInputs akita → Except PackedBlockProofError Unit}
  {input : List Byte} {expected : NativeStatement} {verified : VerifiedNativeReceipt}

theorem verifyNativeReceiptBytes_eq_ok :
    verifyNativeReceiptBytes sha256 verifyComponents input expected = .ok verified ↔
      input.length ≤ maxNativeReceiptBytes ∧ ∃ receipt : NativeReceipt akita, ∃ fields,
        input = receiptFront receipt.version ++ fields ∧
        receiptFields.decode fields =
          .ok ((receipt.statement, receipt.rom, receipt.segments), []) ∧
        AcceptedReceipt sha256 verifyComponents receipt expected ∧
        verified = ⟨expected.statementId, expected.segmentCount⟩ := by
  unfold verifyNativeReceiptBytes
  rw [Except.bind_eq_ok]
  constructor
  · rintro ⟨receipt, hdecode, hverify⟩
    obtain ⟨fields, hinput, hsize, hfields⟩ := decodeReceipt_eq_ok.mp hdecode
    exact ⟨hsize, receipt, fields, hinput, hfields, verifyNativeReceipt_eq_ok.mp hverify⟩
  · rintro ⟨hsize, receipt, fields, hinput, hfields, hverify⟩
    exact ⟨receipt, decodeReceipt_eq_ok.mpr ⟨fields, hinput, hsize, hfields⟩,
      verifyNativeReceipt_eq_ok.mpr hverify⟩

/-- The reader accepts exactly the receipts of the statement, up to the limit of a stream. -/
theorem reader_eq_ok :
    verifyNativeReceiptReader sha256 verifyComponents input expected = .ok verified ↔
      input.length ≤ maxNativeStreamReceiptBytes ∧ ∃ receipt : NativeReceipt akita, ∃ fields,
        input = receiptFront receipt.version ++ fields ∧
        receiptFields.decode fields =
          .ok ((receipt.statement, receipt.rom, receipt.segments), []) ∧
        AcceptedReceipt sha256 verifyComponents receipt expected ∧
        verified = ⟨expected.statementId, expected.segmentCount⟩ := by
  have hstart : (BoundedReader.new input).consumed ≤ maxNativeStreamReceiptBytes := Nat.zero_le _
  unfold verifyNativeReceiptReader
  constructor
  · intro h
    obtain ⟨hvalid, h⟩ := Except.check_eq_ok.mp h
    obtain ⟨⟨magic, reader₁⟩, hmagic, h⟩ := Except.bind_eq_ok.mp h
    obtain ⟨protocol, hprotocol, h⟩ := Except.bind_eq_ok.mp h
    obtain ⟨⟨code, reader₂⟩, hcode, h⟩ := Except.bind_eq_ok.mp h
    obtain ⟨version, hversion, h⟩ := Except.bind_eq_ok.mp h
    obtain ⟨hsame, h⟩ := Except.check_eq_ok.mp h
    obtain ⟨⟨statementBytes, reader₃⟩, hstatementBytes, h⟩ := Except.bind_eq_ok.mp h
    obtain ⟨statement, hstatement, h⟩ := Except.bind_eq_ok.mp h
    obtain ⟨hexpected, h⟩ := Except.check_eq_ok.mp h
    obtain ⟨⟨romBytes, reader₄⟩, hromBytes, h⟩ := Except.bind_eq_ok.mp h
    obtain ⟨rom, hrom, h⟩ := Except.bind_eq_ok.mp h
    obtain ⟨romIdentity, hromIdentity, h⟩ := Except.bind_eq_ok.mp h
    obtain ⟨hsameRom, h⟩ := Except.check_eq_ok.mp h
    obtain ⟨⟨count, reader₅⟩, hcount, h⟩ := Except.bind_eq_ok.mp h
    obtain ⟨hsameCount, h⟩ := Except.check_eq_ok.mp h
    obtain ⟨reader₆, hframes, h⟩ := Except.bind_eq_ok.mp h
    obtain ⟨hfinish, h⟩ := Except.check_eq_ok.mp h
    cases h
    obtain ⟨hdecodeMagic, hfollows₁⟩ := ((Streams.fixed 8).read_iff hstart).mp hmagic
    obtain ⟨hdecodeCode, hfollows₂⟩ := (Streams.u64.read_iff hfollows₁.consumed_le).mp hcode
    obtain ⟨hdecodeStatement, hfollows₃⟩ :=
      ((Streams.blob _).read_iff hfollows₂.consumed_le).mp hstatementBytes
    obtain ⟨hdecodeRom, hfollows₄⟩ :=
      ((Streams.blob _).read_iff hfollows₃.consumed_le).mp hromBytes
    obtain ⟨hdecodeCount, hfollows₅⟩ :=
      ((Streams.usize _).read_iff hfollows₄.consumed_le).mp hcount
    obtain ⟨segments, hsegments, hfollows₆, progress, hfold, hend⟩ :=
      (verifyFrames_eq_ok hfollows₅.consumed_le).mp hframes
    obtain ⟨hdecoded, hvalidStatement⟩ := NativeStatement.fromBytes_eq_ok.mp hstatement
    obtain rfl := not_not.mp (rejectIf_eq_ok.mp hexpected)
    obtain rfl := not_not.mp (rejectIf_eq_ok.mp hsameRom)
    obtain rfl := not_not.mp (rejectIf_eq_ok.mp hsameCount)
    obtain rfl := protocolFromReceiptMagic_eq_ok.mp hprotocol
    obtain rfl := NativeProtocolVersion.fromCode_eq_some.mp (someOr_eq_ok.mp hversion)
    obtain rfl : version = protocol := (protocol_eq _).trans (protocol_eq _).symm
    have hend' : reader₆.inner = [] := not_not.mp (rejectIf_eq_ok.mp hfinish)
    rw [hend'] at hsegments
    refine ⟨?_, ⟨version, statement, rom, segments⟩, reader₂.inner,
      decode_receiptFront.mpr ⟨_, hdecodeMagic, hdecodeCode⟩, ?_, ?_, rfl⟩
    · -- the reader has read the whole stream, and it stayed within its limit
      have htotal := (((((hfollows₁.trans hfollows₂).trans hfollows₃).trans hfollows₄).trans
        hfollows₅).trans hfollows₆)
      have hall : 0 + input.length = reader₆.consumed + reader₆.inner.length :=
        htotal.total_eq.symm
      have hwithin := htotal.consumed_le
      rw [hend', List.length_nil] at hall
      omega
    · exact decode_receiptFields.mpr ⟨_, _, _, _,
        Codec.decode_framed.mpr ⟨_, Except.mapError_eq_ok.mpr hdecodeStatement, hdecoded⟩,
        Codec.decode_framed.mpr ⟨_, Except.mapError_eq_ok.mpr hdecodeRom, hrom⟩,
        Except.mapError_eq_ok.mpr hdecodeCount, hsegments⟩
    · have hlength := (segmentFrame_exact.encodeMany_decodeMany hsegments).1
      have hstructure : verifyReceiptStructure sha256 verifyComponents
          (⟨version, statement, rom, segments⟩ : NativeReceipt akita) = .ok () :=
        Except.bind_eq_ok.mpr ⟨_, hromIdentity, Except.check_eq_ok.mpr
          ⟨rejectIf_eq_ok.mpr (by simp [hlength]), Except.bind_eq_ok.mpr ⟨_, hfold, hend⟩⟩⟩
      obtain ⟨hromEq, hcountEq, hchain, htransitions, hrows⟩ :=
        verifyReceiptStructure_eq_ok.mp hstructure
      exact ⟨rfl, NativeStatement.validate_eq_ok.mp hvalid, hromEq, hcountEq, hchain, htransitions,
        hrows⟩
  · rintro ⟨hsize, ⟨version, statement, rom, segments⟩, fields, hinput, hfields, haccepted, rfl⟩
    obtain rfl := haccepted.statement_eq
    have hvalid := NativeStatement.validate_eq_ok.mpr haccepted.valid
    have htotal : (BoundedReader.new input).total ≤ maxNativeStreamReceiptBytes :=
      (Nat.zero_add _).trans_le hsize
    obtain ⟨rest, hmagic, hcode⟩ := decode_receiptFront.mp hinput
    obtain ⟨first, second, count, third, hstatement, hrom, hcount, hsegments⟩ :=
      decode_receiptFields.mp hfields
    obtain ⟨statementBytes, hstatementBytes, hstated⟩ := Codec.decode_framed.mp hstatement
    obtain ⟨romBytes, hromBytes, hcommitted⟩ := Codec.decode_framed.mp hrom
    replace hstatementBytes := Except.mapError_eq_ok.mp hstatementBytes
    replace hromBytes := Except.mapError_eq_ok.mp hromBytes
    replace hcount := Except.mapError_eq_ok.mp hcount
    have hstructure : verifyReceiptStructure sha256 verifyComponents
        (⟨version, statement, rom, segments⟩ : NativeReceipt akita) = .ok () :=
      verifyReceiptStructure_eq_ok.mpr ⟨haccepted.rom, haccepted.count, haccepted.chain,
        haccepted.transitions, haccepted.rows⟩
    obtain ⟨romIdentity, hromIdentity, hstructure⟩ := Except.bind_eq_ok.mp hstructure
    obtain ⟨hsame, hstructure⟩ := Except.check_eq_ok.mp hstructure
    obtain ⟨progress, hfold, hend⟩ := Except.bind_eq_ok.mp hstructure
    obtain ⟨hsameRom, hlength⟩ := not_or.mp (rejectIf_eq_ok.mp hsame)
    have hcountEq := (segmentFrame_exact.encodeMany_decodeMany hsegments).1
    obtain ⟨reader₁, hread₁, rfl, htotal₁⟩ := (Streams.fixed 8).exists_read htotal hmagic
    obtain ⟨reader₂, hread₂, rfl, htotal₂⟩ :=
      Streams.u64.exists_read (htotal₁.trans_le htotal) hcode
    replace htotal₂ := htotal₂.trans htotal₁
    obtain ⟨reader₃, hread₃, rfl, htotal₃⟩ :=
      (Streams.blob _).exists_read (htotal₂.trans_le htotal) hstatementBytes
    replace htotal₃ := htotal₃.trans htotal₂
    obtain ⟨reader₄, hread₄, rfl, htotal₄⟩ :=
      (Streams.blob _).exists_read (htotal₃.trans_le htotal) hromBytes
    replace htotal₄ := htotal₄.trans htotal₃
    obtain ⟨reader₅, hread₅, rfl, htotal₅⟩ :=
      (Streams.usize _).exists_read (htotal₄.trans_le htotal) hcount
    replace htotal₅ := htotal₅.trans htotal₄
    have hskip : (reader₅.skipTo []).total = reader₅.total :=
      BoundedReader.total_skipTo (Nat.zero_le _)
    have hframes : verifyFrames sha256 verifyComponents reader₅ count statement rom version =
        .ok (reader₅.skipTo []) :=
      (verifyFrames_eq_ok ((Nat.le_add_right _ _).trans (htotal₅.trans_le htotal))).mpr
        ⟨segments, hsegments, ⟨hskip, (Nat.sub_le _ _).trans (htotal₅.trans_le htotal)⟩, progress,
          hfold, hend⟩
    refine Except.check_eq_ok.mpr ⟨hvalid, Except.bind_eq_ok.mpr ⟨_, hread₁, Except.bind_eq_ok.mpr
      ⟨_, protocolFromReceiptMagic_eq_ok.mpr rfl, Except.bind_eq_ok.mpr ⟨_, hread₂,
      Except.bind_eq_ok.mpr
      ⟨_, someOr_eq_ok.mpr (NativeProtocolVersion.fromCode_eq_some.mpr rfl), Except.check_eq_ok.mpr
      ⟨rejectIf_eq_ok.mpr ?_, Except.bind_eq_ok.mpr ⟨_, hread₃, Except.bind_eq_ok.mpr
      ⟨_, NativeStatement.fromBytes_eq_ok.mpr ⟨hstated, hvalid⟩, Except.check_eq_ok.mpr
      ⟨rejectIf_eq_ok.mpr (not_not_intro rfl), Except.bind_eq_ok.mpr ⟨_, hread₄,
      Except.bind_eq_ok.mpr ⟨_, hcommitted, Except.bind_eq_ok.mpr
      ⟨_, hromIdentity, Except.check_eq_ok.mpr
      ⟨rejectIf_eq_ok.mpr hsameRom, Except.bind_eq_ok.mpr ⟨_, hread₅, Except.check_eq_ok.mpr
      ⟨rejectIf_eq_ok.mpr ?_, Except.bind_eq_ok.mpr ⟨_, hframes, Except.check_eq_ok.mpr
      ⟨rejectIf_eq_ok.mpr (not_not_intro rfl), rfl⟩⟩⟩⟩⟩⟩⟩⟩⟩⟩⟩⟩⟩⟩⟩⟩⟩
    · rintro (h | h)
      · exact h rfl
      · exact h ((protocol_eq _).trans (protocol_eq _).symm)
    · rw [← hcountEq]
      exact hlength

/-- The verifier of a stream accepts exactly the inputs that the verifier of a buffer accepts, as
long as they are small enough for a buffer, with the same result. -/
theorem reader_agrees (sha256 : List Byte → Digest)
    (verifyComponents : NativeProtocolVersion → PackedBlockProof akita →
      PackedBlockVerificationInputs akita → Except PackedBlockProofError Unit)
    (input : List Byte) (expected : NativeStatement) (verified : VerifiedNativeReceipt) :
    verifyNativeReceiptBytes sha256 verifyComponents input expected = .ok verified ↔
      input.length ≤ maxNativeReceiptBytes ∧
        verifyNativeReceiptReader sha256 verifyComponents input expected = .ok verified := by
  have hlimit : maxNativeReceiptBytes ≤ maxNativeStreamReceiptBytes := by decide
  rw [verifyNativeReceiptBytes_eq_ok, reader_eq_ok]
  constructor
  · rintro ⟨hsize, haccepted⟩
    exact ⟨hsize, hsize.trans hlimit, haccepted⟩
  · rintro ⟨hsize, -, haccepted⟩
    exact ⟨hsize, haccepted⟩

end Agreement

end Zksm83
