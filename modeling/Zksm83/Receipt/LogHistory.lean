import Zksm83.Core.Preimages
import Zksm83.Receipt.Verification

/-!
# Log histories

A cumulative log identity is a hash of the identity before it, so it stands for everything that was
ever added to its log. Two histories that lead from one identity to another are the same, unless
two of the inputs that were hashed on the way collide; two accepted receipts of one statement then
carry the same log commitments. After the cumulative identities of `receipt/identity.rs`.
-/

namespace Zksm83

variable {akita : Akita}

/-! ## Commitments and their bytes -/

theorem pushUsize_eq_ok {value : ℕ} {bytes : List Byte} :
    pushUsize value = .ok bytes ↔ value < 2 ^ 64 ∧ bytes = leBytes 8 value := by
  unfold pushUsize
  by_cases hle : 2 ^ 64 ≤ value
  · rw [if_pos hle]
    exact ⟨fun h => (by cases h), fun h => absurd h.1 (not_lt.mpr hle)⟩
  · rw [if_neg hle, Except.ok.injEq, eq_comm, and_iff_right (not_le.mp hle)]

theorem pushBytes_eq_ok {bytes encoded : List Byte} : pushBytes bytes = .ok encoded ↔
    bytes.length < 2 ^ 64 ∧ encoded = leBytes 8 bytes.length ++ bytes := by
  unfold pushBytes
  simp only [Except.bind_eq_ok, pushUsize_eq_ok]
  constructor
  · rintro ⟨_, ⟨hlt, rfl⟩, h⟩
    exact ⟨hlt, (Except.ok.inj h).symm⟩
  · rintro ⟨hlt, rfl⟩
    exact ⟨_, ⟨hlt, rfl⟩, rfl⟩

/-- Words of the wire in front of equal strings are equal, and so is what follows them. -/
theorem wordBytes_append_inj {value value' : ℕ} {rest rest' : List Byte} (hvalue : value < 2 ^ 64)
    (hvalue' : value' < 2 ^ 64) (heq : leBytes 8 value ++ rest = leBytes 8 value' ++ rest') :
    value = value' ∧ rest = rest' :=
  leBytes_append_inj (by simpa using hvalue) (by simpa using hvalue') heq

/-- The group behind its serialization and the length of that. -/
def PushesGroup (group : akita.CommittedGroup) (encoded : List Byte) : Prop :=
  ∃ serialized, akita.group.serializeCompressed group = .ok serialized ∧
    serialized.length < 2 ^ 64 ∧ encoded = leBytes 8 serialized.length ++ serialized

/-- As many groups with the same bytes are the same groups. -/
theorem groups_of_flatten {groups groups' : List akita.CommittedGroup}
    {encoded encoded' : List (List Byte)} (hgroups : List.Forall₂ PushesGroup groups encoded)
    (hgroups' : List.Forall₂ PushesGroup groups' encoded')
    (hlength : groups.length = groups'.length)
    (heq : encoded.flatten = encoded'.flatten) : groups = groups' := by
  induction hgroups generalizing groups' encoded' with
  | nil =>
    cases groups' with
    | nil => rfl
    | cons => cases hlength
  | @cons group bytes groups encoded hgroup _ ih =>
    cases hgroups' with
    | nil => cases hlength
    | @cons group' bytes' groups' encoded' hgroup' hgroups' =>
      obtain ⟨serialized, hserialized, hlt, rfl⟩ := hgroup
      obtain ⟨serialized', hserialized', hlt', rfl⟩ := hgroup'
      rw [List.flatten_cons, List.flatten_cons, List.append_assoc, List.append_assoc] at heq
      obtain ⟨hcount, hrest⟩ := wordBytes_append_inj hlt hlt' heq
      obtain ⟨rfl, hflat⟩ := List.append_inj hrest hcount
      have hsame := ((akita.group.inverse () group serialized).mpr ⟨hserialized, rfl⟩).symm.trans
        ((akita.group.inverse () group' serialized).mpr ⟨hserialized', rfl⟩)
      rw [Except.ok.inj hsame, ih hgroups' (Nat.succ.inj hlength) hflat]

/-- The canonical bytes of committed columns determine them. -/
theorem ColumnCommitments.canonicalBytes_injective
    {commitments commitments' : ColumnCommitments akita} {layout : PcsLayout} {bytes : List Byte}
    (h : commitments.canonicalBytes layout = .ok bytes)
    (h' : commitments'.canonicalBytes layout = .ok bytes) : commitments = commitments' := by
  have hparts {commitments : ColumnCommitments akita}
      (h : commitments.canonicalBytes layout = .ok bytes) : ∃ encoded,
      commitments.numVariables < 2 ^ 64 ∧ commitments.logicalColumnCount < 2 ^ 64 ∧
      commitments.groupColumns < 2 ^ 64 ∧ commitments.groups.length < 2 ^ 64 ∧
      List.Forall₂ PushesGroup commitments.groups encoded ∧
      bytes = leBytes 8 layout.commitmentDomain.length ++ (layout.commitmentDomain ++
        (leBytes 8 commitments.numVariables ++ (leBytes 8 commitments.logicalColumnCount ++
        (leBytes 8 commitments.groupColumns ++ (leBytes 8 commitments.groups.length ++
        encoded.flatten))))) := by
    unfold ColumnCommitments.canonicalBytes at h
    obtain ⟨_, h⟩ := Except.check_eq_ok.mp h
    obtain ⟨domain, hdomain, h⟩ := Except.bind_eq_ok.mp h
    obtain ⟨numVariables, hnumVariables, h⟩ := Except.bind_eq_ok.mp h
    obtain ⟨columnCount, hcolumnCount, h⟩ := Except.bind_eq_ok.mp h
    obtain ⟨groupColumns, hgroupColumns, h⟩ := Except.bind_eq_ok.mp h
    obtain ⟨groupCount, hgroupCount, h⟩ := Except.bind_eq_ok.mp h
    obtain ⟨groups, hgroups, h⟩ := Except.bind_eq_ok.mp h
    cases h
    obtain ⟨hnum, rfl⟩ := pushUsize_eq_ok.mp hnumVariables
    obtain ⟨hcolumns, rfl⟩ := pushUsize_eq_ok.mp hcolumnCount
    obtain ⟨hgroup, rfl⟩ := pushUsize_eq_ok.mp hgroupColumns
    obtain ⟨hcount, rfl⟩ := pushUsize_eq_ok.mp hgroupCount
    obtain ⟨-, rfl⟩ := pushBytes_eq_ok.mp hdomain
    refine ⟨groups, hnum, hcolumns, hgroup, hcount, ?_, by simp only [List.append_assoc]⟩
    refine (Except.mapM_eq_ok.mp hgroups).imp fun group encoded hencoded => ?_
    obtain ⟨serialized, hserialized, hpush⟩ := Except.bind_eq_ok.mp hencoded
    exact ⟨serialized, Except.mapError_eq_ok.mp hserialized, pushBytes_eq_ok.mp hpush⟩
  obtain ⟨encoded, hnum, hcolumns, hgroup, hcount, hgroups, hbytes⟩ := hparts h
  obtain ⟨encoded', hnum', hcolumns', hgroup', hcount', hgroups', hbytes'⟩ := hparts h'
  rw [hbytes, List.append_cancel_left_eq, List.append_cancel_left_eq] at hbytes'
  obtain ⟨hsameNum, hrest⟩ := wordBytes_append_inj hnum hnum' hbytes'
  obtain ⟨hsameColumns, hrest⟩ := wordBytes_append_inj hcolumns hcolumns' hrest
  obtain ⟨hsameGroup, hrest⟩ := wordBytes_append_inj hgroup hgroup' hrest
  obtain ⟨hsameCount, hrest⟩ := wordBytes_append_inj hcount hcount' hrest
  have hsameGroups := groups_of_flatten hgroups hgroups' hsameCount hrest
  cases commitments
  cases commitments'
  simp only at hsameNum hsameColumns hsameGroup hsameGroups
  rw [hsameNum, hsameColumns, hsameGroup, hsameGroups]

/-! ## Extensions of a log -/

/-- What a segment adds to a log. -/
structure LogExtension (akita : Akita) where
  commitment : ProtocolLogCommitments akita
  segmentIndex : UInt64
  count : UInt64

section History

variable (sha256 : List Byte → Digest) (protocol : NativeProtocolVersion) (kind : ProtocolLogKind)

/-- The identity of a log that a segment has extended. -/
def advanceBy (previous : CommitmentIdentity) (extension : LogExtension akita) :
    Except NativeReceiptError CommitmentIdentity :=
  advanceLog sha256 protocol previous kind extension.commitment extension.segmentIndex
    extension.count

/-- What is hashed of the entries of an extension. -/
def segmentInput (extension : LogExtension akita) (commitmentBytes : List Byte) : List Byte :=
  (logSegmentHash protocol kind extension.count commitmentBytes).bytes

/-- What is hashed of an extended log. -/
def chainInput (previous : CommitmentIdentity) (extension : LogExtension akita)
    (commitmentBytes : List Byte) : List Byte :=
  (logChainHash protocol previous kind extension.segmentIndex previous.committedLength
    (previous.committedLength + extension.count)
    (sha256 (segmentInput protocol kind extension commitmentBytes))).bytes

/-- What is hashed to extend a log once. -/
def advanceInputs (previous : CommitmentIdentity) (extension : LogExtension akita) :
    List (List Byte) :=
  if extension.count = 0 then []
  else match extension.commitment.canonicalBytes with
    | .ok bytes => [segmentInput protocol kind extension bytes,
        chainInput sha256 protocol kind previous extension bytes]
    | .error _ => []

/-- What is hashed over a history of extensions. -/
def historyInputs : CommitmentIdentity → List (LogExtension akita) → List (List Byte)
  | _, [] => []
  | previous, extension :: extensions =>
    advanceInputs sha256 protocol kind previous extension ++
      match advanceBy sha256 protocol kind previous extension with
      | .ok next => historyInputs next extensions
      | .error _ => []

/-- A step of a log: an extension with entries, whose hashed inputs are among the given ones. -/
structure LogStep (inputs : Set (List Byte)) (previous : CommitmentIdentity)
    (extension : LogExtension akita) (next : CommitmentIdentity) : Prop where
  count_ne : extension.count ≠ 0
  advance : advanceBy sha256 protocol kind previous extension = .ok next
  hashed : ∀ input ∈ advanceInputs sha256 protocol kind previous extension, input ∈ inputs

variable {sha256 protocol kind} {inputs : Set (List Byte)}
  {previous previous' next : CommitmentIdentity} {extension extension' : LogExtension akita}

theorem advanceBy_eq_ok : advanceBy sha256 protocol kind previous extension = .ok next ↔
    previous.committedLength.toNat + extension.count.toNat < 2 ^ 64 ∧
    previous.validateFor sha256 protocol kind.commitmentKind previous.committedLength = .ok () ∧
    (extension.count = 0 ∧ next = previous ∨ extension.count ≠ 0 ∧ ∃ bytes,
      extension.commitment.canonicalBytes = .ok bytes ∧
      next = ⟨kind.commitmentKind, layoutDigest sha256 protocol kind.commitmentKind,
        previous.committedLength + extension.count,
        sha256 (chainInput sha256 protocol kind previous extension bytes)⟩) := by
  unfold advanceBy advanceLog checkedAdd
  constructor
  · intro h
    obtain ⟨finish, hfinish, h⟩ := Except.bind_eq_ok.mp h
    obtain ⟨hlt, hfinish⟩ := Except.check_eq_ok.mp hfinish
    cases hfinish
    obtain ⟨hvalid, h⟩ := Except.check_eq_ok.mp h
    refine ⟨not_le.mp (rejectIf_eq_ok.mp hlt), hvalid, ?_⟩
    by_cases hzero : extension.count = 0
    · rw [if_pos hzero] at h
      exact .inl ⟨hzero, (Except.ok.inj h).symm⟩
    · rw [if_neg hzero] at h
      obtain ⟨bytes, hbytes, h⟩ := Except.bind_eq_ok.mp h
      exact .inr ⟨hzero, bytes, Except.mapError_eq_ok.mp hbytes, (Except.ok.inj h).symm⟩
  · rintro ⟨hlt, hvalid, hnext⟩
    refine Except.bind_eq_ok.mpr ⟨_, Except.check_eq_ok.mpr
      ⟨rejectIf_eq_ok.mpr (not_le.mpr hlt), rfl⟩, Except.check_eq_ok.mpr ⟨hvalid, ?_⟩⟩
    rcases hnext with ⟨hzero, rfl⟩ | ⟨hne, bytes, hbytes, rfl⟩
    · rw [if_pos hzero]
      rfl
    · rw [if_neg hne]
      exact Except.bind_eq_ok.mpr ⟨bytes, Except.mapError_eq_ok.mpr hbytes, rfl⟩

/-- Appending to a hash determines what was appended. -/
theorem Appends.injective {α : Type} [Wire α] {append : CanonicalHash → α → CanonicalHash}
    (happend : Appends append) (hfits : ∀ value : α, Wire.fits value) {hash : CanonicalHash}
    (value value' : α) (heq : (append hash value).bytes = (append hash value').bytes) :
    value = value' := by
  obtain ⟨bytes, hencode, hbytes⟩ := happend value
  obtain ⟨bytes', hencode', hbytes'⟩ := happend value'
  rw [hbytes, hbytes', List.append_cancel_left_eq] at heq
  subst heq
  have hdecode := (Wire.exact (α := α)).decode_encode (hfits value) hencode []
  rw [(Wire.exact (α := α)).decode_encode (hfits value') hencode' []] at hdecode
  exact (Prod.mk.inj (Except.ok.inj hdecode)).1.symm

/-- What is hashed of an extended log determines all its parts. -/
theorem logChainHash_injective {segmentIndex segmentIndex' start start' finish finish' : UInt64}
    {segment segment' : Digest}
    (heq : (logChainHash protocol previous kind segmentIndex start finish segment).bytes =
      (logChainHash protocol previous' kind segmentIndex' start' finish' segment').bytes) :
    previous = previous' ∧ segmentIndex = segmentIndex' ∧ segment = segment' := by
  have happend := appends_identity.pair (appends_u64.pair (appends_u64.pair (appends_u64.pair
    (appends_u64.pair appends_fixed))))
  have hsame := happend.injective (by simp [Wire.fits])
    (previous, kind.code, segmentIndex, start, finish, segment)
    (previous', kind.code, segmentIndex', start', finish', segment') heq
  simp only [Prod.mk.injEq] at hsame
  exact ⟨hsame.1, hsame.2.2.1, hsame.2.2.2.2.2⟩

/-- What is hashed of the entries of an extension determines their number and the bytes of their
commitment. -/
theorem segmentInput_injective {bytes bytes' : List Byte}
    (heq : segmentInput protocol kind extension bytes =
      segmentInput protocol kind extension' bytes') :
    extension.count = extension'.count ∧ bytes = bytes' := by
  simp only [segmentInput, logSegmentHash, CanonicalHash.u64, CanonicalHash.sizedBytes,
    CanonicalHash.sized, List.append_assoc, List.append_cancel_left_eq] at heq
  obtain ⟨hcount, hrest⟩ := wordBytes_append_inj (UInt64.toNat_lt _) (UInt64.toNat_lt _) heq
  obtain ⟨-, hbytes⟩ := List.append_inj hrest (by simp)
  exact ⟨UInt64.toNat_inj.mp hcount, hbytes⟩

namespace LogStep

theorem length_lt (h : LogStep sha256 protocol kind inputs previous extension next) :
    previous.committedLength.toNat < next.committedLength.toNat := by
  obtain ⟨hlt, -, hnext⟩ := advanceBy_eq_ok.mp h.advance
  rcases hnext with ⟨hzero, -⟩ | ⟨hne, bytes, -, rfl⟩
  · exact absurd hzero h.count_ne
  · have hpositive : extension.count.toNat ≠ 0 := fun hzero => hne (UInt64.toNat_inj.mp hzero)
    show _ < (previous.committedLength + extension.count).toNat
    rw [UInt64.toNat_add, Nat.mod_eq_of_lt hlt]
    omega

/-- The identity after an extension determines the identity before it and the extension. -/
theorem determined (hinjective : Set.InjOn sha256 inputs)
    (h : LogStep sha256 protocol kind inputs previous extension next)
    (h' : LogStep sha256 protocol kind inputs previous' extension' next) :
    previous = previous' ∧ extension = extension' := by
  have hparts {previous : CommitmentIdentity} {extension : LogExtension akita}
      (h : LogStep sha256 protocol kind inputs previous extension next) : ∃ bytes,
      extension.commitment.canonicalBytes = .ok bytes ∧
      next.digest = sha256 (chainInput sha256 protocol kind previous extension bytes) ∧
      segmentInput protocol kind extension bytes ∈ inputs ∧
      chainInput sha256 protocol kind previous extension bytes ∈ inputs := by
    obtain ⟨-, -, hnext⟩ := advanceBy_eq_ok.mp h.advance
    rcases hnext with ⟨hzero, -⟩ | ⟨hne, bytes, hbytes, rfl⟩
    · exact absurd hzero h.count_ne
    · have hhashed := h.hashed
      simp only [advanceInputs, if_neg hne, hbytes, List.mem_cons, List.not_mem_nil, or_false,
        forall_eq_or_imp, forall_eq] at hhashed
      exact ⟨bytes, hbytes, rfl, hhashed⟩
  obtain ⟨bytes, hbytes, hdigest, hsegment, hchain⟩ := hparts h
  obtain ⟨bytes', hbytes', hdigest', hsegment', hchain'⟩ := hparts h'
  -- equal digests come from equal inputs, first of the log and then of its last entries
  obtain ⟨rfl, hindex, hdigests⟩ :=
    logChainHash_injective (hinjective hchain hchain' (hdigest.symm.trans hdigest'))
  obtain ⟨hcount, rfl⟩ := segmentInput_injective (hinjective hsegment hsegment' hdigests)
  refine ⟨rfl, ?_⟩
  obtain ⟨⟨inner⟩, segmentIndex, count⟩ := extension
  obtain ⟨⟨inner'⟩, segmentIndex', count'⟩ := extension'
  obtain rfl : inner = inner' := ColumnCommitments.canonicalBytes_injective hbytes hbytes'
  obtain rfl : segmentIndex = segmentIndex' := hindex
  obtain rfl : count = count' := hcount
  rfl

end LogStep

/-- A history is a run of the extensions that have entries. -/
theorem runs_of_advance (inputs : Set (List Byte)) {extensions : List (LogExtension akita)}
    {start identity : CommitmentIdentity}
    (h : extensions.foldlM (advanceBy sha256 protocol kind) start = .ok identity)
    (hinputs : ∀ input ∈ historyInputs sha256 protocol kind start extensions, input ∈ inputs) :
    Runs (LogStep sha256 protocol kind inputs) start
      (extensions.filter (fun extension => extension.count ≠ 0)) identity := by
  induction extensions generalizing start with
  | nil =>
    cases h
    exact .nil _
  | cons extension extensions ih =>
    rw [List.foldlM_cons] at h
    obtain ⟨next, hnext, h⟩ := Except.bind_eq_ok.mp h
    simp only [historyInputs, hnext, List.mem_append] at hinputs
    have htail := ih h (fun input hinput => hinputs input (.inr hinput))
    by_cases hzero : extension.count = 0
    · obtain ⟨-, -, hsame⟩ := advanceBy_eq_ok.mp hnext
      rcases hsame with ⟨-, rfl⟩ | ⟨hne, -⟩
      · rwa [List.filter_cons_of_neg (by simpa using hzero)]
      · exact absurd hzero hne
    · rw [List.filter_cons_of_pos (by simpa using hzero)]
      exact .cons ⟨hzero, hnext, fun input hinput => hinputs input (.inl hinput)⟩ htail

end History

/-! ## Histories -/

/-- Two histories between the same identities have the same extensions with entries, unless some of
the inputs collide. -/
theorem history_unique {sha256 : List Byte → Digest} {protocol : NativeProtocolVersion}
    {kind : ProtocolLogKind} {inputs : Set (List Byte)} (hinjective : Set.InjOn sha256 inputs)
    {start identity : CommitmentIdentity} {extensions extensions' : List (LogExtension akita)}
    (h : extensions.foldlM (advanceBy sha256 protocol kind) start = .ok identity)
    (h' : extensions'.foldlM (advanceBy sha256 protocol kind) start = .ok identity)
    (hinputs : ∀ input ∈ historyInputs sha256 protocol kind start extensions, input ∈ inputs)
    (hinputs' : ∀ input ∈ historyInputs sha256 protocol kind start extensions', input ∈ inputs) :
    extensions.filter (·.count ≠ 0) = extensions'.filter (·.count ≠ 0) :=
  (runs_of_advance inputs h hinputs).labels_unique (·.committedLength.toNat)
    (fun _ _ _ hstep => hstep.length_lt)
    (fun _ _ _ _ _ hstep hstep' => hstep.determined hinjective hstep')
    (runs_of_advance inputs h' hinputs')

/-- Two of the inputs have the same digest. -/
def Collides (sha256 : List Byte → Digest) (inputs : List (List Byte)) : Prop :=
  ∃ input ∈ inputs, ∃ input' ∈ inputs, input ≠ input' ∧ sha256 input = sha256 input'

theorem collides_or_injOn (sha256 : List Byte → Digest) (inputs : List (List Byte)) :
    Collides sha256 inputs ∨ Set.InjOn sha256 {input | input ∈ inputs} := by
  rw [or_iff_not_imp_left]
  intro hnone input hinput input' hinput' hsame
  by_contra hne
  exact hnone ⟨input, hinput, input', hinput', hne, hsame⟩

/-- Extensions of a log that lead from one identity to another. -/
structure LogHistory (akita : Akita) (sha256 : List Byte → Digest)
    (protocol : NativeProtocolVersion) (kind : ProtocolLogKind)
    (start identity : CommitmentIdentity) where
  extensions : List (LogExtension akita)
  advances : extensions.foldlM (advanceBy sha256 protocol kind) start = .ok identity

/-- What is hashed for the identity of a commitment. -/
def identityInput (sha256 : List Byte → Digest) (protocol : NativeProtocolVersion)
    (kind : CommitmentKind) (length : UInt64) (commitment : List Byte) : List Byte :=
  (((((CanonicalHash.new (v2Domain protocol identityDomainV2)).u64 kind.code).fixed
    (layoutDigest sha256 protocol kind)).u64 length).sizedBytes commitment).bytes

/-- The input that is hashed for a commitment with canonical bytes. -/
def directInputs {ε : Type} (sha256 : List Byte → Digest) (protocol : NativeProtocolVersion)
    (kind : CommitmentKind) (length : UInt64) (bytes : Except ε (List Byte)) : List (List Byte) :=
  match bytes with
  | .ok bytes => [identityInput sha256 protocol kind length bytes]
  | .error _ => []

def romInputs (sha256 : List Byte → Digest) (protocol : NativeProtocolVersion)
    (commitment : RomCommitment akita) : List (List Byte) :=
  directInputs sha256 protocol .rom commitment.logicalByteLength commitment.canonicalBytes

def memoryInputs (sha256 : List Byte → Digest) (protocol : NativeProtocolVersion)
    (commitment : MemoryCommitment akita) : List (List Byte) :=
  directInputs sha256 protocol .mutableMemory (.ofNat memoryImageBytes) commitment.canonicalBytes

section Identities

variable {sha256 : List Byte → Digest} {protocol : NativeProtocolVersion}

theorem identityInput_injective {kind : CommitmentKind} {length length' : UInt64}
    {commitment commitment' : List Byte}
    (heq : identityInput sha256 protocol kind length commitment =
      identityInput sha256 protocol kind length' commitment') :
    commitment = commitment' := by
  simp only [identityInput, CanonicalHash.u64, CanonicalHash.fixed, CanonicalHash.sizedBytes,
    CanonicalHash.sized, List.append_assoc, List.append_cancel_left_eq] at heq
  obtain ⟨-, hrest⟩ := wordBytes_append_inj (UInt64.toNat_lt _) (UInt64.toNat_lt _) heq
  exact (List.append_inj hrest (by simp)).2

/-- A memory commitment is determined by its identity, unless the hashed inputs collide. -/
theorem memory_of_identity {commitment commitment' : MemoryCommitment akita}
    {identity : CommitmentIdentity} {inputs : Set (List Byte)}
    (hinjective : Set.InjOn sha256 inputs)
    (h : directMemoryIdentityFor sha256 protocol commitment = .ok identity)
    (h' : directMemoryIdentityFor sha256 protocol commitment' = .ok identity)
    (hinputs : ∀ input ∈ memoryInputs sha256 protocol commitment, input ∈ inputs)
    (hinputs' : ∀ input ∈ memoryInputs sha256 protocol commitment', input ∈ inputs) :
    commitment = commitment' := by
  obtain ⟨bytes, hbytes, h⟩ := Except.bind_eq_ok.mp h
  obtain ⟨bytes', hbytes', h'⟩ := Except.bind_eq_ok.mp h'
  rw [Except.mapError_eq_ok] at hbytes hbytes'
  have hdigest := congrArg CommitmentIdentity.digest
    ((Except.ok.inj h).trans (Except.ok.inj h').symm)
  simp only [memoryInputs, directInputs, hbytes, hbytes', List.mem_singleton, forall_eq]
    at hinputs hinputs'
  obtain rfl := identityInput_injective (hinjective hinputs hinputs' hdigest)
  exact congrArg MemoryCommitment.mk (ColumnCommitments.canonicalBytes_injective hbytes hbytes')

/-- The same for a ROM commitment. -/
theorem rom_of_identity {commitment commitment' : RomCommitment akita}
    {identity : CommitmentIdentity} {inputs : Set (List Byte)}
    (hinjective : Set.InjOn sha256 inputs)
    (h : directRomIdentityFor sha256 protocol commitment = .ok identity)
    (h' : directRomIdentityFor sha256 protocol commitment' = .ok identity)
    (hinputs : ∀ input ∈ romInputs sha256 protocol commitment, input ∈ inputs)
    (hinputs' : ∀ input ∈ romInputs sha256 protocol commitment', input ∈ inputs) :
    commitment = commitment' := by
  obtain ⟨-, h⟩ := Except.check_eq_ok.mp h
  obtain ⟨-, h'⟩ := Except.check_eq_ok.mp h'
  obtain ⟨bytes, hbytes, h⟩ := Except.bind_eq_ok.mp h
  obtain ⟨bytes', hbytes', h'⟩ := Except.bind_eq_ok.mp h'
  rw [Except.mapError_eq_ok] at hbytes hbytes'
  have hdigest := congrArg CommitmentIdentity.digest
    ((Except.ok.inj h).trans (Except.ok.inj h').symm)
  simp only [romInputs, directInputs, hbytes, hbytes', List.mem_singleton, forall_eq]
    at hinputs hinputs'
  obtain rfl := identityInput_injective (hinjective hinputs hinputs' hdigest)
  obtain ⟨inner, hinner, hcanonical⟩ := Except.bind_eq_ok.mp hbytes
  obtain ⟨inner', hinner', hcanonical'⟩ := Except.bind_eq_ok.mp hbytes'
  rw [Except.mapError_eq_ok] at hinner hinner'
  cases hcanonical
  obtain ⟨hlength, hsame⟩ := wordBytes_append_inj (UInt64.toNat_lt _) (UInt64.toNat_lt _)
    (Except.ok.inj hcanonical')
  obtain ⟨logicalByteLength, columns⟩ := commitment
  obtain ⟨logicalByteLength', columns'⟩ := commitment'
  obtain rfl := hsame
  obtain rfl : logicalByteLength' = logicalByteLength := UInt64.toNat_inj.mp hlength
  exact congrArg (RomCommitment.mk logicalByteLength')
    (ColumnCommitments.canonicalBytes_injective hinner hinner')

end Identities

/-! ## Receipts of one statement -/

/-- What a segment adds to one of the logs. -/
def NativeSegmentReceipt.extension (kind : ProtocolLogKind) (segment : NativeSegmentReceipt akita) :
    LogExtension akita :=
  ⟨segment.logs, segment.segmentIndex, segment.logCounts.get kind⟩

/-- What is hashed of the commitments of a receipt. -/
def receiptInputs (sha256 : List Byte → Digest) (receipt : NativeReceipt akita) :
    List (List Byte) :=
  romInputs sha256 receipt.version receipt.rom ++
    receipt.segments.flatMap (fun segment =>
      memoryInputs sha256 receipt.version segment.initialMemory ++
        memoryInputs sha256 receipt.version segment.finalMemory) ++
    ProtocolLogKind.all.flatMap (fun kind => historyInputs sha256 receipt.version kind
      (receipt.statement.initial.logs.get kind) (receipt.segments.map (·.extension kind)))

section Receipts

variable {sha256 : List Byte → Digest}
  {verifyComponents : NativeProtocolVersion → PackedBlockProof akita →
    PackedBlockVerificationInputs akita → Except PackedBlockProofError Unit}
  {receipt : NativeReceipt akita} {expected : NativeStatement}

/-- A segment extends every log from its first boundary to its last. -/
theorem SegmentChecked.advanceBy_extension {rom : RomCommitment akita}
    {protocol : NativeProtocolVersion} {segment : NativeSegmentReceipt akita}
    (h : SegmentChecked sha256 verifyComponents rom protocol segment) (kind : ProtocolLogKind) :
    advanceBy sha256 protocol kind (segment.initial.logs.get kind) (segment.extension kind) =
      .ok (segment.finalBoundary.logs.get kind) := by
  obtain ⟨logs, hlogs, hnext⟩ := Except.bind_eq_ok.mp h.advance
  obtain ⟨-, hnext⟩ := Except.check_eq_ok.mp hnext
  rw [← Except.ok.inj hnext]
  obtain ⟨bus, hbus, hlogs⟩ := Except.bind_eq_ok.mp hlogs
  obtain ⟨input, hinput, hlogs⟩ := Except.bind_eq_ok.mp hlogs
  obtain ⟨output, houtput, hlogs⟩ := Except.bind_eq_ok.mp hlogs
  obtain ⟨isa, hisa, hlogs⟩ := Except.bind_eq_ok.mp hlogs
  cases hlogs
  cases kind with
  | bus => exact hbus
  | input => exact hinput
  | output => exact houtput
  | isa => exact hisa

/-- The segments of an accepted receipt are a history of every log. -/
theorem AcceptedReceipt.history (h : AcceptedReceipt sha256 verifyComponents receipt expected)
    (kind : ProtocolLogKind) :
    (receipt.segments.map (·.extension kind)).foldlM (advanceBy sha256 receipt.version kind)
      (expected.initial.logs.get kind) = .ok (expected.finalBoundary.logs.get kind) :=
  Runs.foldlM_eq_ok.mpr (h.chain.linked.runs (·.logs.get kind) (·.extension kind)
    (fun segment hsegment => (h.chain.checked segment hsegment).advanceBy_extension kind))

theorem mem_receiptInputs {input : List Byte} : input ∈ receiptInputs sha256 receipt ↔
    (input ∈ romInputs sha256 receipt.version receipt.rom ∨ ∃ segment ∈ receipt.segments,
      input ∈ memoryInputs sha256 receipt.version segment.initialMemory ∨
      input ∈ memoryInputs sha256 receipt.version segment.finalMemory) ∨
    ∃ kind, input ∈ historyInputs sha256 receipt.version kind
      (receipt.statement.initial.logs.get kind) (receipt.segments.map (·.extension kind)) := by
  have hall (kind : ProtocolLogKind) : kind ∈ ProtocolLogKind.all := by cases kind <;> decide
  simp only [receiptInputs, List.mem_append, List.mem_flatMap, hall, true_and]

end Receipts

/-- A receipt that was accepted for a statement. -/
structure ReceiptFor (akita : Akita) (sha256 : List Byte → Digest)
    (verifyComponents : NativeProtocolVersion → PackedBlockProof akita →
      PackedBlockVerificationInputs akita → Except PackedBlockProofError Unit)
    (expected : NativeStatement) where
  receipt : NativeReceipt akita
  verified : VerifiedNativeReceipt
  verifies : verifyNativeReceipt sha256 verifyComponents receipt expected = .ok verified

/-- Two receipts commit to the same things: the ROM, the memory in front of the first segment and
behind the last, and the entries of every log, segment by segment. -/
structure CommitAlike (receipt receipt' : NativeReceipt akita) : Prop where
  rom : receipt.rom = receipt'.rom
  initialMemory : ∀ first first', receipt.segments.head? = some first →
    receipt'.segments.head? = some first' → first.initialMemory = first'.initialMemory
  finalMemory : ∀ last last', receipt.segments.getLast? = some last →
    receipt'.segments.getLast? = some last' → last.finalMemory = last'.finalMemory
  logs : ∀ kind, (receipt.segments.map (·.extension kind)).filter (·.count ≠ 0) =
    (receipt'.segments.map (·.extension kind)).filter (·.count ≠ 0)

end Zksm83
