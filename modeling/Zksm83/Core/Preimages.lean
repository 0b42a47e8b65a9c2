import Zksm83.Core.Authentication
import Zksm83.Isa.Alignment
import Zksm83.Receipt.Wire

/-!
# Canonical preimages

What is hashed of a domain and its two parts, and the bytes that stand for an event or a row in the
two transcripts, determine what they stand for. After `commitment.rs`, `bus_transcript.rs` and
`isa_transcript.rs`.
-/

namespace Zksm83

/-! ## Hashed parts -/

/-- The level of a tree node is a byte. -/
def HashDomain.InRange : HashDomain → Prop
  | .romNode level | .memoryNode level => level < 2 ^ 8
  | _ => True

theorem HashDomain.code_lt {domain : HashDomain} (hdomain : domain.InRange) :
    domain.code < 256 ^ 2 := by
  cases domain <;> simp only [InRange] at hdomain <;> simp only [code] <;> omega

theorem HashDomain.code_injective {domain domain' : HashDomain} (hdomain : domain.InRange)
    (hdomain' : domain'.InRange) (hcode : domain.code = domain'.code) : domain = domain' := by
  cases domain <;> cases domain' <;> simp only [InRange] at hdomain hdomain' <;>
    simp only [code] at hcode <;> first | rfl | omega | (congr 1; omega)

/-- Words of one width in front of equal strings are equal, and so is what follows them. -/
theorem leBytes_append_inj {width value value' : ℕ} {rest rest' : List Byte}
    (hvalue : value < 256 ^ width) (hvalue' : value' < 256 ^ width)
    (heq : leBytes width value ++ rest = leBytes width value' ++ rest') :
    value = value' ∧ rest = rest' := by
  obtain ⟨hword, hrest⟩ := List.append_inj heq (by simp)
  exact ⟨leBytes_injective hvalue hvalue' hword, hrest⟩

/-- What is hashed determines the domain and both parts. -/
theorem hashInput_determines {domain domain' : HashDomain} {left left' right right' : List Byte}
    (hdomain : domain.InRange) (hdomain' : domain'.InRange) (hleft : left.length < 2 ^ 128)
    (hleft' : left'.length < 2 ^ 128)
    (heq : hashInput domain left right = hashInput domain' left' right') :
    domain = domain' ∧ left = left' ∧ right = right' := by
  simp only [hashInput, List.append_assoc] at heq
  have hcode := List.append_cancel_left heq
  obtain ⟨hcode, hparts⟩ :=
    leBytes_append_inj (HashDomain.code_lt hdomain) (HashDomain.code_lt hdomain') hcode
  obtain ⟨hlength, hparts⟩ := leBytes_append_inj (by norm_num; exact hleft)
    (by norm_num; exact hleft') hparts
  obtain ⟨hleftEq, hparts⟩ := List.append_inj hparts hlength
  exact ⟨HashDomain.code_injective hdomain hdomain' hcode, hleftEq,
    (List.append_inj hparts (by simp)).2⟩

/-! ## Transcript elements -/

/-- The fields of a tuple are within the widths of their types. -/
structure BusTranscriptEvent.InRange (event : BusTranscriptEvent) : Prop where
  kind : event.kind < 2 ^ 8
  address : event.address < 2 ^ 16
  physicalAddress : event.physicalAddress < 2 ^ 32
  before : event.before < 2 ^ 8
  auxiliary : event.auxiliary < 2 ^ 8
  value : event.value < 2 ^ 8
  index : event.index < 2 ^ 64

/-- The bytes of a tuple determine the tuple and its place in the transcript. -/
theorem BusTranscriptEvent.canonicalBytes_injective {event event' : BusTranscriptEvent}
    {transcriptIndex transcriptIndex' : ℕ} (hevent : event.InRange) (hevent' : event'.InRange)
    (hindex : transcriptIndex < 2 ^ 64) (hindex' : transcriptIndex' < 2 ^ 64)
    (heq : event.canonicalBytes transcriptIndex = event'.canonicalBytes transcriptIndex') :
    event = event' ∧ transcriptIndex = transcriptIndex' := by
  simp only [canonicalBytes, List.append_assoc] at heq
  obtain ⟨hkind, heq⟩ := leBytes_append_inj hevent.kind hevent'.kind heq
  obtain ⟨haddress, heq⟩ := leBytes_append_inj hevent.address hevent'.address heq
  obtain ⟨hphysical, heq⟩ :=
    leBytes_append_inj hevent.physicalAddress hevent'.physicalAddress heq
  obtain ⟨hbefore, heq⟩ := leBytes_append_inj hevent.before hevent'.before heq
  obtain ⟨hauxiliary, heq⟩ := leBytes_append_inj hevent.auxiliary hevent'.auxiliary heq
  obtain ⟨hvalue, heq⟩ := leBytes_append_inj hevent.value hevent'.value heq
  obtain ⟨hlocal, heq⟩ := leBytes_append_inj hevent.index hevent'.index heq
  refine ⟨?_, leBytes_injective hindex hindex' heq⟩
  cases event
  cases event'
  simp only [mk.injEq]
  exact ⟨hkind, haddress, hphysical, hbefore, hauxiliary, hvalue, hlocal⟩

/-- The bytes of a packed row at its place in the ISA transcript. -/
def isaTranscriptBytes (transcriptIndex packedRow : ℕ) : List Byte :=
  leBytes 8 transcriptIndex ++ leBytes 16 packedRow

/-- An accepted row extends the root by its bytes. -/
theorem IsaTranscriptAccumulator.root_append {sha256 : List Byte → CommitmentRoot}
    {transcript next : IsaTranscriptAccumulator} {packedRow : ℕ}
    (happend : transcript.append sha256 packedRow = .ok next) :
    packedRow < 2 ^ 106 ∧ next.nextIndex = transcript.nextIndex + 1 ∧ next.nextIndex < 2 ^ 64 ∧
      next.root = hashParts sha256 .isaTranscriptElement transcript.root.toBytes
        (isaTranscriptBytes transcript.nextIndex packedRow) := by
  unfold append at happend
  by_cases hrow : 2 ^ 106 ≤ packedRow
  · rw [if_pos hrow] at happend
    exact nomatch happend
  by_cases hindex : 2 ^ 64 ≤ transcript.nextIndex + 1
  · rw [if_neg hrow, if_pos hindex] at happend
    exact nomatch happend
  rw [if_neg hrow, if_neg hindex] at happend
  cases happend
  exact ⟨Nat.lt_of_not_le hrow, rfl, Nat.lt_of_not_le hindex, rfl⟩

theorem isaTranscriptBytes_injective {transcriptIndex transcriptIndex' packedRow packedRow' : ℕ}
    (hindex : transcriptIndex < 2 ^ 64) (hindex' : transcriptIndex' < 2 ^ 64)
    (hrow : packedRow < 2 ^ 106) (hrow' : packedRow' < 2 ^ 106)
    (heq : isaTranscriptBytes transcriptIndex packedRow =
      isaTranscriptBytes transcriptIndex' packedRow') :
    packedRow = packedRow' ∧ transcriptIndex = transcriptIndex' := by
  obtain ⟨hplace, hbytes⟩ := leBytes_append_inj hindex hindex' heq
  have hwidth : 2 ^ 106 ≤ 256 ^ 16 := by norm_num
  exact ⟨leBytes_injective (hrow.trans_le hwidth) (hrow'.trans_le hwidth) hbytes, hplace⟩

/-- The hash preimage determines its domain and parts, a packed row determines its record and is
below its declared width, and the bytes of both transcripts determine their elements. -/
theorem preimages_injective :
    (∀ (domain domain' : HashDomain) (left left' right right' : List Byte), domain.InRange →
      domain'.InRange → left.length < 2 ^ 128 → left'.length < 2 ^ 128 →
      hashInput domain left right = hashInput domain' left' right' →
      domain = domain' ∧ left = left' ∧ right = right') ∧
    (∀ (row row' : AlignedInstruction) (value : ℕ), row.packed = .ok value →
      row'.packed = .ok value → row = row') ∧
    (∀ (row : AlignedInstruction) (value : ℕ), row.packed = .ok value → value < 2 ^ 106) ∧
    (∀ (event event' : BusTranscriptEvent) (index index' : ℕ), event.InRange → event'.InRange →
      index < 2 ^ 64 → index' < 2 ^ 64 →
      event.canonicalBytes index = event'.canonicalBytes index' →
      event = event' ∧ index = index') ∧
    (∀ (row row' : AlignedInstruction) (value value' index index' : ℕ), row.packed = .ok value →
      row'.packed = .ok value' → index < 2 ^ 64 → index' < 2 ^ 64 →
      isaTranscriptBytes index value = isaTranscriptBytes index' value' →
      row = row' ∧ index = index') := by
  refine ⟨fun domain domain' left left' right right' hdomain hdomain' hleft hleft' heq =>
      hashInput_determines hdomain hdomain' hleft hleft' heq,
    fun row row' value hrow hrow' => AlignedInstruction.packed_injective hrow hrow',
    fun row value hrow => AlignedInstruction.packed_lt hrow,
    fun event event' index index' hevent hevent' hindex hindex' heq =>
      BusTranscriptEvent.canonicalBytes_injective hevent hevent' hindex hindex' heq, ?_⟩
  intro row row' value value' index index' hrow hrow' hindex hindex' heq
  obtain ⟨hvalue, hplace⟩ := isaTranscriptBytes_injective hindex hindex'
    (AlignedInstruction.packed_lt hrow) (AlignedInstruction.packed_lt hrow') heq
  rw [← hvalue] at hrow'
  exact ⟨AlignedInstruction.packed_injective hrow hrow', hplace⟩

theorem preimages_injective_halt :
    IsaTable.packedRecord (decodeDefinedPrimary 0x76) < 2 ^ 106 ∧
      isaTranscriptBytes 0 (IsaTable.packedRecord (decodeDefinedPrimary 0x76)) ≠
        isaTranscriptBytes 1 (IsaTable.packedRecord (decodeDefinedPrimary 0x76)) := by
  have hpacked := @AlignedInstruction.packed_decoded 0x76 (by decide)
    (decodeDefinedPrimary 0x76) rfl
  refine ⟨preimages_injective.2.2.1 _ _ hpacked, fun heq => ?_⟩
  have hplace := (preimages_injective.2.2.2.2 _ _ _ _ 0 1 hpacked hpacked (by norm_num)
    (by norm_num) heq).2
  exact absurd hplace (by decide)

end Zksm83
